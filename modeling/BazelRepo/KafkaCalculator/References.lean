import BazelRepo.KafkaCalculator.Validity

namespace KafkaCalculator

open Library

/-- What the code of a phase does: it passes what the phase passes, and fails with an error of the phase. -/
structure Phase.Checks (phase : Phase) (definition : GraphDefinition) {α : Type} (result : Validation α)
    (post : α → Prop) : Prop where
  passes : ∀ value, result = .ok value → phase.Passes definition ∧ post value
  fails : ∀ failure, result = .error failure →
    ∃ error, failure = .invalid error ∧ error.phase = phase ∧ error.Describes definition

theorem reject_eq_error {α : Type} {error : GraphValidationError} {failure : Failure GraphValidationError} :
    (reject error : Validation α) = .error failure ↔ .invalid error = failure := by
  unfold reject
  rw [Except.error.injEq]

theorem reject_ne_ok {α : Type} {error : GraphValidationError} {value : α} : (reject error : Validation α) ≠ .ok value := nofun

theorem reject_fails {α : Type} {definition : GraphDefinition} {phase : Phase} {error : GraphValidationError}
    (same : error.phase = phase) (describes : error.Describes definition) :
    ∀ failure, (reject error : Validation α) = .error failure →
      ∃ error, failure = .invalid error ∧ error.phase = phase ∧ error.Describes definition := by
  intro failure failed
  rw [reject_eq_error] at failed
  exact ⟨error, failed.symm, same, describes⟩

theorem validateSettingKey_eq_ok {node : AnyNode} :
    validateSettingKey node = .ok () ↔ ∀ key, node.settingKey = some key → ¬ Blank key := by
  cases node with
  | setting node =>
    show (if (trim node.nodeType.key).isEmpty = true then reject _ else .ok ()) = .ok () ↔ _
    rw [reject, reject_eq_ok, trim_isEmpty]
    simp [AnyNode.settingKey]
  | input node | constant node | derived node | finding node =>
    constructor
    · intro _ key found
      cases found
    · intro _
      rfl

theorem validateLocalNode_eq_ok {node : AnyNode} : validateLocalNode node = .ok () ↔
    (∀ key, node.settingKey = some key → ¬ Blank key) ∧ ∀ operand ∈ operands node, ¬ Blank operand.role := by
  unfold validateLocalNode
  rw [bind_eq_ok]
  constructor
  · rintro ⟨⟨⟩, keyed, roles⟩
    refine ⟨validateSettingKey_eq_ok.mp keyed, ?_⟩
    intro operand member
    rcases List.getElem?_of_mem member with ⟨index, found⟩
    have passed := forM_eq_ok.mp roles (operand, index) (List.mem_zipIdx_iff_getElem?.mpr found)
    rw [reject, reject_eq_ok, trim_isEmpty] at passed
    exact passed.1
  · rintro ⟨keyed, roles⟩
    refine ⟨(), validateSettingKey_eq_ok.mpr keyed, forM_eq_ok.mpr ?_⟩
    rintro ⟨operand, index⟩ member
    have named := roles operand (List.mem_of_getElem? (List.mem_zipIdx_iff_getElem?.mp member))
    exact if_neg (fun blank => named (trim_isEmpty.mp blank))

theorem validateLocalNode_error {definition : GraphDefinition} {node : AnyNode}
    {failure : Failure GraphValidationError} (member : node ∈ definition.nodes)
    (failed : validateLocalNode node = .error failure) :
    ∃ error, failure = .invalid error ∧ error.phase = .localValidity ∧ error.Describes definition := by
  rcases bind_eq_error.mp failed with failed | ⟨_, _, failed⟩
  · cases node with
    | setting node =>
      unfold validateSettingKey at failed
      dsimp only at failed
      split at failed
      · rename_i blank
        rw [reject_eq_error] at failed
        subst failed
        exact ⟨_, rfl, rfl, .setting node, member, rfl, _, rfl, trim_isEmpty.mp blank⟩
      · cases failed
    | input node | constant node | derived node | finding node => cases failed
  · rcases exists_of_forM_error failed with ⟨⟨operand, index⟩, found, failed⟩
    split at failed
    · rename_i blank
      rw [reject_eq_error] at failed
      subst failed
      exact ⟨_, rfl, rfl, node, member, rfl, operand, List.mem_zipIdx_iff_getElem?.mp found, trim_isEmpty.mp blank⟩
    · cases failed

theorem checks_localValidity (definition : GraphDefinition) :
    Phase.localValidity.Checks definition (validateLocalValidity definition) fun _ => True := by
  unfold validateLocalValidity
  split
  · rename_i none
    exact ⟨fun _ passed => absurd passed reject_ne_ok, reject_fails rfl (List.isEmpty_iff.mp none)⟩
  · rename_i some
    constructor
    · intro _ passed
      have each := forM_eq_ok.mp passed
      refine ⟨⟨?_, ?_, ?_⟩, trivial⟩
      · intro none
        exact some (List.isEmpty_iff.mpr none)
      · intro node member
        exact (validateLocalNode_eq_ok.mp (each node member)).1
      · intro node member
        exact (validateLocalNode_eq_ok.mp (each node member)).2
    · intro failure failed
      rcases exists_of_forM_error failed with ⟨node, member, failed⟩
      exact validateLocalNode_error member failed

section Index

variable {α κ : Type} [Ord κ] [Std.TransOrd κ]

/-- The index gives every key its place, and so no key has two. -/
def IndexOf (key : α → κ) (items : List α) (index : BTreeMap κ Nat) : Prop :=
  ∀ (k : κ) (place : Nat), index[k]? = some place ↔ (items.map key)[place]? = some k

theorem IndexOf.nodup {key : α → κ} {items : List α} {index : BTreeMap κ Nat} (indexed : IndexOf key items index) :
    (items.map key).Nodup := by
  rw [List.nodup_iff_getElem?_ne_getElem?]
  intro first duplicate less bound same
  have one := (indexed _ first).mpr (List.getElem?_eq_getElem (less.trans bound))
  rw [List.getElem?_eq_getElem (less.trans bound)] at same
  have other := (indexed _ duplicate).mpr same.symm
  rw [one] at other
  cases other
  exact lt_irrefl _ less

theorem IndexOf.item {key : α → κ} {items : List α} {index : BTreeMap κ Nat} (indexed : IndexOf key items index)
    {k : κ} {place : Nat} (found : index[k]? = some place) : ∃ item, items[place]? = some item ∧ key item = k := by
  have held := (indexed k place).mp found
  rw [List.getElem?_map, Option.map_eq_some_iff] at held
  exact held

theorem IndexOf.absent {key : α → κ} {items : List α} {index : BTreeMap κ Nat} (indexed : IndexOf key items index)
    {k : κ} (missing : index[k]? = none) : ∀ item ∈ items, key item ≠ k := by
  rintro item member rfl
  rcases List.getElem?_of_mem (List.mem_map_of_mem member) with ⟨place, held⟩
  rw [(indexed _ place).mpr held] at missing
  cases missing

theorem IndexOf.contains {key : α → κ} {items : List α} {index : BTreeMap κ Nat} (indexed : IndexOf key items index)
    {k : κ} : index.contains k = true ↔ ∃ item ∈ items, key item = k := by
  rw [Std.ExtTreeMap.contains_eq_isSome_getElem?, Option.isSome_iff_exists, ← List.mem_map]
  constructor
  · rintro ⟨place, found⟩
    exact List.mem_of_getElem? ((indexed k place).mp found)
  · intro member
    rcases List.getElem?_of_mem member with ⟨place, found⟩
    exact ⟨place, (indexed k place).mpr found⟩

variable [Std.LawfulEqOrd κ] [DecidableEq κ]

theorem IndexOf.insert {key : α → κ} {items : List α} {index : BTreeMap κ Nat} {item : α}
    (indexed : IndexOf key items index) (absent : index[key item]? = none) :
    IndexOf key (items ++ [item]) (index.insert (key item) items.length) := by
  intro k place
  rw [BTreeMap.getElem?_insert_eq, List.map_append, List.map_singleton]
  have fresh : ∀ place : Nat, (items.map key)[place]? ≠ some (key item) := by
    intro place found
    rw [(indexed _ place).mpr found] at absent
    cases absent
  by_cases same : k = key item
  · subst same
    rw [if_pos rfl, Option.some.injEq]
    constructor
    · rintro rfl
      simp
    · intro found
      rcases lt_or_ge place (items.map key).length with before | after
      · rw [List.getElem?_append_left before] at found
        exact absurd found (fresh place)
      · have bound := (List.getElem?_eq_some_iff.mp found).1
        simp only [List.length_append, List.length_map, List.length_singleton] at bound after
        omega
  · rw [if_neg same, indexed k place]
    rcases lt_or_ge place (items.map key).length with before | after
    · rw [List.getElem?_append_left before]
    · rw [List.getElem?_append_right after, List.getElem?_eq_none after]
      constructor
      · intro impossible
        cases impossible
      · intro found
        have only := List.mem_singleton.mp (List.mem_of_getElem? found)
        exact absurd only same

omit [Std.LawfulEqOrd κ] [DecidableEq κ] in
theorem indexOf_empty (key : α → κ) : IndexOf key [] (∅ : BTreeMap κ Nat) := by
  intro k place
  simp

theorem indexItem_spec {key : α → κ} {duplicated : κ → Nat → Nat → GraphValidationError} {items done : List α}
    {item : α} {index : BTreeMap κ Nat} (indexed : IndexOf key done index) (split : ∃ rest, items = done ++ item :: rest) :
    (∀ next, indexItem key duplicated index (item, done.length) = .ok next → IndexOf key (done ++ [item]) next) ∧
      ∀ failure, indexItem key duplicated index (item, done.length) = .error failure → ∃ k first duplicate,
        failure = .invalid (duplicated k first duplicate) ∧ Repeats (items.map key) k first duplicate := by
  unfold indexItem
  split
  · rename_i first found
    constructor
    · intro _ impossible
      cases impossible
    · intro failure failed
      rw [reject_eq_error] at failed
      rcases split with ⟨rest, rfl⟩
      have earlier := (indexed _ first).mp found
      have bound := (List.getElem?_eq_some_iff.mp earlier).1
      refine ⟨key item, first, done.length, failed.symm, ?_, ?_, ?_⟩
      · simpa using bound
      · rw [List.map_append, List.getElem?_append_left bound]
        exact earlier
      · simp
  · rename_i absent
    constructor
    · intro next inserted
      cases inserted
      exact indexed.insert absent
    · intro _ impossible
      cases impossible

theorem buildIndex_spec (key : α → κ) (duplicated : κ → Nat → Nat → GraphValidationError) (items : List α) :
    (∀ index, buildIndex key duplicated items = .ok index → IndexOf key items index) ∧
      ∀ failure, buildIndex key duplicated items = .error failure → ∃ k first duplicate,
        failure = .invalid (duplicated k first duplicate) ∧ Repeats (items.map key) k first duplicate := by
  have kept : ∀ done item rest (index next : BTreeMap κ Nat), items.zipIdx = done ++ item :: rest →
      IndexOf key (done.map Prod.fst) index → indexItem key duplicated index item = .ok next →
      IndexOf key ((done ++ [item]).map Prod.fst) next := by
    rintro done ⟨item, place⟩ rest index next split indexed inserted
    rcases zipIdx_split split with ⟨same, plain⟩
    rw [same, ← List.length_map Prod.fst] at inserted
    rw [List.map_append]
    exact (indexItem_spec indexed ⟨_, plain⟩).1 next inserted
  have spec := foldlM_prefix (P := fun done index => IndexOf key (done.map Prod.fst) index)
    (indexOf_empty key) kept
  constructor
  · intro index built
    have indexed := spec.1 index built
    rw [List.zipIdx_map_fst] at indexed
    exact indexed
  · intro failure failed
    rcases spec.2 failure failed with ⟨done, ⟨item, place⟩, rest, index, split, indexed, failed⟩
    rcases zipIdx_split split with ⟨same, plain⟩
    rw [same, ← List.length_map Prod.fst] at failed
    exact (indexItem_spec indexed ⟨_, plain⟩).2 failure failed

end Index

theorem checks_nodeIds (definition : GraphDefinition) :
    Phase.nodeIds.Checks definition (buildNodeIndex definition.nodes) (IndexOf AnyNode.id definition.nodes) := by
  rcases buildIndex_spec AnyNode.id .duplicateNodeId definition.nodes with ⟨passes, fails⟩
  constructor
  · intro index built
    exact ⟨(passes index built).nodup, passes index built⟩
  · intro failure failed
    rcases fails failure failed with ⟨nodeId, first, duplicate, rfl, repeated⟩
    exact ⟨_, rfl, rfl, repeated⟩

theorem checks_citationIds (definition : GraphDefinition) :
    Phase.citationIds.Checks definition (buildCitationIndex definition.citations)
      (IndexOf Citation.id definition.citations) := by
  rcases buildIndex_spec Citation.id .duplicateCitationId definition.citations with ⟨passes, fails⟩
  constructor
  · intro index built
    exact ⟨(passes index built).nodup, passes index built⟩
  · intro failure failed
    rcases fails failure failed with ⟨nodeId, first, duplicate, rfl, repeated⟩
    exact ⟨_, rfl, rfl, repeated⟩

theorem invalidOutputType_eq_none {node : AnyNode} : invalidOutputType node = none ↔ node.IsResult := by
  cases node <;> simp [invalidOutputType, AnyNode.IsResult]

/-- The outputs so far are distinct results. -/
structure OutputsSeen (definition : GraphDefinition) (done : List NodeId) (outputIndex : BTreeMap NodeId Unit) : Prop where
  seen : ∀ id, outputIndex.contains id = true ↔ id ∈ done
  distinct : done.Nodup
  results : ∀ output ∈ done, ∃ node ∈ definition.nodes, node.id = output ∧ node.IsResult

theorem validateOutput_spec {definition : GraphDefinition} {nodeIndex : BTreeMap NodeId Nat}
    (indexed : IndexOf AnyNode.id definition.nodes nodeIndex) {done rest : List NodeId} {output : NodeId}
    {outputIndex : BTreeMap NodeId Unit} (split : definition.outputs = done ++ output :: rest)
    (seen : OutputsSeen definition done outputIndex) :
    (∀ next, validateOutput definition.nodes nodeIndex outputIndex output = .ok next →
        OutputsSeen definition (done ++ [output]) next) ∧
      ∀ failure, validateOutput definition.nodes nodeIndex outputIndex output = .error failure →
        ∃ error, failure = .invalid error ∧ error.phase = .references ∧ error.Describes definition := by
  have listed : output ∈ definition.outputs := by
    rw [split]
    exact List.mem_append_right _ List.mem_cons_self
  unfold validateOutput
  split
  · rename_i again
    constructor
    · intro _ impossible
      cases impossible
    · intro failure failed
      rw [reject_eq_error] at failed
      subst failed
      rcases List.getElem?_of_mem ((seen.seen output).mp again) with ⟨first, found⟩
      have bound := (List.getElem?_eq_some_iff.mp found).1
      refine ⟨_, rfl, rfl, first, done.length, bound, ?_, ?_⟩
      · rw [split, List.getElem?_append_left bound]
        exact found
      · rw [split]
        simp
  · rename_i new
    split
    · rename_i missing
      exact ⟨fun _ passed => absurd passed reject_ne_ok, reject_fails rfl ⟨listed, indexed.absent missing⟩⟩
    · rename_i index found
      rcases indexed.item found with ⟨node, held, same⟩
      have member := List.mem_of_getElem? held
      rw [held, okOr_some, ok_bind]
      split
      · rename_i nodeType invalid
        exact ⟨fun _ passed => absurd passed reject_ne_ok, reject_fails rfl ⟨listed, node, member, same, invalid⟩⟩
      · rename_i result
        constructor
        · intro next inserted
          cases inserted
          refine ⟨?_, ?_, ?_⟩
          · intro id
            rw [Std.ExtTreeMap.contains_insert, Bool.or_eq_true, seen.seen id, List.mem_append, List.mem_singleton,
              beq_iff_eq, Std.LawfulEqOrd.compare_eq_iff_eq]
            constructor
            · rintro (rfl | earlier)
              · exact .inr rfl
              · exact .inl earlier
            · rintro (earlier | rfl)
              · exact .inr earlier
              · exact .inl rfl
          · refine List.nodup_append.mpr ⟨seen.distinct, List.nodup_singleton _, ?_⟩
            rintro a earlier b last rfl
            rw [List.mem_singleton.mp last] at earlier
            exact new ((seen.seen output).mpr earlier)
          · intro other present
            rcases List.mem_append.mp present with earlier | last
            · exact seen.results other earlier
            · rw [List.mem_singleton.mp last]
              exact ⟨node, member, same, invalidOutputType_eq_none.mp result⟩
        · intro _ impossible
          cases impossible

theorem validateClaims_spec {definition : GraphDefinition} {citationIndex : BTreeMap CitationId Nat}
    (indexed : IndexOf Citation.id definition.citations citationIndex) :
    (definition.nodes.forM (validateClaims citationIndex) = .ok () → ∀ node ∈ definition.nodes,
        ∀ claim ∈ node.metadata.citationClaims, ∃ citation ∈ definition.citations, citation.id = claim.citationId) ∧
      ∀ failure, definition.nodes.forM (validateClaims citationIndex) = .error failure →
        ∃ error, failure = .invalid error ∧ error.phase = .references ∧ error.Describes definition := by
  constructor
  · intro passed node member claim cited
    rcases List.getElem?_of_mem cited with ⟨index, found⟩
    have each := forM_eq_ok.mp (forM_eq_ok.mp passed node member) (claim, index) (List.mem_zipIdx_iff_getElem?.mpr found)
    split at each
    · rename_i known
      exact indexed.contains.mp known
    · cases each
  · intro failure failed
    rcases exists_of_forM_error failed with ⟨node, member, failed⟩
    rcases exists_of_forM_error failed with ⟨⟨claim, index⟩, cited, failed⟩
    split at failed
    · cases failed
    · rename_i unknown
      rw [reject_eq_error] at failed
      subst failed
      refine ⟨_, rfl, rfl, node, member, rfl, ⟨claim, List.mem_zipIdx_iff_getElem?.mp cited, rfl⟩, ?_⟩
      intro citation known same
      exact unknown (indexed.contains.mpr ⟨citation, known, same⟩)

theorem checks_references {definition : GraphDefinition} {nodeIndex : BTreeMap NodeId Nat}
    {citationIndex : BTreeMap CitationId Nat} (nodes : IndexOf AnyNode.id definition.nodes nodeIndex)
    (citations : IndexOf Citation.id definition.citations citationIndex) :
    Phase.references.Checks definition (validateOutputsAndCitations definition nodeIndex citationIndex) fun _ => True := by
  have initial : OutputsSeen definition [] ∅ := ⟨by simp, List.nodup_nil, by simp⟩
  have outputs := foldlM_prefix (P := OutputsSeen definition) initial
    fun done output rest _ next split seen passed => (validateOutput_spec nodes split seen).1 next passed
  have claims := validateClaims_spec citations
  constructor
  · intro _ passed
    rcases bind_eq_ok.mp passed with ⟨outputIndex, first, second⟩
    have seen := outputs.1 outputIndex first
    refine ⟨⟨seen.distinct, ?_, ?_, claims.1 second⟩, trivial⟩
    · intro output listed
      rcases seen.results output listed with ⟨node, member, same, _⟩
      exact ⟨node, member, same⟩
    · intro output listed node member same
      rcases seen.results output listed with ⟨other, otherMember, otherSame, result⟩
      rw [node_unique nodes.nodup member otherMember (same.trans otherSame.symm)]
      exact result
  · intro failure failed
    rcases bind_eq_error.mp failed with failed | ⟨_, _, failed⟩
    · rcases outputs.2 failure failed with ⟨done, output, rest, outputIndex, split, seen, failed⟩
      exact (validateOutput_spec nodes split seen).2 failure failed
    · exact claims.2 failure failed

theorem validateOperand_spec {definition : GraphDefinition} {nodeIndex : BTreeMap NodeId Nat}
    (indexed : IndexOf AnyNode.id definition.nodes nodeIndex) {node : AnyNode} {operand : Operand} {index : Nat}
    (member : node ∈ definition.nodes) (found : (operands node)[index]? = some operand) :
    (validateOperand definition.nodes nodeIndex node (operand, index) = .ok () →
        ∃ source ∈ definition.nodes, source.id = operand.nodeId ∧ source.isFinding = false) ∧
      ∀ failure, validateOperand definition.nodes nodeIndex node (operand, index) = .error failure →
        ∃ error, failure = .invalid error ∧ error.phase = .operands ∧ error.Describes definition := by
  unfold validateOperand
  dsimp only
  split
  · rename_i missing
    exact ⟨fun passed => absurd passed reject_ne_ok, reject_fails rfl ⟨node, member, rfl, ⟨operand, found, rfl⟩, indexed.absent missing⟩⟩
  · rename_i place known
    rcases indexed.item known with ⟨source, held, same⟩
    have sourceMember := List.mem_of_getElem? held
    rw [held, okOr_some, ok_bind]
    split
    · rename_i isFinding
      exact ⟨fun passed => absurd passed reject_ne_ok, reject_fails rfl ⟨node, member, rfl, ⟨operand, found, rfl⟩, source, sourceMember, same, isFinding⟩⟩
    · rename_i value
      constructor
      · intro _
        exact ⟨source, sourceMember, same, by simpa using value⟩
      · intro _ impossible
        cases impossible

theorem checks_operands {definition : GraphDefinition} {nodeIndex : BTreeMap NodeId Nat}
    (indexed : IndexOf AnyNode.id definition.nodes nodeIndex) :
    Phase.operands.Checks definition (validateOperandReferences definition.nodes nodeIndex) fun _ => True := by
  constructor
  · intro _ passed
    have each : ∀ node ∈ definition.nodes, ∀ operand ∈ operands node,
        ∃ source ∈ definition.nodes, source.id = operand.nodeId ∧ source.isFinding = false := by
      intro node member operand used
      rcases List.getElem?_of_mem used with ⟨index, found⟩
      have checked := forM_eq_ok.mp (forM_eq_ok.mp passed node member) (operand, index)
        (List.mem_zipIdx_iff_getElem?.mpr found)
      exact (validateOperand_spec indexed member found).1 checked
    refine ⟨⟨?_, ?_⟩, trivial⟩
    · intro node member operand used
      rcases each node member operand used with ⟨source, known, same, _⟩
      exact ⟨source, known, same⟩
    · intro node member operand used source known same
      rcases each node member operand used with ⟨other, otherKnown, otherSame, value⟩
      rw [node_unique indexed.nodup known otherKnown (same.trans otherSame.symm)]
      exact value
  · intro failure failed
    rcases exists_of_forM_error failed with ⟨node, member, failed⟩
    rcases exists_of_forM_error failed with ⟨⟨operand, index⟩, used, failed⟩
    exact (validateOperand_spec indexed member (List.mem_zipIdx_iff_getElem?.mp used)).2 failure failed

end KafkaCalculator

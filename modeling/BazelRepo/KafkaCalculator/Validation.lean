import BazelRepo.KafkaCalculator.Typing
import BazelRepo.KafkaCalculator.Reachability

namespace KafkaCalculator

open Library

/-- The keys so far are distinct, and each is known with the node that has it. -/
structure KeysSeen (done : List AnyNode) (settings : BTreeMap String NodeId) : Prop where
  sound : ∀ (key : String) (id : NodeId), settings[key]? = some id →
    ∃ (first : Nat) (node : AnyNode), done[first]? = some node ∧ node.id = id ∧ node.settingKey = some key
  complete : ∀ node ∈ done, ∀ key, node.settingKey = some key → ∃ id, settings[key]? = some id
  distinct : (done.filterMap AnyNode.settingKey).Nodup

theorem KeysSeen.skip {done : List AnyNode} {settings : BTreeMap String NodeId} (seen : KeysSeen done settings)
    {node : AnyNode} (keyless : node.settingKey = none) : KeysSeen (done ++ [node]) settings := by
  refine ⟨?_, ?_, ?_⟩
  · intro key id present
    rcases seen.sound key id present with ⟨first, other, found, same⟩
    refine ⟨first, other, ?_, same⟩
    rw [List.getElem?_append_left (List.getElem?_eq_some_iff.mp found).1]
    exact found
  · intro other member key has
    rcases List.mem_append.mp member with earlier | last
    · exact seen.complete other earlier key has
    · rw [List.mem_singleton.mp last, keyless] at has
      cases has
  · rw [List.filterMap_append, List.filterMap_cons_none keyless, List.filterMap_nil, List.append_nil]
    exact seen.distinct

theorem KeysSeen.add {done : List AnyNode} {settings : BTreeMap String NodeId} (seen : KeysSeen done settings)
    {node : AnyNode} {key : String} (has : node.settingKey = some key) (fresh : settings[key]? = none) :
    KeysSeen (done ++ [node]) (settings.insert key node.id) := by
  refine ⟨?_, ?_, ?_⟩
  · intro other id present
    rw [BTreeMap.getElem?_insert_eq] at present
    split at present
    · rename_i same
      subst same
      cases present
      exact ⟨done.length, node, by simp, rfl, has⟩
    · rcases seen.sound other id present with ⟨first, holder, found, same⟩
      refine ⟨first, holder, ?_, same⟩
      rw [List.getElem?_append_left (List.getElem?_eq_some_iff.mp found).1]
      exact found
  · intro other member otherKey otherHas
    rw [BTreeMap.getElem?_insert_eq]
    split
    · exact ⟨_, rfl⟩
    · rename_i different
      rcases List.mem_append.mp member with earlier | last
      · exact seen.complete other earlier otherKey otherHas
      · rw [List.mem_singleton.mp last, has] at otherHas
        cases otherHas
        exact absurd rfl different
  · rw [List.filterMap_append, List.filterMap_cons_some has, List.filterMap_nil]
    refine List.nodup_append.mpr ⟨seen.distinct, List.nodup_singleton _, ?_⟩
    rintro one earlier other last rfl
    rw [List.mem_singleton.mp last] at earlier
    rcases List.mem_filterMap.mp earlier with ⟨holder, member, holds⟩
    rcases seen.complete holder member key holds with ⟨id, present⟩
    rw [fresh] at present
    cases present

theorem recordSettingKey_spec {definition : GraphDefinition} {done rest : List AnyNode} {node : AnyNode}
    {settings : BTreeMap String NodeId} (split : definition.nodes = done ++ node :: rest)
    (seen : KeysSeen done settings) :
    (∀ next, recordSettingKey settings node = .ok next → KeysSeen (done ++ [node]) next) ∧
      ∀ failure, recordSettingKey settings node = .error failure →
        ∃ error, failure = .invalid error ∧ error.phase = .settingKeys ∧ error.Describes definition := by
  cases node with
  | setting node =>
    unfold recordSettingKey
    dsimp only
    split
    · rename_i firstId known
      constructor
      · intro _ impossible
        cases impossible
      · intro failure failed
        rw [reject_eq_error] at failed
        subst failed
        rcases seen.sound _ _ known with ⟨first, holder, found, same, holds⟩
        have bound := (List.getElem?_eq_some_iff.mp found).1
        refine ⟨_, rfl, rfl, first, done.length, bound, ⟨holder, ?_, same, holds⟩, .setting node, ?_, rfl, rfl⟩
        · rw [split, List.getElem?_append_left bound]
          exact found
        · rw [split]
          simp
    · rename_i fresh
      constructor
      · intro next same
        cases same
        exact seen.add rfl fresh
      · intro _ impossible
        cases impossible
  | input node | constant node | derived node | finding node =>
    constructor
    · intro next same
      cases same
      exact seen.skip rfl
    · intro _ impossible
      cases impossible

theorem checks_settingKeys (definition : GraphDefinition) :
    Phase.settingKeys.Checks definition (validateUniqueSettingKeys definition.nodes) fun _ => True := by
  have initial : KeysSeen [] ∅ := ⟨by simp, by simp, by simp⟩
  have spec := foldlM_prefix (P := KeysSeen) initial
    fun done node rest settings next (split : definition.nodes = done ++ node :: rest) seen passed =>
      (recordSettingKey_spec split seen).1 next passed
  unfold validateUniqueSettingKeys
  constructor
  · intro _ passed
    rcases bind_eq_ok.mp passed with ⟨settings, run, _⟩
    exact ⟨(spec.1 settings run).distinct, trivial⟩
  · intro failure failed
    rcases bind_eq_error.mp failed with failed | ⟨_, _, impossible⟩
    · rcases spec.2 failure failed with ⟨done, node, rest, settings, split, seen, failed⟩
      exact (recordSettingKey_spec split seen).2 failure failed
    · cases impossible

section

variable {definition : GraphDefinition} {nodeIndex : BTreeMap NodeId Nat}

theorem getElem?_empty_index {nodes : List AnyNode} :
    ∀ (index : BTreeMap NodeId (List Edge)) (id : NodeId), (∃ node ∈ nodes, node.id = id) ∨ (∃ edges, index[id]? = some edges) →
      ∃ edges, (nodes.foldl (fun index node => index.insert node.id []) index)[id]? = some edges := by
  induction nodes with
  | nil =>
    rintro index id (⟨node, member, _⟩ | present)
    · cases member
    · exact present
  | cons first rest ih =>
    intro index id known
    apply ih
    rw [BTreeMap.getElem?_insert_eq]
    by_cases same : id = first.id
    · exact .inr ⟨[], if_pos same⟩
    · rw [if_neg same]
      rcases known with ⟨node, member, held⟩ | present
      · rcases List.mem_cons.mp member with rfl | later
        · exact absurd held.symm same
        · exact .inl ⟨node, later, held⟩
      · exact .inr present

theorem indexEdges_total (side : Edge → NodeId) {edges : List Edge} {empty : BTreeMap NodeId (List Edge)}
    (known : ∀ edge ∈ edges, ∃ list, empty[side edge]? = some list) :
    ∃ index, edges.foldlM (indexEdge side) empty = .ok index := by
  have total : ∃ index, edges.foldlM (indexEdge side) empty = .ok index ∧
      ∀ id : NodeId, (∃ list, empty[id]? = some list) → ∃ list, index[id]? = some list := by
    apply foldlM_total (P := fun _ (index : BTreeMap NodeId (List Edge)) =>
      ∀ id : NodeId, (∃ list, empty[id]? = some list) → ∃ list, index[id]? = some list)
    · exact fun _ present => present
    · intro done edge rest index split kept
      have member : edge ∈ edges := by
        rw [split]
        exact List.mem_append_right _ List.mem_cons_self
      rcases kept (side edge) (known edge member) with ⟨list, found⟩
      refine ⟨index.insert (side edge) (list ++ [edge]), ?_, ?_⟩
      · unfold indexEdge
        rw [found]
        rfl
      · intro id present
        rw [BTreeMap.getElem?_insert_eq]
        split
        · exact ⟨_, rfl⟩
        · exact kept id present
  rcases total with ⟨index, run, _⟩
  exact ⟨index, run⟩

theorem validatedGraph_new_total (resolved : Resolved definition nodeIndex) {citationIndex : BTreeMap CitationId Nat}
    {order : List Nat} (perm : order.Perm (List.range definition.nodes.length)) (types : BTreeMap NodeId ValueType) :
    ∃ graph, ValidatedGraph.new definition nodeIndex citationIndex (generateEdges definition.nodes) order types =
      .ok graph := by
  have ends : ∀ edge ∈ generateEdges definition.nodes, (∃ node ∈ definition.nodes, node.id = edge.target) ∧
      ∃ node ∈ definition.nodes, node.id = edge.source := by
    intro edge generated
    rcases List.mem_flatMap.mp generated with ⟨node, member, made⟩
    rcases List.mem_map.mp made with ⟨operand, used, rfl⟩
    exact ⟨⟨node, member, rfl⟩, resolved.sources.known node member operand used⟩
  rcases indexEdges_total Edge.target
    (fun edge (generated : edge ∈ generateEdges definition.nodes) => getElem?_empty_index ∅ edge.target (.inl (ends edge generated).1)) with ⟨dependencies, first⟩
  rcases indexEdges_total Edge.source
    (fun edge (generated : edge ∈ generateEdges definition.nodes) => getElem?_empty_index ∅ edge.source (.inl (ends edge generated).2)) with ⟨dependents, second⟩
  have ids : ∃ topologicalOrder, order.mapM (nodeIdAt definition.nodes) = .ok topologicalOrder := by
    apply exists_mapM_ok
    intro index member
    have bound := List.mem_range.mp (perm.mem_iff.mp member)
    exact ⟨_, nodeIdAt_eq_ok (List.getElem?_eq_getElem bound)⟩
  rcases ids with ⟨topologicalOrder, third⟩
  unfold ValidatedGraph.new
  dsimp only
  rw [first, ok_bind, second, ok_bind, third, ok_bind]
  exact ⟨_, rfl⟩

end

/-- What is accepted passes every phase, and what is rejected fails first in the phase of its error. -/
structure Exact (definition : GraphDefinition) (result : Validation ValidatedGraph) : Prop where
  accepts : ∀ graph, result = .ok graph → ∀ phase : Phase, phase.Passes definition
  rejects : ∀ failure, result = .error failure → ∃ error, failure = .invalid error ∧ error.Describes definition ∧
    ∀ earlier : Phase, earlier.position < error.phase.position → earlier.Passes definition

def GraphDefinition.PassesUpTo (definition : GraphDefinition) (position : Nat) : Prop :=
  ∀ phase : Phase, phase.position ≤ position → phase.Passes definition

theorem passesUpTo_next {definition : GraphDefinition} {phase : Phase} {position : Nat}
    (passed : definition.PassesUpTo position) (next : phase.position = position + 1)
    (passes : phase.Passes definition) : definition.PassesUpTo (position + 1) := by
  intro other least
  by_cases same : other.position = phase.position
  · have equal : other = phase := by
      cases other <;> cases phase <;> first | rfl | cases same
    rw [equal]
    exact passes
  · exact passed other (by omega)

theorem Exact.bind {definition : GraphDefinition} {phase : Phase} {position : Nat} {α : Type} {result : Validation α}
    {post : α → Prop} {rest : α → Validation ValidatedGraph} (passed : definition.PassesUpTo position)
    (next : phase.position = position + 1) (checks : phase.Checks definition result post)
    (continues : ∀ value, post value → definition.PassesUpTo (position + 1) → Exact definition (rest value)) :
    Exact definition (result >>= rest) := by
  cases outcome : result with
  | ok value =>
    rcases checks.passes value outcome with ⟨passes, holds⟩
    exact continues value holds (passesUpTo_next passed next passes)
  | error failure =>
    rcases checks.fails failure outcome with ⟨error, rfl, rfl, describes⟩
    constructor
    · intro _ impossible
      cases impossible
    · intro _ same
      cases same
      exact ⟨error, rfl, describes, fun earlier less => passed earlier (by omega)⟩

theorem exact_validate (definition : GraphDefinition) : Exact definition definition.validate := by
  have start : definition.PassesUpTo 0 := by
    intro phase none
    cases phase <;> cases none
  apply Exact.bind start rfl (checks_localValidity definition)
  intro _ _ local_
  apply Exact.bind local_ rfl (checks_nodeIds definition)
  intro nodeIndex indexed nodeIds
  apply Exact.bind nodeIds rfl (checks_citationIds definition)
  intro citationIndex cited citationIds
  apply Exact.bind citationIds rfl (checks_references indexed cited)
  intro _ _ references
  apply Exact.bind references rfl (checks_operands indexed)
  intro _ _ operands
  have resolved : Resolved definition nodeIndex := ⟨indexed, operands .operands le_rfl⟩
  dsimp only
  rw [buildDependencyIndices_eq resolved.referenced, ok_bind]
  apply Exact.bind operands rfl (checks_cycles resolved.referenced)
  intro _ accessible cycles
  rcases topologicalSort_spec resolved accessible with ⟨order, sorted, perm, inOrder, _⟩
  rw [sorted, ok_bind]
  apply Exact.bind cycles rfl (checks_types resolved perm inOrder)
  intro types _ typed
  apply Exact.bind typed rfl (checks_settingKeys definition)
  intro _ _ keyed
  have outputs : definition.OutputsAndCitationsResolve := keyed .references (by decide)
  apply Exact.bind keyed rfl (checks_reachability resolved outputs.known)
  intro _ _ passed
  rcases validatedGraph_new_total resolved perm types with ⟨graph, built⟩
  rw [built]
  constructor
  · intro _ _ phase
    exact passed phase (by cases phase <;> decide)
  · intro _ impossible
    cases impossible

/-- A definition is accepted exactly when every phase passes; otherwise the error names a defect that is there, in
the first phase that fails. -/
theorem validate_is_exact (definition : GraphDefinition) :
    ((∃ graph, definition.validate = .ok graph) ↔ ∀ phase : Phase, phase.Passes definition) ∧
      ∀ failure, definition.validate = .error failure → ∃ error, failure = .invalid error ∧
        error.Describes definition ∧ ¬ error.phase.Passes definition ∧
        ∀ earlier : Phase, earlier.position < error.phase.position → earlier.Passes definition := by
  have exact_ := exact_validate definition
  have rejects : ∀ failure, definition.validate = .error failure → ∃ error, failure = .invalid error ∧
      error.Describes definition ∧ ¬ error.phase.Passes definition ∧
      ∀ earlier : Phase, earlier.position < error.phase.position → earlier.Passes definition := by
    intro failure failed
    rcases exact_.rejects failure failed with ⟨error, same, describes, earlier⟩
    exact ⟨error, same, describes, describes.fails fun less => earlier .nodeIds less, earlier⟩
  refine ⟨⟨?_, ?_⟩, rejects⟩
  · rintro ⟨graph, accepted⟩
    exact exact_.accepts graph accepted
  · intro passes
    cases outcome : definition.validate with
    | ok graph => exact ⟨graph, rfl⟩
    | error failure =>
      rcases rejects failure outcome with ⟨error, _, _, fails, _⟩
      exact absurd (passes error.phase) fails

def illTyped : GraphDefinition :=
  let count : Node Input := .new ⟨"count", by decide +kernel⟩ ⟨"", "", []⟩ ⟨.messageCount, none, [], no_default, no_constraints⟩
  let size : Node Input := .new ⟨"size", by decide +kernel⟩ ⟨"", "", []⟩ ⟨.dataSize, none, [], no_default, no_constraints⟩
  let sum : Expression Add := ⟨[⟨count.id, "count"⟩, ⟨size.id, "size"⟩], .descriptor, two_terms⟩
  let result : Node Setting := .new ⟨"result", result_valid⟩ ⟨"", "", []⟩ ⟨"queue.size", .producer, .messages, .add sum⟩
  { nodes := [.input count, .input size, .setting result], citations := [], outputs := [result.id] }

/-- The expression of a setting is type-checked like that of a derived node: this graph has no derived node and
passes every other phase. -/
theorem ill_typed_setting_is_rejected : ¬ ∀ definition : GraphDefinition,
    (∃ graph, definition.validate = .ok graph) ↔ (∀ phase : Phase, phase ≠ .types → phase.Passes definition) ∧
      ∀ node, .derived node ∈ definition.nodes → ExpressionTypechecks definition node.nodeType.expression := by
  intro every
  have rejected : (match illTyped.validate with
      | .error (.invalid error) => decide (error.phase = .types)
      | _ => false) = true := by decide +kernel
  split at rejected
  · rename_i error failed
    have types := of_decide_eq_true rejected
    rcases (exact_validate illTyped).rejects _ failed with ⟨_, same, _, earlier⟩
    cases same
    rw [types] at earlier
    have keys : (illTyped.nodes.filterMap AnyNode.settingKey).Nodup := by decide +kernel
    have nodes : ∀ node ∈ illTyped.nodes, illTyped.Reachable node.id := by
      intro node member
      refine ⟨_, List.mem_cons_self, ?_⟩
      rcases List.mem_cons.mp member with rfl | member
      · exact .single ⟨_, List.mem_cons_of_mem _ (List.mem_cons_of_mem _ List.mem_cons_self), rfl, _,
          List.mem_cons_self, rfl⟩
      rcases List.mem_cons.mp member with rfl | member
      · exact .single ⟨_, List.mem_cons_of_mem _ (List.mem_cons_of_mem _ List.mem_cons_self), rfl, _,
          List.mem_cons_of_mem _ List.mem_cons_self, rfl⟩
      rw [List.mem_singleton.mp member]
      exact .refl
    have passes : ∀ phase : Phase, phase ≠ .types → phase.Passes illTyped := by
      intro phase different
      cases phase with
      | types => exact absurd rfl different
      | settingKeys => exact keys
      | reachability => exact nodes
      | localValidity | nodeIds | citationIds | references | operands | cycles => exact earlier _ (by decide)
    have derived : ∀ node, .derived node ∈ illTyped.nodes → ExpressionTypechecks illTyped node.nodeType.expression := by
      intro node member
      simp [illTyped] at member
    rcases (every illTyped).mpr ⟨passes, derived⟩ with ⟨graph, accepted⟩
    rw [failed] at accepted
    cases accepted
  · cases rejected

end KafkaCalculator

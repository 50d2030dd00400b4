import BazelRepo.KafkaCalculator.Cycles
import BazelRepo.Library.Precedence

namespace KafkaCalculator

open Library

def arrowsOf (nodeIndex : BTreeMap NodeId Nat) (edges : List Edge) : List (Nat × Nat) :=
  edges.map fun edge => (placeOf nodeIndex edge.source, placeOf nodeIndex edge.target)

def targetsOf (arrows : List (Nat × Nat)) (source : Nat) : List Nat :=
  (arrows.filter fun arrow => arrow.1 = source).map Prod.snd

/-- Of the arrows to this target, those from what is not in the order yet. -/
def waitingFor (arrows : List (Nat × Nat)) (order : List Nat) (target : Nat) : Nat :=
  arrows.countP fun arrow => arrow.2 = target ∧ arrow.1 ∉ order

def InOrder (arrows : List (Nat × Nat)) (order : List Nat) : Prop :=
  ∀ earlier target later, order = earlier ++ target :: later → ∀ source, (source, target) ∈ arrows → source ∈ earlier

theorem inOrder_concat {arrows : List (Nat × Nat)} {order : List Nat} {index : Nat} (sorted : InOrder arrows order)
    (sources : ∀ source, (source, index) ∈ arrows → source ∈ order) : InOrder arrows (order ++ [index]) := by
  intro earlier target later split source arrow
  rcases concat_split split with ⟨rfl, rfl⟩ | ⟨between, same⟩
  · exact sources source arrow
  · exact sorted earlier target between same source arrow

theorem mem_targetsOf {arrows : List (Nat × Nat)} {source target : Nat} :
    target ∈ targetsOf arrows source ↔ (source, target) ∈ arrows := by
  unfold targetsOf
  rw [List.mem_map]
  constructor
  · rintro ⟨⟨s, t⟩, member, rfl⟩
    rcases List.mem_filter.mp member with ⟨member, same⟩
    rw [← of_decide_eq_true same]
    exact member
  · intro member
    exact ⟨(source, target), List.mem_filter.mpr ⟨member, by simp⟩, rfl⟩

theorem waitingFor_concat {order : List Nat} {index : Nat} (fresh : index ∉ order) (target : Nat) :
    ∀ arrows, waitingFor arrows order target =
      waitingFor arrows (order ++ [index]) target + (targetsOf arrows index).count target := by
  intro arrows
  induction arrows with
  | nil => rfl
  | cons arrow rest ih =>
    unfold waitingFor targetsOf at ih ⊢
    rw [List.countP_cons, List.countP_cons, List.filter_cons, ih]
    by_cases source : arrow.1 = index
    · by_cases same : arrow.2 = target
      · simp [source, same, fresh]
        omega
      · simp [source, same]
    · by_cases same : arrow.2 = target
      · by_cases waiting : arrow.1 ∈ order
        · simp [source, same, waiting]
        · simp [source, same, waiting]
          omega
      · simp [source, same]

theorem waitingFor_append (left right : List (Nat × Nat)) (order : List Nat) (target : Nat) :
    waitingFor (left ++ right) order target = waitingFor left order target + waitingFor right order target :=
  List.countP_append

theorem targetsOf_append (left right : List (Nat × Nat)) (source : Nat) :
    targetsOf (left ++ right) source = targetsOf left source ++ targetsOf right source := by
  rw [targetsOf, List.filter_append, List.map_append]
  rfl

structure Counted (count : Nat) (arrows : List (Nat × Nat)) (degrees : Degrees) : Prop where
  degreeLength : degrees.inDegree.length = count
  targetsLength : degrees.dependents.length = count
  degree : ∀ index, index < count → degrees.inDegree[index]? = some (waitingFor arrows [] index)
  targets : ∀ index, index < count → degrees.dependents[index]? = some (targetsOf arrows index)

section

variable {definition : GraphDefinition} {nodeIndex : BTreeMap NodeId Nat}

theorem edge_places (resolved : Resolved definition nodeIndex) {edge : Edge}
    (generated : edge ∈ generateEdges definition.nodes) :
    (nodeIndex[edge.source]? = some (placeOf nodeIndex edge.source) ∧
        placeOf nodeIndex edge.source < definition.nodes.length) ∧
      nodeIndex[edge.target]? = some (placeOf nodeIndex edge.target) ∧
        placeOf nodeIndex edge.target < definition.nodes.length ∧
        Arrow (dependencyIndices definition.nodes nodeIndex) (placeOf nodeIndex edge.target)
          (placeOf nodeIndex edge.source) := by
  rcases List.mem_flatMap.mp generated with ⟨node, member, made⟩
  rcases List.mem_map.mp made with ⟨operand, used, rfl⟩
  rcases resolved.referenced.place member used with ⟨found, source, held, _⟩
  rcases List.getElem?_of_mem (List.mem_map_of_mem member : node.id ∈ definition.nodes.map AnyNode.id) with ⟨place, there⟩
  have indexed := (resolved.indexed node.id place).mpr there
  have placed : placeOf nodeIndex node.id = place := by
    rw [placeOf, indexed]
    rfl
  have depends : definition.DependsOn node.id operand.nodeId := ⟨node, member, rfl, operand, used, rfl⟩
  rcases depends.arrow resolved.referenced indexed with ⟨other, otherPlaced, arrow⟩
  rw [found] at otherPlaced
  cases otherPlaced
  have bound := (List.getElem?_eq_some_iff.mp there).1
  rw [List.length_map] at bound
  refine ⟨⟨found, (List.getElem?_eq_some_iff.mp held).1⟩, ?_⟩
  show nodeIndex[node.id]? = some (placeOf nodeIndex node.id) ∧ placeOf nodeIndex node.id < _ ∧
    Arrow _ (placeOf nodeIndex node.id) _
  rw [placed]
  exact ⟨indexed, bound, arrow⟩

theorem arrow_generated (resolved : Resolved definition nodeIndex) {dependent dependency : Nat}
    (arrow : Arrow (dependencyIndices definition.nodes nodeIndex) dependent dependency) :
    (dependency, dependent) ∈ arrowsOf nodeIndex (generateEdges definition.nodes) := by
  rcases arrow with ⟨following, found, member⟩
  unfold dependencyIndices at found
  rw [List.getElem?_map, Option.map_eq_some_iff] at found
  rcases found with ⟨node, held, rfl⟩
  rcases List.mem_map.mp member with ⟨operand, used, rfl⟩
  have indexed := (resolved.indexed node.id dependent).mpr (by rw [List.getElem?_map, held]; rfl)
  refine List.mem_map.mpr ⟨Edge.fromOperand node.id operand, ?_, ?_⟩
  · exact List.mem_flatMap.mpr ⟨node, List.mem_of_getElem? held, List.mem_map_of_mem used⟩
  · show (placeOf nodeIndex operand.nodeId, placeOf nodeIndex node.id) = _
    rw [placeOf.eq_1 nodeIndex node.id, indexed]
    rfl

theorem countEdge_spec (resolved : Resolved definition nodeIndex) {done : List Edge} {edge : Edge} {degrees : Degrees}
    (generated : edge ∈ generateEdges definition.nodes)
    (counted : Counted definition.nodes.length (arrowsOf nodeIndex done) degrees) :
    ∃ next, countEdge nodeIndex degrees edge = .ok next ∧
      Counted definition.nodes.length (arrowsOf nodeIndex (done ++ [edge])) next := by
  rcases edge_places resolved generated with ⟨⟨source, sourceBound⟩, target, targetBound, _⟩
  unfold countEdge
  rw [source, target, okOr_some, ok_bind, okOr_some, ok_bind, counted.degree _ targetBound,
    counted.targets _ sourceBound, okOr_some, ok_bind, okOr_some, ok_bind]
  have more : arrowsOf nodeIndex (done ++ [edge]) = arrowsOf nodeIndex done ++
      [(placeOf nodeIndex edge.source, placeOf nodeIndex edge.target)] := by
    rw [arrowsOf, List.map_append]
    rfl
  refine ⟨_, rfl, ?_, ?_, ?_, ?_⟩
  · rw [List.length_set]
    exact counted.degreeLength
  · rw [List.length_set]
    exact counted.targetsLength
  · intro index bound
    dsimp only
    rw [List.getElem?_set, more, waitingFor_append]
    by_cases same : placeOf nodeIndex edge.target = index
    · subst same
      rw [if_pos rfl, if_pos (by rw [counted.degreeLength]; exact bound)]
      simp [waitingFor]
    · rw [if_neg same, counted.degree index bound]
      simp [waitingFor, same]
  · intro index bound
    dsimp only
    rw [List.getElem?_set, more, targetsOf_append]
    by_cases same : placeOf nodeIndex edge.source = index
    · subst same
      rw [if_pos rfl, if_pos (by rw [counted.targetsLength]; exact bound)]
      simp [targetsOf]
    · rw [if_neg same, counted.targets index bound]
      simp [targetsOf, same]

end

/-- Where the sorting stands while these targets are still to be released by the last index of the order. -/
structure Sorts (count : Nat) (arrows : List (Nat × Nat)) (remaining : List Nat) (sorting : Sorting) : Prop where
  length : sorting.inDegree.length = count
  degree : ∀ index, index < count →
    sorting.inDegree[index]? = some (waitingFor arrows sorting.order index + remaining.count index)
  ready : ∀ index, index ∈ sorting.ready ↔ index ∉ sorting.order ∧ sorting.inDegree[index]? = some 0
  settled : ∀ index ∈ sorting.order, sorting.inDegree[index]? = some 0
  readyDistinct : sorting.ready.Nodup
  orderDistinct : sorting.order.Nodup
  inOrder : InOrder arrows sorting.order

section

variable {count : Nat} {arrows : List (Nat × Nat)}

theorem release_spec {dependent : Nat} {remaining : List Nat} {sorting : Sorting} (bound : dependent < count)
    (sorts : Sorts count arrows (dependent :: remaining) sorting) :
    ∃ next, release sorting dependent = .ok next ∧ next.order = sorting.order ∧ Sorts count arrows remaining next := by
  have before := sorts.degree dependent bound
  rw [List.count_cons_self, ← Nat.add_assoc] at before
  have unordered : dependent ∉ sorting.order := by
    intro member
    have zero := sorts.settled dependent member
    rw [before] at zero
    cases zero
  have unready : dependent ∉ sorting.ready := by
    intro member
    have zero := ((sorts.ready dependent).mp member).2
    rw [before] at zero
    cases zero
  have inside : dependent < sorting.inDegree.length := by
    rw [sorts.length]
    exact bound
  -- Whether the dependent became ready or not, its degree is one less and no other one changed.
  have lowered : ∀ (index : Nat), index < count → (sorting.inDegree.set dependent
      (waitingFor arrows sorting.order dependent + remaining.count dependent))[index]? =
        some (waitingFor arrows sorting.order index + remaining.count index) := by
    intro index indexBound
    rw [List.getElem?_set]
    by_cases same : dependent = index
    · subst same
      rw [if_pos rfl, if_pos inside]
    · rw [if_neg same, sorts.degree index indexBound, List.count_cons_of_ne same]
  have settled : ∀ index ∈ sorting.order, ∀ degree, (sorting.inDegree.set dependent degree)[index]? = some 0 := by
    intro index member degree
    rw [List.getElem?_set_ne]
    · exact sorts.settled index member
    · rintro rfl
      exact unordered member
  unfold release
  rw [before, okOr_some, ok_bind]
  generalize degree : waitingFor arrows sorting.order dependent + remaining.count dependent = left at lowered ⊢
  cases left with
  | zero =>
    refine ⟨_, rfl, rfl, ?_, lowered, ?_, fun index member => settled index member _, ?_, sorts.orderDistinct,
      sorts.inOrder⟩
    · rw [List.length_set]
      exact sorts.length
    · intro index
      dsimp only
      rw [List.mem_cons, sorts.ready index, List.getElem?_set]
      by_cases same : dependent = index
      · subst same
        simp [unordered, inside]
      · simp [same, Ne.symm same]
    · exact List.nodup_cons.mpr ⟨unready, sorts.readyDistinct⟩
  | succ left =>
    refine ⟨_, rfl, rfl, ?_, lowered, ?_, fun index member => settled index member _, sorts.readyDistinct,
      sorts.orderDistinct, sorts.inOrder⟩
    · rw [List.length_set]
      exact sorts.length
    · intro index
      dsimp only
      rw [sorts.ready index, List.getElem?_set]
      by_cases same : dependent = index
      · subst same
        rw [if_pos rfl, if_pos inside, before]
        simp
      · rw [if_neg same]

theorem releases_spec : ∀ {remaining : List Nat} {sorting : Sorting}, (∀ dependent ∈ remaining, dependent < count) →
    Sorts count arrows remaining sorting → ∃ next, remaining.foldlM release sorting = .ok next ∧
      next.order = sorting.order ∧ Sorts count arrows [] next := by
  intro remaining
  induction remaining with
  | nil =>
    intro sorting _ sorts
    exact ⟨sorting, rfl, rfl, sorts⟩
  | cons dependent rest ih =>
    intro sorting bounds sorts
    rcases release_spec (bounds dependent List.mem_cons_self) sorts with ⟨middle, first, same, kept⟩
    rcases ih (fun other member => bounds other (List.mem_cons_of_mem _ member)) kept with ⟨next, rest, order, last⟩
    refine ⟨next, ?_, order.trans same, last⟩
    rw [List.foldlM_cons, first, ok_bind]
    exact rest

theorem Sorts.pop {sorting : Sorting} {index : Nat} (sorts : Sorts count arrows [] sorting)
    (ready : index ∈ sorting.ready) : Sorts count arrows (targetsOf arrows index)
      { sorting with ready := sorting.ready.erase index, order := sorting.order ++ [index] } := by
  rcases (sorts.ready index).mp ready with ⟨fresh, zero⟩
  refine ⟨sorts.length, ?_, ?_, ?_, sorts.readyDistinct.erase index, ?_, ?_⟩
  · intro other bound
    dsimp only
    rw [sorts.degree other bound, ← waitingFor_concat fresh]
    simp
  · intro other
    dsimp only
    rw [sorts.readyDistinct.mem_erase_iff, sorts.ready other, List.mem_append, List.mem_singleton, not_or]
    constructor
    · rintro ⟨different, unordered, free⟩
      exact ⟨⟨unordered, different⟩, free⟩
    · rintro ⟨⟨unordered, different⟩, free⟩
      exact ⟨different, unordered, free⟩
  · intro other member
    rcases List.mem_append.mp member with earlier | last
    · exact sorts.settled other earlier
    · rw [List.mem_singleton.mp last]
      exact zero
  · refine List.nodup_append.mpr ⟨sorts.orderDistinct, List.nodup_singleton _, ?_⟩
    rintro one earlier other last rfl
    rw [List.mem_singleton.mp last] at earlier
    exact fresh earlier
  · apply inOrder_concat sorts.inOrder
    intro source arrow
    have bound := (List.getElem?_eq_some_iff.mp zero).1
    rw [sorts.length] at bound
    have none := sorts.degree index bound
    rw [zero, List.count_nil, Nat.add_zero, Option.some.injEq, waitingFor, eq_comm, List.countP_eq_zero] at none
    by_contra unordered
    exact none (source, index) arrow (by simpa using unordered)

theorem Sorts.bound {remaining : List Nat} {sorting : Sorting} (sorts : Sorts count arrows remaining sorting) {index : Nat}
    (member : index ∈ sorting.order) : index < count := by
  have inside := (List.getElem?_eq_some_iff.mp (sorts.settled index member)).1
  rw [sorts.length] at inside
  exact inside

theorem Sorts.order_length {remaining : List Nat} {sorting : Sorting} (sorts : Sorts count arrows remaining sorting) :
    sorting.order.length ≤ count := by
  have within : sorting.order ⊆ List.range count := fun index member => List.mem_range.mpr (sorts.bound member)
  have fits := (List.subperm_of_subset sorts.orderDistinct within).length_le
  rw [List.length_range] at fits
  exact fits

/-- What is taken next is the least index that may stand there: such an index is ready. -/
theorem Sorts.greedy {sorting : Sorting} {index : Nat} (sorts : Sorts count arrows [] sorting)
    (greedy : Greedy (fun source target => (source, target) ∈ arrows) (List.range count) sorting.order)
    (least : sorting.ready.min? = some index) :
    Greedy (fun source target => (source, target) ∈ arrows) (List.range count) (sorting.order ++ [index]) := by
  apply greedy.concat
  intro other member fresh sources
  have bound := List.mem_range.mp member
  have none : waitingFor arrows sorting.order other = 0 := by
    rw [waitingFor, List.countP_eq_zero]
    rintro ⟨source, target⟩ arrow
    rw [decide_eq_true_iff]
    rintro ⟨rfl, waiting⟩
    exact waiting (sources source arrow)
  have ready : other ∈ sorting.ready := by
    apply (sorts.ready other).mpr
    rw [sorts.degree other bound, none]
    exact ⟨fresh, rfl⟩
  exact (List.min?_eq_some_iff.mp least).2 other ready

/-- Each turn puts one more index in the order, so one more turn than there are indices is enough. -/
theorem drain_spec {dependents : List (List Nat)} (bounds : ∀ source target, (source, target) ∈ arrows → target < count)
    (targets : ∀ index, index < count → dependents[index]? = some (targetsOf arrows index)) :
    ∀ (pops : Nat) (sorting : Sorting), Sorts count arrows [] sorting → count < sorting.order.length + pops →
      Greedy (fun source target => (source, target) ∈ arrows) (List.range count) sorting.order →
      ∃ order inDegree, drain dependents pops sorting = .ok order ∧ Sorts count arrows [] ⟨inDegree, [], order⟩ ∧
        Greedy (fun source target => (source, target) ∈ arrows) (List.range count) order := by
  intro pops
  induction pops with
  | zero =>
    intro sorting sorts enough
    have fits := sorts.order_length
    omega
  | succ pops ih =>
    intro sorting sorts enough greedy
    cases least : sorting.ready.min? with
    | none =>
      have empty := List.min?_eq_none_iff.mp least
      refine ⟨sorting.order, sorting.inDegree, ?_, ?_, greedy⟩
      · rw [drain, least]
      · have same : sorting = ⟨sorting.inDegree, [], sorting.order⟩ := by rw [← empty]
        rw [same] at sorts
        exact sorts
    | some index =>
      have ready := List.min?_mem least
      have zero := ((sorts.ready index).mp ready).2
      have bound := (List.getElem?_eq_some_iff.mp zero).1
      rw [sorts.length] at bound
      have inside : ∀ dependent ∈ targetsOf arrows index, dependent < count := by
        intro dependent member
        exact bounds index dependent (mem_targetsOf.mp member)
      rcases releases_spec inside (sorts.pop ready) with ⟨next, released, order, kept⟩
      have longer : count < next.order.length + pops := by
        rw [order, List.length_append, List.length_singleton]
        omega
      rcases ih next kept longer (by rw [order]; exact sorts.greedy greedy least) with ⟨final, inDegree, drained, last⟩
      refine ⟨final, inDegree, ?_, last⟩
      rw [drain, least]
      dsimp only
      rw [targets index bound, okOr_some, ok_bind, released, ok_bind]
      exact drained

end

section

variable {definition : GraphDefinition} {nodeIndex : BTreeMap NodeId Nat}

/-- In an acyclic graph the sorting orders every node, dependencies first and what comes first in the definition as
early as it may. -/
theorem topologicalSort_spec (resolved : Resolved definition nodeIndex)
    (accessible : ∀ index, index < definition.nodes.length → Acc (fun dependency dependent =>
      Arrow (dependencyIndices definition.nodes nodeIndex) dependent dependency) index) :
    ∃ order, topologicalSort definition.nodes nodeIndex (generateEdges definition.nodes) = .ok order ∧
      order.Perm (List.range definition.nodes.length) ∧
      InOrder (arrowsOf nodeIndex (generateEdges definition.nodes)) order ∧
      Greedy (fun source target => (source, target) ∈ arrowsOf nodeIndex (generateEdges definition.nodes))
        (List.range definition.nodes.length) order := by
  have counting : ∃ degrees, (generateEdges definition.nodes).foldlM (countEdge nodeIndex)
        ⟨List.replicate definition.nodes.length 0, List.replicate definition.nodes.length []⟩ = .ok degrees ∧
      Counted definition.nodes.length (arrowsOf nodeIndex (generateEdges definition.nodes)) degrees := by
    apply foldlM_total (P := fun done degrees => Counted definition.nodes.length (arrowsOf nodeIndex done) degrees)
    · refine ⟨by simp, by simp, ?_, ?_⟩
      · intro index bound
        simp [arrowsOf, waitingFor, bound]
      · intro index bound
        simp [arrowsOf, targetsOf, bound]
    · intro done edge rest degrees split counted
      have generated : edge ∈ generateEdges definition.nodes := by
        rw [split]
        exact List.mem_append_right _ List.mem_cons_self
      exact countEdge_spec resolved generated counted
  rcases counting with ⟨degrees, run, counted⟩
  have initial : Sorts definition.nodes.length (arrowsOf nodeIndex (generateEdges definition.nodes)) []
      ⟨degrees.inDegree, (degrees.inDegree.zipIdx.filter (·.1 = 0)).map Prod.snd, []⟩ := by
    refine ⟨counted.degreeLength, ?_, ?_, by simp, ?_, List.nodup_nil, ?_⟩
    · intro index bound
      rw [counted.degree index bound]
      rfl
    · intro index
      simp [List.mem_zipIdx_iff_getElem?]
    · have places := (List.filter_sublist (p := fun entry => decide (entry.1 = 0)) (l := degrees.inDegree.zipIdx)).map
        Prod.snd
      rw [List.zipIdx_map_snd] at places
      exact List.Nodup.sublist places List.nodup_range'
    · intro earlier target later impossible
      simp at impossible
  have bounds : ∀ source target, (source, target) ∈ arrowsOf nodeIndex (generateEdges definition.nodes) →
      target < definition.nodes.length := by
    intro source target member
    rcases List.mem_map.mp member with ⟨edge, generated, same⟩
    cases same
    exact (edge_places resolved generated).2.2.1
  rcases drain_spec bounds counted.targets (definition.nodes.length + 1) _ initial (by simp) (greedy_nil _) with
    ⟨order, inDegree, drained, sorts, greedy⟩
  have ordered : ∀ index, index < definition.nodes.length → index ∈ order := by
    intro index bound
    induction accessible index bound with
    | intro index _ ih =>
      by_contra unordered
      have waits : ¬ inDegree[index]? = some 0 := by
        intro zero
        have ready := (sorts.ready index).mpr ⟨unordered, zero⟩
        cases ready
      have degree := sorts.degree index bound
      rw [degree] at waits
      have positive : 0 < waitingFor (arrowsOf nodeIndex (generateEdges definition.nodes)) order index := by
        apply Nat.pos_of_ne_zero
        intro zero
        exact waits (by simp [zero])
      rcases List.countP_pos_iff.mp positive with ⟨⟨source, target⟩, member, holds⟩
      have facts := of_decide_eq_true holds
      rcases List.mem_map.mp member with ⟨edge, generated, same⟩
      have places := edge_places resolved generated
      cases same
      dsimp only at facts
      rw [facts.1] at places
      exact facts.2 (ih _ places.2.2.2 places.1.2)
  have perm : order.Perm (List.range definition.nodes.length) := by
    apply (List.perm_ext_iff_of_nodup sorts.orderDistinct List.nodup_range).mpr
    intro index
    rw [List.mem_range]
    exact ⟨fun member => sorts.bound member, ordered index⟩
  refine ⟨order, ?_, perm, sorts.inOrder, greedy⟩
  unfold topologicalSort
  rw [run, ok_bind]
  dsimp only
  rw [drained, ok_bind, if_pos]
  rw [perm.length_eq, List.length_range]

end

end KafkaCalculator

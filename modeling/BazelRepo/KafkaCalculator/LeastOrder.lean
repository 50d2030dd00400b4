import BazelRepo.KafkaCalculator.Validation
import BazelRepo.Library.Listing

namespace KafkaCalculator

open Library

def GraphDefinition.declarationIndex (definition : GraphDefinition) (id : NodeId) : Nat :=
  (definition.nodes.map AnyNode.id).idxOf id

/-- The order lists every node once, and a node only after what it depends on. -/
structure TopologicallySorts (definition : GraphDefinition) (order : List NodeId) : Prop where
  perm : order.Perm (definition.nodes.map AnyNode.id)
  dependenciesFirst : ∀ earlier id later, order = earlier ++ id :: later →
    ∀ dependency, definition.DependsOn id dependency → dependency ∈ earlier

section

variable {definition : GraphDefinition} {nodeIndex : BTreeMap NodeId Nat}

theorem generated_iff {dependent dependency : NodeId} : definition.DependsOn dependent dependency ↔
    ∃ edge ∈ generateEdges definition.nodes, edge.source = dependency ∧ edge.target = dependent := by
  constructor
  · rintro ⟨node, member, rfl, operand, used, rfl⟩
    exact ⟨_, List.mem_flatMap.mpr ⟨node, member, List.mem_map_of_mem used⟩, rfl, rfl⟩
  · rintro ⟨edge, generated, rfl, rfl⟩
    rcases List.mem_flatMap.mp generated with ⟨node, member, made⟩
    rcases List.mem_map.mp made with ⟨operand, used, rfl⟩
    exact ⟨node, member, rfl, operand, used, rfl⟩

theorem dependency_known (resolved : Resolved definition nodeIndex) {dependent dependency : NodeId}
    (depends : definition.DependsOn dependent dependency) : dependency ∈ definition.nodes.map AnyNode.id := by
  rcases depends with ⟨node, member, _, operand, used, rfl⟩
  rcases resolved.sources.known node member operand used with ⟨source, present, same⟩
  rw [← same]
  exact List.mem_map_of_mem present

theorem dependent_known {dependent dependency : NodeId} (depends : definition.DependsOn dependent dependency) :
    dependent ∈ definition.nodes.map AnyNode.id := by
  rcases depends with ⟨node, member, rfl, _⟩
  exact List.mem_map_of_mem member

theorem placeOf_eq_declarationIndex (resolved : Resolved definition nodeIndex) {id : NodeId}
    (member : id ∈ definition.nodes.map AnyNode.id) : placeOf nodeIndex id = definition.declarationIndex id := by
  have held : (definition.nodes.map AnyNode.id)[definition.declarationIndex id]? = some id := by
    rw [List.getElem?_eq_some_iff]
    exact ⟨List.idxOf_lt_length_iff.mpr member, List.getElem_idxOf _⟩
  rw [placeOf, (resolved.indexed id _).mpr held]
  rfl

theorem map_declarationIndex (distinct : (definition.nodes.map AnyNode.id).Nodup) :
    (definition.nodes.map AnyNode.id).map definition.declarationIndex = List.range definition.nodes.length := by
  apply List.ext_getElem
  · simp
  · intro index bound _
    rw [List.getElem_map, List.getElem_range]
    exact distinct.idxOf_getElem index _

theorem declarationIndex_injective {id other : NodeId} (member : id ∈ definition.nodes.map AnyNode.id)
    (same : definition.declarationIndex id = definition.declarationIndex other) : id = other :=
  (List.idxOf_inj member).mp same

theorem TopologicallySorts.respects (resolved : Resolved definition nodeIndex) {order : List NodeId}
    (sorts : TopologicallySorts definition order) :
    Respects (fun source target => (source, target) ∈ arrowsOf nodeIndex (generateEdges definition.nodes))
      (order.map definition.declarationIndex) := by
  intro earlier target later split source arrow
  rcases List.map_eq_append_iff.mp split with ⟨before, rest, whole, rfl, restSplit⟩
  rcases List.map_eq_cons_iff.mp restSplit with ⟨id, after, rfl, rfl, rfl⟩
  rcases List.mem_map.mp arrow with ⟨edge, generated, places⟩
  rw [Prod.mk.injEq] at places
  have depends : definition.DependsOn edge.target edge.source := generated_iff.mpr ⟨edge, generated, rfl, rfl⟩
  rw [placeOf_eq_declarationIndex resolved (dependent_known depends),
    placeOf_eq_declarationIndex resolved (dependency_known resolved depends)] at places
  have here := declarationIndex_injective (dependent_known depends) places.2
  rw [here] at depends
  rw [← places.1]
  exact List.mem_map_of_mem (sorts.dependenciesFirst before id after whole edge.source depends)

theorem sorts_of_places (resolved : Resolved definition nodeIndex) {places : List Nat} {order : List NodeId}
    (perm : places.Perm (List.range definition.nodes.length))
    (inOrder : InOrder (arrowsOf nodeIndex (generateEdges definition.nodes)) places)
    (ids : order.map definition.declarationIndex = places)
    (known : ∀ id ∈ order, id ∈ definition.nodes.map AnyNode.id) : TopologicallySorts definition order := by
  constructor
  · have distinct : (order.map definition.declarationIndex).Nodup := by
      rw [ids]
      exact perm.nodup_iff.mpr List.nodup_range
    apply (List.perm_ext_iff_of_nodup distinct.of_map resolved.indexed.nodup).mpr
    intro id
    refine ⟨known id, ?_⟩
    intro member
    have bound : definition.declarationIndex id < definition.nodes.length := by
      have inside := List.idxOf_lt_length_iff.mpr member
      rw [List.length_map] at inside
      exact inside
    have place := perm.mem_iff.mpr (List.mem_range.mpr bound)
    rw [← ids] at place
    rcases List.mem_map.mp place with ⟨other, present, same⟩
    rw [declarationIndex_injective member same.symm]
    exact present
  · intro earlier id later split dependency depends
    rcases generated_iff.mp depends with ⟨edge, generated, rfl, rfl⟩
    have arrow : (placeOf nodeIndex edge.source, placeOf nodeIndex edge.target) ∈
        arrowsOf nodeIndex (generateEdges definition.nodes) := List.mem_map_of_mem generated
    rw [placeOf_eq_declarationIndex resolved (dependent_known depends),
      placeOf_eq_declarationIndex resolved (dependency_known resolved depends)] at arrow
    have before : definition.declarationIndex edge.source ∈ earlier.map definition.declarationIndex := by
      apply inOrder _ (definition.declarationIndex edge.target) (later.map definition.declarationIndex) ?_ _ arrow
      rw [← ids, split, List.map_append, List.map_cons]
    rcases List.mem_map.mp before with ⟨other, present, same⟩
    rw [declarationIndex_injective (dependency_known resolved depends) same.symm]
    exact present

end

/-- What acceptance says of the order: it lists what stands at the sorted places. -/
theorem accepted_order {definition : GraphDefinition} {graph : ValidatedGraph}
    (accepted : definition.validate = .ok graph) : ∃ (nodeIndex : BTreeMap NodeId Nat) (places : List Nat),
      Resolved definition nodeIndex ∧ places.Perm (List.range definition.nodes.length) ∧
      InOrder (arrowsOf nodeIndex (generateEdges definition.nodes)) places ∧
      Greedy (fun source target => (source, target) ∈ arrowsOf nodeIndex (generateEdges definition.nodes))
        (List.range definition.nodes.length) places ∧
      places.mapM (nodeIdAt definition.nodes) = .ok graph.topologicalOrder := by
  unfold GraphDefinition.validate at accepted
  rcases bind_eq_ok.mp accepted with ⟨_, _, accepted⟩
  rcases bind_eq_ok.mp accepted with ⟨nodeIndex, indexing, accepted⟩
  rcases bind_eq_ok.mp accepted with ⟨citationIndex, _, accepted⟩
  rcases bind_eq_ok.mp accepted with ⟨_, _, accepted⟩
  rcases bind_eq_ok.mp accepted with ⟨_, operands, accepted⟩
  have indexed := ((checks_nodeIds definition).passes nodeIndex indexing).2
  have resolved : Resolved definition nodeIndex := ⟨indexed, ((checks_operands indexed).passes _ operands).1⟩
  dsimp only at accepted
  rw [buildDependencyIndices_eq resolved.referenced, ok_bind] at accepted
  rcases bind_eq_ok.mp accepted with ⟨_, acyclic, accepted⟩
  rcases topologicalSort_spec resolved ((checks_cycles resolved.referenced).passes _ acyclic).2 with
    ⟨places, sorted, perm, inOrder, greedy⟩
  rw [sorted, ok_bind] at accepted
  rcases bind_eq_ok.mp accepted with ⟨types, _, accepted⟩
  rcases bind_eq_ok.mp accepted with ⟨_, _, accepted⟩
  rcases bind_eq_ok.mp accepted with ⟨_, _, accepted⟩
  unfold ValidatedGraph.new at accepted
  dsimp only at accepted
  rcases bind_eq_ok.mp accepted with ⟨_, _, accepted⟩
  rcases bind_eq_ok.mp accepted with ⟨_, _, accepted⟩
  rcases bind_eq_ok.mp accepted with ⟨topologicalOrder, listed, accepted⟩
  cases accepted
  exact ⟨nodeIndex, places, resolved, perm, inOrder, greedy, listed⟩

/-- The order of a validated graph lists every node once, dependencies first, and of all such orders it is the least by
the places of declaration. -/
theorem topological_order_is_least {definition : GraphDefinition} {graph : ValidatedGraph}
    (accepted : definition.validate = .ok graph) :
    TopologicallySorts definition graph.topologicalOrder ∧
      ∀ other, TopologicallySorts definition other →
        graph.topologicalOrder.map definition.declarationIndex ≤ other.map definition.declarationIndex := by
  rcases accepted_order accepted with ⟨nodeIndex, places, resolved, perm, inOrder, greedy, listed⟩
  have at_ : ∀ place ∈ places, ∀ id, nodeIdAt definition.nodes place = .ok id →
      (definition.nodes.map AnyNode.id)[place]? = some id := by
    intro place _ id found
    rcases bind_eq_ok.mp found with ⟨node, held, same⟩
    cases same
    rw [List.getElem?_map, okOr_eq_ok.mp held]
    rfl
  have ids : graph.topologicalOrder.map definition.declarationIndex = places := by
    apply map_of_mapM _ listed
    intro place member id found
    rcases List.getElem?_eq_some_iff.mp (at_ place member id found) with ⟨bound, rfl⟩
    exact resolved.indexed.nodup.idxOf_getElem place bound
  have known : ∀ id ∈ graph.topologicalOrder, id ∈ definition.nodes.map AnyNode.id := by
    intro id member
    rcases (mem_of_mapM listed id).mp member with ⟨place, listing, found⟩
    exact List.mem_of_getElem? (at_ place listing id found)
  refine ⟨sorts_of_places resolved perm inOrder ids known, ?_⟩
  intro other sorts
  have otherPlaces := sorts.perm.map definition.declarationIndex
  rw [map_declarationIndex resolved.indexed.nodup] at otherPlaces
  rw [ids]
  apply greedy.le otherPlaces (otherPlaces.nodup_iff.mpr List.nodup_range) (sorts.respects resolved)
  rw [perm.length_eq, otherPlaces.length_eq]

def usedTwice : GraphDefinition :=
  let source : Node Input := .new ⟨"source", source_valid⟩ ⟨"", "", []⟩ ⟨.scalar, none, [], no_default, no_constraints⟩
  let sum : Expression Add := ⟨[⟨source.id, "first term"⟩, ⟨source.id, "second term"⟩], .descriptor, two_terms⟩
  let result : Node Derived := .new ⟨"result", result_valid⟩ ⟨"", "", []⟩ ⟨.add sum⟩
  { nodes := [.derived result, .input source], citations := [], outputs := [result.id] }

theorem topological_order_is_least_twice : ∃ graph, usedTwice.validate = .ok graph ∧
    TopologicallySorts usedTwice graph.topologicalOrder ∧ ∀ other, TopologicallySorts usedTwice other →
      graph.topologicalOrder.map usedTwice.declarationIndex ≤ other.map usedTwice.declarationIndex := by
  have accepted : usedTwice.validate.isOk = true := by decide +kernel
  rcases exists_eq_ok accepted with ⟨graph, validated⟩
  exact ⟨graph, validated, topological_order_is_least validated⟩

end KafkaCalculator

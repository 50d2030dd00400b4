import BazelRepo.KafkaCalculator.Validation

namespace KafkaCalculator

open Library

def ValidatedGraph.node (graph : ValidatedGraph) (id : NodeId) : Validation (Option AnyNode) :=
  match graph.nodeIndex[id]? with
  | none => .ok none
  | some index => do
    let node ← okOr graph.nodes[index]? .panic
    .ok (some node)

def ValidatedGraph.citation (graph : ValidatedGraph) (id : CitationId) : Validation (Option Citation) :=
  match graph.citationIndex[id]? with
  | none => .ok none
  | some index => do
    let citation ← okOr graph.citations[index]? .panic
    .ok (some citation)

section

variable {definition : GraphDefinition} {graph : ValidatedGraph}

theorem accepted_new (accepted : definition.validate = .ok graph) :
    ∃ (nodeIndex : BTreeMap NodeId Nat) (citationIndex : BTreeMap CitationId Nat) (places : List Nat)
      (types : BTreeMap NodeId ValueType),
      Resolved definition nodeIndex ∧ IndexOf Citation.id definition.citations citationIndex ∧
        ValidatedGraph.new definition nodeIndex citationIndex (generateEdges definition.nodes) places types =
          .ok graph := by
  unfold GraphDefinition.validate at accepted
  rcases bind_eq_ok.mp accepted with ⟨_, _, accepted⟩
  rcases bind_eq_ok.mp accepted with ⟨nodeIndex, indexing, accepted⟩
  rcases bind_eq_ok.mp accepted with ⟨citationIndex, citing, accepted⟩
  rcases bind_eq_ok.mp accepted with ⟨_, _, accepted⟩
  rcases bind_eq_ok.mp accepted with ⟨_, operands, accepted⟩
  have indexed := ((checks_nodeIds definition).passes nodeIndex indexing).2
  have cited := ((checks_citationIds definition).passes citationIndex citing).2
  dsimp only at accepted
  rcases bind_eq_ok.mp accepted with ⟨_, _, accepted⟩
  rcases bind_eq_ok.mp accepted with ⟨_, _, accepted⟩
  rcases bind_eq_ok.mp accepted with ⟨places, _, accepted⟩
  rcases bind_eq_ok.mp accepted with ⟨types, _, accepted⟩
  rcases bind_eq_ok.mp accepted with ⟨_, _, accepted⟩
  rcases bind_eq_ok.mp accepted with ⟨_, _, built⟩
  exact ⟨nodeIndex, citationIndex, places, types, ⟨indexed, ((checks_operands indexed).passes _ operands).1⟩, cited,
    built⟩

theorem getElem?_noEdges (nodes : List AnyNode) (id : NodeId) :
    ∀ start : BTreeMap NodeId (List Edge), (nodes.foldl (fun index node => index.insert node.id []) start)[id]? =
      if id ∈ nodes.map AnyNode.id then some [] else start[id]? := by
  induction nodes with
  | nil => simp
  | cons first rest ih =>
    intro start
    rw [List.foldl_cons, ih, BTreeMap.getElem?_insert_eq]
    by_cases same : id = first.id
    · simp [same]
    · simp [same]

theorem getElem?_indexEdges (side : Edge → NodeId) (id : NodeId) {index : BTreeMap NodeId (List Edge)} :
    ∀ (edges : List Edge) (start : BTreeMap NodeId (List Edge)), edges.foldlM (indexEdge side) start = .ok index →
      index[id]? = (start[id]?).map fun before => before ++ edges.filter fun edge => side edge = id := by
  intro edges
  induction edges with
  | nil =>
    intro start run
    cases run
    simp
  | cons edge rest ih =>
    intro start run
    rw [List.foldlM_cons] at run
    rcases bind_eq_ok.mp run with ⟨next, added, run⟩
    rcases bind_eq_ok.mp added with ⟨listed, found, same⟩
    cases same
    rw [okOr_eq_ok] at found
    rw [ih _ run, BTreeMap.getElem?_insert_eq]
    by_cases here : id = side edge
    · subst here
      simp [found]
    · simp [here, Ne.symm here]

theorem filter_target_generateEdges {nodes : List AnyNode} (distinct : (nodes.map AnyNode.id).Nodup) {node : AnyNode}
    (member : node ∈ nodes) : (generateEdges nodes).filter (fun edge => edge.target = node.id) =
      (operands node).map (Edge.fromOperand node.id) := by
  have own : ∀ other : AnyNode, ((operands other).map (Edge.fromOperand other.id)).filter
      (fun edge => edge.target = node.id) =
        if other.id = node.id then (operands other).map (Edge.fromOperand other.id) else [] := by
    intro other
    rw [List.filter_map]
    by_cases same : other.id = node.id
    · simp [Function.comp_def, Edge.fromOperand, same]
    · simp [Function.comp_def, Edge.fromOperand, same]
  unfold generateEdges
  induction nodes with
  | nil => cases member
  | cons first rest ih =>
    rw [List.map_cons, List.nodup_cons] at distinct
    rw [List.flatMap_cons, List.filter_append, own]
    rcases List.mem_cons.mp member with rfl | later
    · have others : (rest.flatMap fun other => (operands other).map (Edge.fromOperand other.id)).filter
          (fun edge => edge.target = node.id) = [] := by
        rw [List.filter_eq_nil_iff]
        intro edge generated same
        rcases List.mem_flatMap.mp generated with ⟨other, present, made⟩
        rcases List.mem_map.mp made with ⟨operand, _, rfl⟩
        apply distinct.1
        rw [← of_decide_eq_true same]
        exact List.mem_map_of_mem present
      rw [others, if_pos rfl, List.append_nil]
    · have apart : first.id ≠ node.id := by
        intro same
        apply distinct.1
        rw [same]
        exact List.mem_map_of_mem later
      rw [if_neg apart, List.nil_append]
      exact ih distinct.2 later

theorem IndexOf.lookup {α κ : Type} [Ord κ] [Std.TransOrd κ] {key : α → κ} {items : List α} {index : BTreeMap κ Nat}
    (indexed : IndexOf key items index) (k : κ) :
    (index[k]? = none ∧ ∀ item ∈ items, key item ≠ k) ∨
      ∃ place item, index[k]? = some place ∧ items[place]? = some item ∧
        ∀ other, other ∈ items ∧ key other = k ↔ other = item := by
  cases found : index[k]? with
  | none => exact .inl ⟨rfl, indexed.absent found⟩
  | some place =>
    rcases indexed.item found with ⟨item, held, same⟩
    refine .inr ⟨place, item, rfl, held, ?_⟩
    intro other
    constructor
    · rintro ⟨member, otherSame⟩
      exact List.inj_on_of_nodup_map indexed.nodup member (List.mem_of_getElem? held) (otherSame.trans same.symm)
    · rintro rfl
      exact ⟨List.mem_of_getElem? held, same⟩

theorem new_indexes {nodeIndex : BTreeMap NodeId Nat} {citationIndex : BTreeMap CitationId Nat} {edges : List Edge}
    {places : List Nat} {types : BTreeMap NodeId ValueType}
    (built : ValidatedGraph.new definition nodeIndex citationIndex edges places types = .ok graph) (id : NodeId) :
    graph.dependencies[id]? =
        (if id ∈ definition.nodes.map AnyNode.id then some (edges.filter fun edge => edge.target = id) else none) ∧
      graph.dependents[id]? =
        if id ∈ definition.nodes.map AnyNode.id then some (edges.filter fun edge => edge.source = id) else none := by
  unfold ValidatedGraph.new at built
  dsimp only at built
  rcases bind_eq_ok.mp built with ⟨dependencies, incoming, built⟩
  rcases bind_eq_ok.mp built with ⟨dependents, outgoing, built⟩
  rcases bind_eq_ok.mp built with ⟨order, _, built⟩
  cases built
  dsimp only
  rw [getElem?_indexEdges Edge.target id _ _ incoming, getElem?_indexEdges Edge.source id _ _ outgoing,
    getElem?_noEdges]
  by_cases known : id ∈ definition.nodes.map AnyNode.id
  · simp [known]
  · simp [known]

theorem new_declarations {nodeIndex : BTreeMap NodeId Nat} {citationIndex : BTreeMap CitationId Nat}
    {edges : List Edge} {places : List Nat} {types : BTreeMap NodeId ValueType}
    (built : ValidatedGraph.new definition nodeIndex citationIndex edges places types = .ok graph) :
    graph.nodes = definition.nodes ∧ graph.citations = definition.citations ∧ graph.nodeIndex = nodeIndex ∧
      graph.citationIndex = citationIndex ∧ graph.edges = edges := by
  unfold ValidatedGraph.new at built
  dsimp only at built
  rcases bind_eq_ok.mp built with ⟨_, _, built⟩
  rcases bind_eq_ok.mp built with ⟨_, _, built⟩
  rcases bind_eq_ok.mp built with ⟨_, _, built⟩
  cases built
  exact ⟨rfl, rfl, rfl, rfl, rfl⟩

theorem count_sides (edges : List Edge) (edge : Edge) :
    (edges.filter fun other => other.source = edge.source).count edge =
      (edges.filter fun other => other.target = edge.target).count edge := by
  rw [List.count_filter (by simp), List.count_filter (by simp)]

/-- The indexes of a validated graph: both have the ids of the nodes as their keys, an id has as dependencies the edges
of its operands in their order, as dependents the generated edges that it is the source of in their order, an edge stands
as often on one side as on the other, and a look-up finds exactly what is declared under the id. -/
theorem indexes_are_exact (accepted : definition.validate = .ok graph) :
    (∀ id : NodeId, ((∃ edges, graph.dependencies[id]? = some edges) ↔ ∃ node ∈ definition.nodes, node.id = id) ∧
      ((∃ edges, graph.dependents[id]? = some edges) ↔ ∃ node ∈ definition.nodes, node.id = id)) ∧
    (∀ node ∈ definition.nodes,
      graph.dependencies[node.id]? = some ((operands node).map (Edge.fromOperand node.id)) ∧
      graph.dependencies[node.id]? = some ((generateEdges definition.nodes).filter fun edge => edge.target = node.id) ∧
      graph.dependents[node.id]? = some ((generateEdges definition.nodes).filter fun edge => edge.source = node.id)) ∧
    (∀ edge ∈ generateEdges definition.nodes, ∃ outgoing incoming, graph.dependents[edge.source]? = some outgoing ∧
      graph.dependencies[edge.target]? = some incoming ∧ outgoing.count edge = incoming.count edge ∧
      outgoing.count edge = (generateEdges definition.nodes).count edge) ∧
    (∀ id, ∃ found, graph.node id = .ok found ∧
      ∀ node, found = some node ↔ node ∈ definition.nodes ∧ node.id = id) ∧
    ∀ id, ∃ found, graph.citation id = .ok found ∧
      ∀ citation, found = some citation ↔ citation ∈ definition.citations ∧ citation.id = id := by
  rcases accepted_new accepted with ⟨nodeIndex, citationIndex, places, types, resolved, cited, built⟩
  have indexes := new_indexes built
  rcases new_declarations built with ⟨nodes, citations, nodePlaces, citationPlaces, _⟩
  refine ⟨?_, ?_, ?_, ?_, ?_⟩
  · intro id
    rw [(indexes id).1, (indexes id).2, ← List.mem_map]
    by_cases known : id ∈ definition.nodes.map AnyNode.id
    · simp [known]
    · simp [known]
  · intro node member
    have known : node.id ∈ definition.nodes.map AnyNode.id := List.mem_map_of_mem member
    rw [(indexes node.id).1, (indexes node.id).2, if_pos known, if_pos known,
      filter_target_generateEdges resolved.indexed.nodup member]
    exact ⟨rfl, rfl, rfl⟩
  · intro edge generated
    rcases List.mem_flatMap.mp generated with ⟨node, member, made⟩
    rcases List.mem_map.mp made with ⟨operand, used, rfl⟩
    rcases resolved.sources.known node member operand used with ⟨source, present, same⟩
    have target : node.id ∈ definition.nodes.map AnyNode.id := List.mem_map_of_mem member
    have origin : operand.nodeId ∈ definition.nodes.map AnyNode.id := by
      rw [← same]
      exact List.mem_map_of_mem present
    refine ⟨_, _, (indexes operand.nodeId).2.trans (if_pos origin), (indexes node.id).1.trans (if_pos target), ?_, ?_⟩
    · exact count_sides (generateEdges definition.nodes) (Edge.fromOperand node.id operand)
    · exact List.count_filter (by simp [Edge.fromOperand])
  · intro id
    unfold ValidatedGraph.node
    rw [nodePlaces, nodes]
    rcases resolved.indexed.lookup id with ⟨missing, absent⟩ | ⟨place, node, found, held, only⟩
    · rw [missing]
      refine ⟨none, rfl, ?_⟩
      intro node
      constructor
      · intro impossible
        cases impossible
      · rintro ⟨member, same⟩
        exact absurd same (absent node member)
    · rw [found]
      dsimp only
      rw [held]
      refine ⟨some node, rfl, ?_⟩
      intro other
      rw [only, Option.some.injEq, eq_comm]
  · intro id
    unfold ValidatedGraph.citation
    rw [citationPlaces, citations]
    rcases cited.lookup id with ⟨missing, absent⟩ | ⟨place, citation, found, held, only⟩
    · rw [missing]
      refine ⟨none, rfl, ?_⟩
      intro citation
      constructor
      · intro impossible
        cases impossible
      · rintro ⟨member, same⟩
        exact absurd same (absent citation member)
    · rw [found]
      dsimp only
      rw [held]
      refine ⟨some citation, rfl, ?_⟩
      intro other
      rw [only, Option.some.injEq, eq_comm]

end

def doubled : GraphDefinition :=
  let source : Node Input := .new ⟨"source", source_valid⟩ ⟨"", "", []⟩ ⟨.scalar, none, [], no_default, no_constraints⟩
  let sum : Expression Add := ⟨[⟨source.id, "term"⟩, ⟨source.id, "term"⟩], .descriptor, two_terms⟩
  let result : Node Setting := .new ⟨"result", result_valid⟩ ⟨"", "", []⟩ ⟨"queue.size", .producer, .messages, .add sum⟩
  { nodes := [.setting result, .input source], citations := [], outputs := [result.id] }

theorem indexes_are_exact_doubled : ∃ graph, doubled.validate = .ok graph ∧
    ∀ edge ∈ generateEdges doubled.nodes, ∃ outgoing incoming, graph.dependents[edge.source]? = some outgoing ∧
      graph.dependencies[edge.target]? = some incoming ∧ outgoing.count edge = incoming.count edge ∧
      outgoing.count edge = (generateEdges doubled.nodes).count edge := by
  have accepted : doubled.validate.isOk = true := by decide +kernel
  rcases exists_eq_ok accepted with ⟨graph, validated⟩
  exact ⟨graph, validated, (indexes_are_exact validated).2.2.1⟩

end KafkaCalculator

import BazelRepo.KafkaCalculator.Validation

namespace KafkaCalculator

open Library Relation

def typesOf (definition : GraphDefinition) (nodeIndex : BTreeMap NodeId Nat) : Validation (BTreeMap NodeId ValueType) := do
  let order ← topologicalSort definition.nodes nodeIndex (generateEdges definition.nodes)
  resolveTypes definition.nodes order

structure PassesCycles (definition : GraphDefinition) (nodeIndex : BTreeMap NodeId Nat)
    (dependencies : List (List Nat)) : Prop where
  built : buildNodeIndex definition.nodes = .ok nodeIndex
  operands : validateOperandReferences definition.nodes nodeIndex = .ok ()
  listed : buildDependencyIndices definition.nodes nodeIndex = .ok dependencies
  acyclic : validateAcyclic definition.nodes dependencies = .ok ()

def GraphDefinition.redeclared (definition : GraphDefinition) (nodes : List AnyNode) : GraphDefinition :=
  { definition with nodes }

section

variable {definition other : GraphDefinition} {nodeIndex : BTreeMap NodeId Nat} {dependencies : List (List Nat)}

theorem Phase.Checks.accepts {phase : Phase} {α : Type} {result : Validation α} {post : α → Prop}
    (checks : phase.Checks definition result post)
    (distinct : Phase.nodeIds.position < phase.position → (definition.nodes.map AnyNode.id).Nodup)
    (passes : phase.Passes definition) : ∃ value, result = .ok value ∧ post value := by
  cases outcome : result with
  | ok value => exact ⟨value, rfl, (checks.passes value outcome).2⟩
  | error failure =>
    rcases checks.fails failure outcome with ⟨error, _, rfl, describes⟩
    exact absurd passes (describes.fails distinct)

theorem PassesCycles.resolved (passed : PassesCycles definition nodeIndex dependencies) :
    Resolved definition nodeIndex := by
  have indexed := ((checks_nodeIds definition).passes nodeIndex passed.built).2
  exact ⟨indexed, ((checks_operands indexed).passes _ passed.operands).1⟩

theorem PassesCycles.cycles (passed : PassesCycles definition nodeIndex dependencies) :
    Phase.cycles.Passes definition ∧ ∀ index, index < definition.nodes.length →
      Acc (fun dependency dependent => Arrow (dependencyIndices definition.nodes nodeIndex) dependent dependency) index := by
  have acyclic := passed.acyclic
  have listed := passed.listed
  rw [buildDependencyIndices_eq passed.resolved.referenced] at listed
  cases listed
  exact (checks_cycles passed.resolved.referenced).passes _ acyclic

theorem passesCycles_of_passes (distinct : (definition.nodes.map AnyNode.id).Nodup)
    (operands : definition.OperandsResolve) (acyclic : Phase.cycles.Passes definition) :
    ∃ nodeIndex dependencies, PassesCycles definition nodeIndex dependencies := by
  rcases (checks_nodeIds definition).accepts (fun _ => distinct) distinct with ⟨nodeIndex, built, indexed⟩
  rcases (checks_operands indexed).accepts (fun _ => distinct) operands with ⟨⟨⟩, checked, _⟩
  have referenced : Referenced definition nodeIndex := ⟨indexed, operands.known⟩
  rcases (checks_cycles referenced).accepts (fun _ => distinct) acyclic with ⟨⟨⟩, passed, _⟩
  exact ⟨nodeIndex, _, built, checked, buildDependencyIndices_eq referenced, passed⟩

theorem PassesCycles.checks_typesOf (passed : PassesCycles definition nodeIndex dependencies) :
    Phase.types.Checks definition (typesOf definition nodeIndex) (TypesFound definition (List.range definition.nodes.length)) := by
  rcases topologicalSort_spec passed.resolved passed.cycles.2 with ⟨order, sorted, perm, inOrder, _⟩
  have checks := checks_types passed.resolved perm inOrder
  unfold typesOf
  rw [sorted, ok_bind]
  refine ⟨?_, checks.fails⟩
  intro types run
  rcases checks.passes types run with ⟨passes, found⟩
  refine ⟨passes, found.sound, ?_, ?_⟩
  · intro index member
    exact found.complete index (perm.mem_iff.mpr member)
  · intro index member
    exact found.typechecks index (perm.mem_iff.mpr member)

theorem HasType.value {id : NodeId} {valueType : ValueType} (typed : HasType definition id valueType) :
    ∃ node ∈ definition.nodes, node.id = id ∧ node.isFinding = false := by
  cases typed with
  | declared node _ member declared =>
    refine ⟨node, member, rfl, ?_⟩
    cases node <;> cases declared <;> rfl
  | computed node expression operandTypes _ member computed =>
    refine ⟨node, member, rfl, ?_⟩
    cases node <;> cases computed <;> rfl

theorem TypesFound.types_iff {types : BTreeMap NodeId ValueType} (distinct : (definition.nodes.map AnyNode.id).Nodup)
    (found : TypesFound definition (List.range definition.nodes.length) types) {id : NodeId} {valueType : ValueType} :
    types[id]? = some valueType ↔ HasType definition id valueType := by
  constructor
  · exact found.sound id valueType
  · intro typed
    rcases typed.value with ⟨node, member, rfl, value⟩
    rcases List.getElem?_of_mem member with ⟨index, held⟩
    have bound := (List.getElem?_eq_some_iff.mp held).1
    rcases found.complete index (List.mem_range.mpr bound) node held value with ⟨foundType, present⟩
    rw [present, (found.sound _ _ present).unique distinct typed]

theorem TypesFound.present_iff {types : BTreeMap NodeId ValueType}
    (found : TypesFound definition (List.range definition.nodes.length) types) {id : NodeId} :
    (∃ valueType, types[id]? = some valueType) ↔ ∃ node ∈ definition.nodes, node.id = id ∧ node.isFinding = false := by
  constructor
  · rintro ⟨valueType, present⟩
    exact (found.sound id valueType present).value
  · rintro ⟨node, member, rfl, value⟩
    rcases List.getElem?_of_mem member with ⟨index, held⟩
    have bound := (List.getElem?_eq_some_iff.mp held).1
    exact found.complete index (List.mem_range.mpr bound) node held value

theorem TypesFound.computed {types : BTreeMap NodeId ValueType} (distinct : (definition.nodes.map AnyNode.id).Nodup)
    (found : TypesFound definition (List.range definition.nodes.length) types) {node : AnyNode}
    {expression : AnyExpression} (member : node ∈ definition.nodes) (computed : node.expression = some expression) :
    ∃ operandTypes valueType, expression.operands.map (fun operand => types[operand.nodeId]?) = operandTypes.map some ∧
      expression.resultType operandTypes = .ok valueType ∧ types[node.id]? = some valueType := by
  rcases List.getElem?_of_mem member with ⟨index, held⟩
  have bound := (List.getElem?_eq_some_iff.mp held).1
  have checked := found.typechecks index (List.mem_range.mpr bound) node held
  rcases checked.expression expression computed with ⟨operandTypes, valueType, operands, result⟩
  refine ⟨operandTypes, valueType, ?_, result, ?_⟩
  · apply List.ext_getElem
    · simp [operands.length]
    intro place first second
    rw [List.getElem_map, List.getElem_map]
    rw [List.length_map] at first second
    exact (found.types_iff distinct).mpr (operands.types place _ _ (List.getElem?_eq_getElem first)
      (List.getElem?_eq_getElem second))
  · exact (found.types_iff distinct).mpr
      (.computed node expression operandTypes valueType member computed operands.length operands.types result)

theorem HasType.redeclare (same : ∀ node, node ∈ definition.nodes → node ∈ other.nodes) {id : NodeId}
    {valueType : ValueType} (typed : HasType definition id valueType) : HasType other id valueType := by
  induction typed with
  | declared node valueType member declared => exact .declared node valueType (same node member) declared
  | computed node expression operandTypes valueType member computed length _ result ih =>
    exact .computed node expression operandTypes valueType (same node member) computed length ih result

theorem AnyNode.Typechecks.redeclare (same : ∀ node, node ∈ definition.nodes → node ∈ other.nodes) {node : AnyNode}
    (checked : node.Typechecks definition) : node.Typechecks other := by
  constructor
  · intro expression computed
    rcases checked.expression expression computed with ⟨operandTypes, valueType, operands, result⟩
    refine ⟨operandTypes, valueType, ⟨operands.length, ?_⟩, result⟩
    intro index operand operandType held typed
    exact (operands.types index operand operandType held typed).redeclare same
  · intro comparison compared
    rcases checked.comparison comparison compared with ⟨valueType, left, right⟩
    exact ⟨valueType, left.redeclare same, right.redeclare same⟩

theorem GraphDefinition.DependsOn.redeclare (same : ∀ node, node ∈ definition.nodes → node ∈ other.nodes)
    {dependent dependency : NodeId} (depends : definition.DependsOn dependent dependency) :
    other.DependsOn dependent dependency := by
  rcases depends with ⟨node, member, rest⟩
  exact ⟨node, same node member, rest⟩

theorem PassesCycles.redeclared (passed : PassesCycles definition nodeIndex dependencies) {nodes : List AnyNode}
    (perm : definition.nodes.Perm nodes) : ∃ otherIndex otherDependencies,
      PassesCycles (definition.redeclared nodes) otherIndex otherDependencies := by
  have resolved := passed.resolved
  apply passesCycles_of_passes
  · exact (perm.map AnyNode.id).nodup_iff.mp resolved.indexed.nodup
  · constructor
    · intro node member operand used
      rcases resolved.sources.known node (perm.mem_iff.mpr member) operand used with ⟨source, known, same⟩
      exact ⟨source, perm.mem_iff.mp known, same⟩
    · intro node member operand used source known same
      exact resolved.sources.values node (perm.mem_iff.mpr member) operand used source (perm.mem_iff.mpr known) same
  · intro id circle
    apply passed.cycles.1 id
    have back : ∀ dependent dependency, (definition.redeclared nodes).DependsOn dependent dependency →
        definition.DependsOn dependent dependency :=
      fun _ _ depends => depends.redeclare fun _ member => perm.mem_iff.mpr member
    exact TransGen.mono back id id circle

end

/-- Of a graph without cycles the typing phase gives a verdict. When it accepts, what has a type is every node but the
findings, a derived node has the type of its expression at the types of its operands, and neither the verdict nor a
type depends on the order of the declarations. -/
theorem types_do_not_depend_on_declaration_order {definition : GraphDefinition} {nodeIndex : BTreeMap NodeId Nat}
    {dependencies : List (List Nat)} (passed : PassesCycles definition nodeIndex dependencies) :
    ((∃ types, typesOf definition nodeIndex = .ok types) ∨
      ∃ error, typesOf definition nodeIndex = .error (.invalid error) ∧ error.phase = .types) ∧
    (∀ types, typesOf definition nodeIndex = .ok types →
      (∀ id : NodeId, (∃ valueType, types[id]? = some valueType) ↔
        ∃ node ∈ definition.nodes, node.id = id ∧ node.isFinding = false) ∧
      ∀ node : Node Derived, .derived node ∈ definition.nodes → ∃ operandTypes valueType,
        node.nodeType.expression.operands.map (fun operand => types[operand.nodeId]?) = operandTypes.map some ∧
        node.nodeType.expression.resultType operandTypes = .ok valueType ∧ types[node.id]? = some valueType) ∧
    ∀ nodes, definition.nodes.Perm nodes → ∃ otherIndex otherDependencies,
      PassesCycles (definition.redeclared nodes) otherIndex otherDependencies ∧
      ((∃ types, typesOf definition nodeIndex = .ok types) ↔
        ∃ types, typesOf (definition.redeclared nodes) otherIndex = .ok types) ∧
      ∀ types others, typesOf definition nodeIndex = .ok types →
        typesOf (definition.redeclared nodes) otherIndex = .ok others → ∀ id : NodeId, types[id]? = others[id]? := by
  have checks := passed.checks_typesOf
  have distinct := passed.resolved.indexed.nodup
  refine ⟨?_, ?_, ?_⟩
  · cases outcome : typesOf definition nodeIndex with
    | ok types => exact .inl ⟨types, rfl⟩
    | error failure =>
      rcases checks.fails failure outcome with ⟨error, rfl, phase, _⟩
      exact .inr ⟨error, rfl, phase⟩
  · intro types run
    have found := (checks.passes types run).2
    exact ⟨fun _ => found.present_iff, fun node member => found.computed distinct member rfl⟩
  · intro nodes perm
    rcases passed.redeclared perm with ⟨otherIndex, otherDependencies, otherPassed⟩
    have otherChecks := otherPassed.checks_typesOf
    have otherDistinct := otherPassed.resolved.indexed.nodup
    have there : ∀ node, node ∈ definition.nodes → node ∈ (definition.redeclared nodes).nodes := fun _ => perm.mem_iff.mp
    have back : ∀ node, node ∈ (definition.redeclared nodes).nodes → node ∈ definition.nodes := fun _ => perm.mem_iff.mpr
    refine ⟨otherIndex, otherDependencies, otherPassed, ⟨?_, ?_⟩, ?_⟩
    · rintro ⟨types, run⟩
      have passes := (checks.passes types run).1
      rcases otherChecks.accepts (fun _ => otherDistinct) fun node member =>
        (passes node (back node member)).redeclare there with ⟨others, otherRun, _⟩
      exact ⟨others, otherRun⟩
    · rintro ⟨others, otherRun⟩
      have passes := (otherChecks.passes others otherRun).1
      rcases checks.accepts (fun _ => distinct) fun node member =>
        (passes node (there node member)).redeclare back with ⟨types, run, _⟩
      exact ⟨types, run⟩
    · intro types others run otherRun id
      apply Option.ext
      intro valueType
      rw [(checks.passes types run).2.types_iff distinct, (otherChecks.passes others otherRun).2.types_iff otherDistinct]
      exact ⟨fun typed => typed.redeclare there, fun typed => typed.redeclare back⟩

/-- A derived node declared before the input that it adds twice, and a setting that adds the input to it. -/
def addedAgain : GraphDefinition :=
  let source : Node Input := .new ⟨"source", source_valid⟩ ⟨"", "", []⟩ ⟨.scalar, none, [], no_default, no_constraints⟩
  let sum : Expression Add := ⟨[⟨source.id, "first term"⟩, ⟨source.id, "second term"⟩], .descriptor, two_terms⟩
  let middle : Node Derived := .new ⟨"middle", by decide +kernel⟩ ⟨"", "", []⟩ ⟨.add sum⟩
  let again : Expression Add := ⟨[⟨middle.id, "first term"⟩, ⟨source.id, "second term"⟩], .descriptor, two_terms⟩
  let result : Node Setting := .new ⟨"result", result_valid⟩ ⟨"", "", []⟩ ⟨"queue.size", .producer, .messages, .add again⟩
  { nodes := [.derived middle, .setting result, .input source], citations := [], outputs := [result.id] }

theorem types_do_not_depend_on_declaration_order_reversed : ∃ nodeIndex dependencies,
    PassesCycles addedAgain nodeIndex dependencies ∧ ∃ otherIndex otherDependencies,
      PassesCycles (addedAgain.redeclared addedAgain.nodes.reverse) otherIndex otherDependencies ∧
      ((∃ types, typesOf addedAgain nodeIndex = .ok types) ↔
        ∃ types, typesOf (addedAgain.redeclared addedAgain.nodes.reverse) otherIndex = .ok types) := by
  have indexes : (buildNodeIndex addedAgain.nodes).isOk = true := by decide +kernel
  rcases exists_eq_ok indexes with ⟨nodeIndex, built⟩
  have accepts : (do
      let index ← buildNodeIndex addedAgain.nodes
      validateOperandReferences addedAgain.nodes index
      let dependencies ← buildDependencyIndices addedAgain.nodes index
      validateAcyclic addedAgain.nodes dependencies : Validation Unit).isOk = true := by decide +kernel
  rcases exists_eq_ok accepts with ⟨⟨⟩, accepted⟩
  rw [built, ok_bind] at accepted
  rcases bind_eq_ok.mp accepted with ⟨⟨⟩, operands, accepted⟩
  rcases bind_eq_ok.mp accepted with ⟨dependencies, listed, acyclic⟩
  have passed : PassesCycles addedAgain nodeIndex dependencies := ⟨built, operands, listed, acyclic⟩
  rcases (types_do_not_depend_on_declaration_order passed).2.2 _ (List.reverse_perm _).symm with
    ⟨otherIndex, otherDependencies, otherPassed, verdict, _⟩
  exact ⟨nodeIndex, dependencies, passed, otherIndex, otherDependencies, otherPassed, verdict⟩

end KafkaCalculator

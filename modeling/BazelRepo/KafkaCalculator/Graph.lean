import BazelRepo.KafkaCalculator.Expression

namespace KafkaCalculator

open Library

structure Edge where
  source : NodeId
  target : NodeId
  role : String
  deriving DecidableEq

def Edge.fromOperand (target : NodeId) (operand : Operand) : Edge :=
  { source := operand.nodeId, target, role := operand.role }

structure GraphDefinition where
  nodes : List AnyNode
  citations : List Citation
  outputs : List NodeId

structure ValidatedGraph where
  nodes : List AnyNode
  citations : List Citation
  outputs : List NodeId
  nodeIndex : BTreeMap NodeId Nat
  citationIndex : BTreeMap CitationId Nat
  edges : List Edge
  dependencies : BTreeMap NodeId (List Edge)
  dependents : BTreeMap NodeId (List Edge)
  topologicalOrder : List NodeId
  resolvedTypes : BTreeMap NodeId ValueType

inductive GraphValidationError where
  | noOutputs
  | emptySettingKey (nodeId : NodeId)
  | emptyOperandRole (nodeId : NodeId) (operand : Nat)
  | duplicateNodeId (nodeId : NodeId) (firstIndex duplicateIndex : Nat)
  | duplicateCitationId (citationId : CitationId) (firstIndex duplicateIndex : Nat)
  | duplicateOutput (outputId : NodeId)
  | unknownOutput (outputId : NodeId)
  | invalidOutputNodeType (outputId : NodeId) (nodeType : String)
  | unknownCitation (nodeId : NodeId) (claim : Nat) (citationId : CitationId)
  | unknownOperand (nodeId : NodeId) (operand : Nat) (referencedNodeId : NodeId)
  | findingOperand (nodeId : NodeId) (operand : Nat) (findingId : NodeId)
  | cycle (path : List NodeId)
  | expressionType (nodeId : NodeId) (source : ExpressionError)
  | findingComparisonTypeMismatch (nodeId : NodeId) (left right : ValueType)
  | duplicateSettingKey (key : String) (firstNodeId duplicateNodeId : NodeId)
  | unreachableNode (nodeId : NodeId)

abbrev Validation := Except (Failure GraphValidationError)

def reject {α : Type} (error : GraphValidationError) : Validation α := .error (.invalid error)

def validateSettingKey : AnyNode → Validation Unit
  | .setting setting =>
    if (trim setting.nodeType.key).isEmpty then reject (.emptySettingKey setting.id) else .ok ()
  | _ => .ok ()

def validateLocalNode (node : AnyNode) : Validation Unit := do
  validateSettingKey node
  (operands node).zipIdx.forM fun operand =>
    if (trim operand.1.role).isEmpty then reject (.emptyOperandRole node.id operand.2) else .ok ()

def validateLocalValidity (definition : GraphDefinition) : Validation Unit :=
  if definition.outputs.isEmpty then reject .noOutputs else definition.nodes.forM validateLocalNode

section Index

variable {α κ : Type} [Ord κ] [Std.TransOrd κ]

def indexItem (key : α → κ) (duplicated : κ → Nat → Nat → GraphValidationError) (index : BTreeMap κ Nat)
    (item : α × Nat) : Validation (BTreeMap κ Nat) :=
  match index[key item.1]? with
  | some first => reject (duplicated (key item.1) first item.2)
  | none => .ok (index.insert (key item.1) item.2)

def buildIndex (key : α → κ) (duplicated : κ → Nat → Nat → GraphValidationError) (items : List α) :
    Validation (BTreeMap κ Nat) :=
  items.zipIdx.foldlM (indexItem key duplicated) ∅

end Index

def buildNodeIndex (nodes : List AnyNode) : Validation (BTreeMap NodeId Nat) :=
  buildIndex AnyNode.id .duplicateNodeId nodes

def buildCitationIndex (citations : List Citation) : Validation (BTreeMap CitationId Nat) :=
  buildIndex Citation.id .duplicateCitationId citations

def invalidOutputType : AnyNode → Option String
  | .input _ => some "input"
  | .constant _ => some "constant"
  | .derived _ | .setting _ | .finding _ => none

def validateOutput (nodes : List AnyNode) (nodeIndex : BTreeMap NodeId Nat) (outputIndex : BTreeMap NodeId Unit)
    (outputId : NodeId) : Validation (BTreeMap NodeId Unit) :=
  if outputIndex.contains outputId then reject (.duplicateOutput outputId)
  else
    match nodeIndex[outputId]? with
    | none => reject (.unknownOutput outputId)
    | some index => do
      let node ← okOr nodes[index]? .panic
      match invalidOutputType node with
      | some nodeType => reject (.invalidOutputNodeType outputId nodeType)
      | none => .ok (outputIndex.insert outputId ())

def validateClaims (citationIndex : BTreeMap CitationId Nat) (node : AnyNode) : Validation Unit :=
  node.metadata.citationClaims.zipIdx.forM fun claim =>
    if citationIndex.contains claim.1.citationId then .ok ()
    else reject (.unknownCitation node.id claim.2 claim.1.citationId)

def validateOutputsAndCitations (definition : GraphDefinition) (nodeIndex : BTreeMap NodeId Nat)
    (citationIndex : BTreeMap CitationId Nat) : Validation Unit := do
  let _ ← definition.outputs.foldlM (validateOutput definition.nodes nodeIndex) ∅
  definition.nodes.forM (validateClaims citationIndex)

def validateOperand (nodes : List AnyNode) (nodeIndex : BTreeMap NodeId Nat) (node : AnyNode)
    (operand : Operand × Nat) : Validation Unit :=
  match nodeIndex[operand.1.nodeId]? with
  | none => reject (.unknownOperand node.id operand.2 operand.1.nodeId)
  | some sourceIndex => do
    let source ← okOr nodes[sourceIndex]? .panic
    if source.isFinding then reject (.findingOperand node.id operand.2 operand.1.nodeId) else .ok ()

def validateOperandReferences (nodes : List AnyNode) (nodeIndex : BTreeMap NodeId Nat) : Validation Unit :=
  nodes.forM fun node => (operands node).zipIdx.forM (validateOperand nodes nodeIndex node)

def generateEdges (nodes : List AnyNode) : List Edge :=
  nodes.flatMap fun node => (operands node).map (Edge.fromOperand node.id)

def buildDependencyIndices (nodes : List AnyNode) (nodeIndex : BTreeMap NodeId Nat) : Validation (List (List Nat)) :=
  nodes.mapM fun node => (operands node).mapM fun operand => okOr nodeIndex[operand.nodeId]? .panic

inductive State where
  | unvisited
  | visiting
  | visited
  deriving DecidableEq

structure Traversal where
  states : List State
  stack : List Nat

def nodeIdAt (nodes : List AnyNode) (index : Nat) : Validation NodeId := do
  let node ← okOr nodes[index]? .panic
  .ok node.id

def reportCycle (nodes : List AnyNode) (stack : List Nat) (dependency : Nat) : Validation Traversal := do
  let start ← okOr (stack.idxOf? dependency) .panic
  let path ← (stack.drop start).mapM (nodeIdAt nodes)
  let last ← nodeIdAt nodes dependency
  reject (.cycle (path ++ [last]))

def visitDependency (nodes : List AnyNode) (visit : Nat → Traversal → Validation Traversal) (traversal : Traversal)
    (dependency : Nat) : Validation Traversal :=
  match traversal.states[dependency]? with
  | none => .error .panic
  | some .unvisited => visit dependency traversal
  | some .visiting => reportCycle nodes traversal.stack dependency
  | some .visited => .ok traversal

def Traversal.mark (traversal : Traversal) (index : Nat) (state : State) : Validation (List State) :=
  if index < traversal.states.length then .ok (traversal.states.set index state) else .error .panic

/-- The number bounds the depth of the recursion; every level marks a node that was not. -/
def visit (nodes : List AnyNode) (dependencies : List (List Nat)) : Nat → Nat → Traversal → Validation Traversal
  | 0, _, _ => .error .outOfFuel
  | depth + 1, index, traversal => do
    let states ← traversal.mark index .visiting
    let following ← okOr dependencies[index]? .panic
    let traversal ← following.foldlM (visitDependency nodes (visit nodes dependencies depth))
      ⟨states, traversal.stack ++ [index]⟩
    let states ← traversal.mark index .visited
    .ok ⟨states, traversal.stack.dropLast⟩

def visitUnvisited (nodes : List AnyNode) (dependencies : List (List Nat)) (traversal : Traversal) (index : Nat) :
    Validation Traversal :=
  match traversal.states[index]? with
  | none => .error .panic
  | some .unvisited => visit nodes dependencies nodes.length index traversal
  | some _ => .ok traversal

def validateAcyclic (nodes : List AnyNode) (dependencies : List (List Nat)) : Validation Unit := do
  let _ ← (List.range nodes.length).foldlM (visitUnvisited nodes dependencies)
    ⟨List.replicate nodes.length .unvisited, []⟩
  .ok ()

structure Degrees where
  inDegree : List Nat
  dependents : List (List Nat)

def countEdge (nodeIndex : BTreeMap NodeId Nat) (degrees : Degrees) (edge : Edge) : Validation Degrees := do
  let source ← okOr nodeIndex[edge.source]? .panic
  let target ← okOr nodeIndex[edge.target]? .panic
  let degree ← okOr degrees.inDegree[target]? .panic
  let targets ← okOr degrees.dependents[source]? .panic
  .ok
    { inDegree := degrees.inDegree.set target (degree + 1)
      dependents := degrees.dependents.set source (targets ++ [target]) }

structure Sorting where
  inDegree : List Nat
  ready : List Nat
  order : List Nat

def release (sorting : Sorting) (dependent : Nat) : Validation Sorting := do
  let degree ← okOr sorting.inDegree[dependent]? .panic
  match degree with
  | 0 => .error .panic
  | 1 => .ok { sorting with inDegree := sorting.inDegree.set dependent 0, ready := dependent :: sorting.ready }
  | degree + 1 => .ok { sorting with inDegree := sorting.inDegree.set dependent degree }

def drain (dependents : List (List Nat)) : Nat → Sorting → Validation (List Nat)
  | 0, _ => .error .outOfFuel
  | pops + 1, sorting =>
    match sorting.ready.min? with
    | none => .ok sorting.order
    | some index => do
      let targets ← okOr dependents[index]? .panic
      let sorting ← targets.foldlM release
        { sorting with ready := sorting.ready.erase index, order := sorting.order ++ [index] }
      drain dependents pops sorting

def topologicalSort (nodes : List AnyNode) (nodeIndex : BTreeMap NodeId Nat) (edges : List Edge) :
    Validation (List Nat) := do
  let degrees ← edges.foldlM (countEdge nodeIndex)
    ⟨List.replicate nodes.length 0, List.replicate nodes.length []⟩
  let ready := (degrees.inDegree.zipIdx.filter (·.1 = 0)).map Prod.snd
  let order ← drain degrees.dependents (nodes.length + 1) ⟨degrees.inDegree, ready, []⟩
  if order.length = nodes.length then .ok order else .error .panic

def resolveExpressionType (nodeId : NodeId) (expression : AnyExpression) (resolved : BTreeMap NodeId ValueType) :
    Validation ValueType := do
  let operandTypes ← expression.operands.mapM fun operand => okOr resolved[operand.nodeId]? .panic
  (expression.resultType operandTypes).mapError (Failure.map (.expressionType nodeId))

def resolveComparison (nodeId : NodeId) (comparison : Comparison) (resolved : BTreeMap NodeId ValueType) :
    Validation Unit := do
  let left ← okOr resolved[comparison.left.nodeId]? .panic
  let right ← okOr resolved[comparison.right.nodeId]? .panic
  if left ≠ right then reject (.findingComparisonTypeMismatch nodeId left right) else .ok ()

def resolveNode (resolved : BTreeMap NodeId ValueType) : AnyNode → Validation (BTreeMap NodeId ValueType)
  | .input input => .ok (resolved.insert input.id input.nodeType.valueType)
  | .constant constant => .ok (resolved.insert constant.id constant.nodeType.value.valueType)
  | .derived derived => do
    let resultType ← resolveExpressionType derived.id derived.nodeType.expression resolved
    .ok (resolved.insert derived.id resultType)
  | .setting setting => do
    let resultType ← resolveExpressionType setting.id setting.nodeType.expression resolved
    .ok (resolved.insert setting.id resultType)
  | .finding finding =>
    match finding.nodeType.condition with
    | .always => .ok resolved
    | .comparison comparison => do
      resolveComparison finding.id comparison resolved
      .ok resolved

def resolveAt (nodes : List AnyNode) (resolved : BTreeMap NodeId ValueType) (index : Nat) :
    Validation (BTreeMap NodeId ValueType) := do
  let node ← okOr nodes[index]? .panic
  resolveNode resolved node

def resolveTypes (nodes : List AnyNode) (topologicalOrder : List Nat) : Validation (BTreeMap NodeId ValueType) :=
  topologicalOrder.foldlM (resolveAt nodes) ∅

def recordSettingKey (settings : BTreeMap String NodeId) : AnyNode → Validation (BTreeMap String NodeId)
  | .setting setting =>
    match settings[setting.nodeType.key]? with
    | some firstNodeId => reject (.duplicateSettingKey setting.nodeType.key firstNodeId setting.id)
    | none => .ok (settings.insert setting.nodeType.key setting.id)
  | _ => .ok settings

def validateUniqueSettingKeys (nodes : List AnyNode) : Validation Unit := do
  let _ ← nodes.foldlM recordSettingKey ∅
  .ok ()

def reach (dependencies : List (List Nat)) : Nat → List Nat → List Bool → Validation (List Bool)
  | 0, _, _ => .error .outOfFuel
  | turns + 1, pending, reachable =>
    match pending.getLast? with
    | none => .ok reachable
    | some index => do
      let seen ← okOr reachable[index]? .panic
      if seen then reach dependencies turns pending.dropLast reachable
      else do
        let following ← okOr dependencies[index]? .panic
        reach dependencies turns (pending.dropLast ++ following) (reachable.set index true)

def validateReachability (nodes : List AnyNode) (outputs : List NodeId) (nodeIndex : BTreeMap NodeId Nat)
    (dependencies : List (List Nat)) : Validation Unit := do
  let pending ← outputs.mapM fun output => okOr nodeIndex[output]? .panic
  let turns := pending.length + (dependencies.map List.length).sum + 1
  let reachable ← reach dependencies turns pending (List.replicate nodes.length false)
  match (nodes.zip reachable).find? fun entry => !entry.2 with
  | some entry => reject (.unreachableNode entry.1.id)
  | none => .ok ()

def indexEdge (side : Edge → NodeId) (index : BTreeMap NodeId (List Edge)) (edge : Edge) :
    Validation (BTreeMap NodeId (List Edge)) := do
  let edges ← okOr index[side edge]? .panic
  .ok (index.insert (side edge) (edges ++ [edge]))

def ValidatedGraph.new (definition : GraphDefinition) (nodeIndex : BTreeMap NodeId Nat)
    (citationIndex : BTreeMap CitationId Nat) (edges : List Edge) (topologicalIndices : List Nat)
    (resolvedTypes : BTreeMap NodeId ValueType) : Validation ValidatedGraph := do
  let empty : BTreeMap NodeId (List Edge) :=
    definition.nodes.foldl (fun index node => index.insert node.id []) ∅
  let dependencies ← edges.foldlM (indexEdge Edge.target) empty
  let dependents ← edges.foldlM (indexEdge Edge.source) empty
  let topologicalOrder ← topologicalIndices.mapM (nodeIdAt definition.nodes)
  .ok
    { nodes := definition.nodes
      citations := definition.citations
      outputs := definition.outputs
      nodeIndex, citationIndex, edges, dependencies, dependents, topologicalOrder, resolvedTypes }

def GraphDefinition.validate (definition : GraphDefinition) : Validation ValidatedGraph := do
  validateLocalValidity definition
  let nodeIndex ← buildNodeIndex definition.nodes
  let citationIndex ← buildCitationIndex definition.citations
  validateOutputsAndCitations definition nodeIndex citationIndex
  validateOperandReferences definition.nodes nodeIndex
  let edges := generateEdges definition.nodes
  let dependencyIndices ← buildDependencyIndices definition.nodes nodeIndex
  validateAcyclic definition.nodes dependencyIndices
  let topologicalIndices ← topologicalSort definition.nodes nodeIndex edges
  let resolvedTypes ← resolveTypes definition.nodes topologicalIndices
  validateUniqueSettingKeys definition.nodes
  validateReachability definition.nodes definition.outputs nodeIndex dependencyIndices
  ValidatedGraph.new definition nodeIndex citationIndex edges topologicalIndices resolvedTypes

end KafkaCalculator

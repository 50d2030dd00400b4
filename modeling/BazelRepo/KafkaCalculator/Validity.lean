import BazelRepo.KafkaCalculator.Graph
import Mathlib.Logic.Relation
import Mathlib.Data.List.Chain
import Mathlib.Data.List.TakeWhile

namespace KafkaCalculator

open Library Relation

def Blank (text : String) : Prop := ∀ c ∈ text.toList, isWhiteSpace c = true

theorem trim_isEmpty {text : String} : (trim text).isEmpty = true ↔ Blank text := by
  unfold trim Blank
  rw [String.isEmpty_iff, ← String.toList_eq_nil_iff, String.toList_ofList]
  exact trimmed_eq_nil

def AnyNode.IsResult : AnyNode → Prop
  | .input _ | .constant _ => False
  | .derived _ | .setting _ | .finding _ => True

def AnyNode.settingKey : AnyNode → Option String
  | .setting node => some node.nodeType.key
  | _ => none

def AnyNode.expression : AnyNode → Option AnyExpression
  | .derived node => some node.nodeType.expression
  | .setting node => some node.nodeType.expression
  | _ => none

def AnyNode.comparison : AnyNode → Option Comparison
  | .finding node =>
    match node.nodeType.condition with
    | .always => none
    | .comparison operands => some operands
  | _ => none

def AnyNode.declaredType : AnyNode → Option ValueType
  | .input node => some node.nodeType.valueType
  | .constant node => some node.nodeType.value.valueType
  | _ => none

def GraphDefinition.DependsOn (definition : GraphDefinition) (dependent dependency : NodeId) : Prop :=
  ∃ node ∈ definition.nodes, node.id = dependent ∧ ∃ operand ∈ operands node, operand.nodeId = dependency

inductive HasType (definition : GraphDefinition) : NodeId → ValueType → Prop
  | declared (node : AnyNode) (valueType : ValueType) : node ∈ definition.nodes →
      node.declaredType = some valueType → HasType definition node.id valueType
  | computed (node : AnyNode) (expression : AnyExpression) (operandTypes : List ValueType) (valueType : ValueType) :
      node ∈ definition.nodes → node.expression = some expression →
      operandTypes.length = expression.operands.length →
      (∀ (index : Nat) (operand : Operand) (operandType : ValueType), expression.operands[index]? = some operand →
        operandTypes[index]? = some operandType → HasType definition operand.nodeId operandType) →
      expression.resultType operandTypes = .ok valueType → HasType definition node.id valueType

structure OperandsHaveTypes (definition : GraphDefinition) (expression : AnyExpression)
    (operandTypes : List ValueType) : Prop where
  length : operandTypes.length = expression.operands.length
  types : ∀ (index : Nat) operand operandType, expression.operands[index]? = some operand →
    operandTypes[index]? = some operandType → HasType definition operand.nodeId operandType

def ExpressionTypechecks (definition : GraphDefinition) (expression : AnyExpression) : Prop :=
  ∃ operandTypes valueType, OperandsHaveTypes definition expression operandTypes ∧
    expression.resultType operandTypes = .ok valueType

structure AnyNode.Typechecks (definition : GraphDefinition) (node : AnyNode) : Prop where
  expression : ∀ expression, node.expression = some expression → ExpressionTypechecks definition expression
  comparison : ∀ comparison, node.comparison = some comparison → ∃ valueType,
    HasType definition comparison.left.nodeId valueType ∧ HasType definition comparison.right.nodeId valueType

inductive Phase where
  | localValidity
  | nodeIds
  | citationIds
  | references
  | operands
  | cycles
  | types
  | settingKeys
  | reachability
  deriving DecidableEq

def Phase.position : Phase → Nat
  | .localValidity => 1
  | .nodeIds => 2
  | .citationIds => 3
  | .references => 4
  | .operands => 5
  | .cycles => 6
  | .types => 7
  | .settingKeys => 8
  | .reachability => 9

structure GraphDefinition.LocallyValid (definition : GraphDefinition) : Prop where
  outputs : definition.outputs ≠ []
  keys : ∀ node ∈ definition.nodes, ∀ key, node.settingKey = some key → ¬ Blank key
  roles : ∀ node ∈ definition.nodes, ∀ operand ∈ operands node, ¬ Blank operand.role

structure GraphDefinition.OutputsAndCitationsResolve (definition : GraphDefinition) : Prop where
  distinct : definition.outputs.Nodup
  known : ∀ output ∈ definition.outputs, ∃ node ∈ definition.nodes, node.id = output
  results : ∀ output ∈ definition.outputs, ∀ node ∈ definition.nodes, node.id = output → node.IsResult
  claims : ∀ node ∈ definition.nodes, ∀ claim ∈ node.metadata.citationClaims,
    ∃ citation ∈ definition.citations, citation.id = claim.citationId

structure GraphDefinition.OperandsResolve (definition : GraphDefinition) : Prop where
  known : ∀ node ∈ definition.nodes, ∀ operand ∈ operands node, ∃ source ∈ definition.nodes, source.id = operand.nodeId
  values : ∀ node ∈ definition.nodes, ∀ operand ∈ operands node, ∀ source ∈ definition.nodes,
    source.id = operand.nodeId → source.isFinding = false

def GraphDefinition.Reachable (definition : GraphDefinition) (id : NodeId) : Prop :=
  ∃ output ∈ definition.outputs, ReflTransGen definition.DependsOn output id

def Phase.Passes (definition : GraphDefinition) : Phase → Prop
  | .localValidity => definition.LocallyValid
  | .nodeIds => (definition.nodes.map AnyNode.id).Nodup
  | .citationIds => (definition.citations.map Citation.id).Nodup
  | .references => definition.OutputsAndCitationsResolve
  | .operands => definition.OperandsResolve
  | .cycles => ∀ id, ¬ TransGen definition.DependsOn id id
  | .types => ∀ node ∈ definition.nodes, node.Typechecks definition
  | .settingKeys => (definition.nodes.filterMap AnyNode.settingKey).Nodup
  | .reachability => ∀ node ∈ definition.nodes, definition.Reachable node.id

def GraphValidationError.phase : GraphValidationError → Phase
  | .noOutputs | .emptySettingKey _ | .emptyOperandRole _ _ => .localValidity
  | .duplicateNodeId _ _ _ => .nodeIds
  | .duplicateCitationId _ _ _ => .citationIds
  | .duplicateOutput _ | .unknownOutput _ | .invalidOutputNodeType _ _ | .unknownCitation _ _ _ => .references
  | .unknownOperand _ _ _ | .findingOperand _ _ _ => .operands
  | .cycle _ => .cycles
  | .expressionType _ _ | .findingComparisonTypeMismatch _ _ _ => .types
  | .duplicateSettingKey _ _ _ => .settingKeys
  | .unreachableNode _ => .reachability

def Repeats {α : Type} (items : List α) (item : α) (first duplicate : Nat) : Prop :=
  first < duplicate ∧ items[first]? = some item ∧ items[duplicate]? = some item

def GraphValidationError.Describes (definition : GraphDefinition) : GraphValidationError → Prop
  | .noOutputs => definition.outputs = []
  | .emptySettingKey nodeId => ∃ node ∈ definition.nodes, node.id = nodeId ∧
      ∃ key, node.settingKey = some key ∧ Blank key
  | .emptyOperandRole nodeId index => ∃ node ∈ definition.nodes, node.id = nodeId ∧
      ∃ operand, (operands node)[index]? = some operand ∧ Blank operand.role
  | .duplicateNodeId nodeId first duplicate => Repeats (definition.nodes.map AnyNode.id) nodeId first duplicate
  | .duplicateCitationId citationId first duplicate =>
      Repeats (definition.citations.map Citation.id) citationId first duplicate
  | .duplicateOutput outputId => ∃ first duplicate, Repeats definition.outputs outputId first duplicate
  | .unknownOutput outputId => outputId ∈ definition.outputs ∧ ∀ node ∈ definition.nodes, node.id ≠ outputId
  | .invalidOutputNodeType outputId nodeType => outputId ∈ definition.outputs ∧
      ∃ node ∈ definition.nodes, node.id = outputId ∧ invalidOutputType node = some nodeType
  | .unknownCitation nodeId index citationId => ∃ node ∈ definition.nodes, node.id = nodeId ∧
      (∃ claim, node.metadata.citationClaims[index]? = some claim ∧ claim.citationId = citationId) ∧
      ∀ citation ∈ definition.citations, citation.id ≠ citationId
  | .unknownOperand nodeId index referencedNodeId => ∃ node ∈ definition.nodes, node.id = nodeId ∧
      (∃ operand, (operands node)[index]? = some operand ∧ operand.nodeId = referencedNodeId) ∧
      ∀ source ∈ definition.nodes, source.id ≠ referencedNodeId
  | .findingOperand nodeId index findingId => ∃ node ∈ definition.nodes, node.id = nodeId ∧
      (∃ operand, (operands node)[index]? = some operand ∧ operand.nodeId = findingId) ∧
      ∃ source ∈ definition.nodes, source.id = findingId ∧ source.isFinding = true
  | .cycle path => ∃ first rest, path = first :: rest ++ [first] ∧ (first :: rest).Nodup ∧
      path.IsChain definition.DependsOn
  | .expressionType nodeId source => ∃ node ∈ definition.nodes, node.id = nodeId ∧
      ∃ expression operandTypes, node.expression = some expression ∧
        OperandsHaveTypes definition expression operandTypes ∧
        expression.resultType operandTypes = .error (.invalid source)
  | .findingComparisonTypeMismatch nodeId left right => ∃ node ∈ definition.nodes, node.id = nodeId ∧
      ∃ comparison, node.comparison = some comparison ∧ HasType definition comparison.left.nodeId left ∧
        HasType definition comparison.right.nodeId right ∧ left ≠ right
  | .duplicateSettingKey key firstId secondId => ∃ first duplicate : Nat, first < duplicate ∧
      (∃ node, definition.nodes[first]? = some node ∧ node.id = firstId ∧ node.settingKey = some key) ∧
      ∃ node, definition.nodes[duplicate]? = some node ∧ node.id = secondId ∧ node.settingKey = some key
  | .unreachableNode nodeId => (∃ node ∈ definition.nodes, node.id = nodeId) ∧ ¬ definition.Reachable nodeId

theorem Repeats.not_nodup {α : Type} {items : List α} {item : α} {first duplicate : Nat}
    (repeated : Repeats items item first duplicate) : ¬ items.Nodup := by
  rcases repeated with ⟨less, one, other⟩
  intro distinct
  have bound := (List.getElem?_eq_some_iff.mp one).1
  have same := (List.getElem?_inj bound distinct).mp (one.trans other.symm)
  omega

theorem node_unique {definition : GraphDefinition} (distinct : (definition.nodes.map AnyNode.id).Nodup)
    {one other : AnyNode} (first : one ∈ definition.nodes) (second : other ∈ definition.nodes)
    (same : one.id = other.id) : one = other :=
  List.inj_on_of_nodup_map distinct first second same

theorem declaredType_expression {node : AnyNode} {valueType : ValueType} {expression : AnyExpression}
    (declared : node.declaredType = some valueType) (computed : node.expression = some expression) : False := by
  cases node <;> cases declared <;> cases computed

/-- Where ids are unique a value has one type; the induction is on how the first one was found. -/
theorem HasType.unique {definition : GraphDefinition} (distinct : (definition.nodes.map AnyNode.id).Nodup)
    {id : NodeId} {left right : ValueType} (one : HasType definition id left) (other : HasType definition id right) :
    left = right := by
  induction one generalizing right with
  | declared node valueType member declared =>
    generalize target : node.id = id at other
    cases other with
    | declared otherNode otherType otherMember otherDeclared =>
      cases node_unique distinct member otherMember target
      exact Option.some.inj (declared.symm.trans otherDeclared)
    | computed otherNode expression operandTypes otherType otherMember computed =>
      cases node_unique distinct member otherMember target
      exact (declaredType_expression declared computed).elim
  | computed node expression operandTypes valueType member computed length types result ih =>
    generalize target : node.id = id at other
    cases other with
    | declared otherNode otherType otherMember otherDeclared =>
      cases node_unique distinct member otherMember target
      exact (declaredType_expression otherDeclared computed).elim
    | computed otherNode otherExpression otherTypes otherType otherMember otherComputed otherLength others otherResult =>
      cases node_unique distinct member otherMember target
      cases Option.some.inj (computed.symm.trans otherComputed)
      have same : operandTypes = otherTypes := by
        apply List.ext_getElem (length.trans otherLength.symm)
        intro index bound otherBound
        have operand := List.getElem?_eq_getElem (length ▸ bound : index < expression.operands.length)
        exact ih index _ _ operand (List.getElem?_eq_getElem bound)
          (others index _ _ operand (List.getElem?_eq_getElem otherBound))
      rw [same, otherResult] at result
      cases result
      rfl

theorem OperandsHaveTypes.unique {definition : GraphDefinition}
    (distinct : (definition.nodes.map AnyNode.id).Nodup) {expression : AnyExpression} {left right : List ValueType}
    (one : OperandsHaveTypes definition expression left) (other : OperandsHaveTypes definition expression right) :
    left = right := by
  apply List.ext_getElem (one.length.trans other.length.symm)
  intro index bound otherBound
  have operand := List.getElem?_eq_getElem (one.length ▸ bound : index < expression.operands.length)
  exact (one.types index _ _ operand (List.getElem?_eq_getElem bound)).unique distinct
    (other.types index _ _ operand (List.getElem?_eq_getElem otherBound))

theorem transGen_of_isChain {α : Type} {R : α → α → Prop} {last : α} :
    ∀ (rest : List α) {first : α}, (first :: rest ++ [last]).IsChain R → TransGen R first last := by
  intro rest
  induction rest with
  | nil =>
    intro first chain
    exact .single (List.isChain_pair.mp chain)
  | cons next rest ih =>
    intro first chain
    rw [List.cons_append, List.cons_append, List.isChain_cons_cons] at chain
    exact .head chain.1 (ih chain.2)

theorem GraphValidationError.Describes.fails {definition : GraphDefinition} {error : GraphValidationError}
    (distinct : Phase.nodeIds.position < error.phase.position → (definition.nodes.map AnyNode.id).Nodup)
    (describes : error.Describes definition) : ¬ error.phase.Passes definition := by
  intro passes
  cases error with
  | noOutputs => exact passes.outputs describes
  | emptySettingKey nodeId =>
    rcases describes with ⟨node, member, _, key, found, blank⟩
    exact passes.keys node member key found blank
  | emptyOperandRole nodeId index =>
    rcases describes with ⟨node, member, _, operand, found, blank⟩
    exact passes.roles node member operand (List.mem_of_getElem? found) blank
  | duplicateNodeId nodeId first duplicate => exact describes.not_nodup passes
  | duplicateCitationId citationId first duplicate => exact describes.not_nodup passes
  | duplicateOutput outputId =>
    rcases describes with ⟨first, duplicate, repeated⟩
    exact repeated.not_nodup passes.distinct
  | unknownOutput outputId =>
    rcases passes.known outputId describes.1 with ⟨node, member, same⟩
    exact describes.2 node member same
  | invalidOutputNodeType outputId nodeType =>
    rcases describes with ⟨output, node, member, same, invalid⟩
    have result := passes.results outputId output node member same
    cases node <;> cases invalid <;> exact result
  | unknownCitation nodeId index citationId =>
    rcases describes with ⟨node, member, _, ⟨claim, found, rfl⟩, unknown⟩
    rcases passes.claims node member claim (List.mem_of_getElem? found) with ⟨citation, known, same⟩
    exact unknown citation known same
  | unknownOperand nodeId index referencedNodeId =>
    rcases describes with ⟨node, member, _, ⟨operand, found, rfl⟩, unknown⟩
    rcases passes.known node member operand (List.mem_of_getElem? found) with ⟨source, known, same⟩
    exact unknown source known same
  | findingOperand nodeId index findingId =>
    rcases describes with ⟨node, member, _, ⟨operand, found, rfl⟩, source, known, same, isFinding⟩
    have value := passes.values node member operand (List.mem_of_getElem? found) source known same
    rw [isFinding] at value
    cases value
  | cycle path =>
    rcases describes with ⟨first, rest, rfl, _, chain⟩
    exact passes first (transGen_of_isChain rest chain)
  | expressionType nodeId source =>
    rcases describes with ⟨node, member, _, expression, operandTypes, found, types, failed⟩
    rcases (passes node member).expression expression found with ⟨otherTypes, valueType, others, result⟩
    have earlier : Phase.nodeIds.position < Phase.types.position := by decide
    rw [types.unique (distinct earlier) others, result] at failed
    cases failed
  | findingComparisonTypeMismatch nodeId left right =>
    rcases describes with ⟨node, member, _, comparison, found, one, other, different⟩
    rcases (passes node member).comparison comparison found with ⟨valueType, first, second⟩
    have earlier : Phase.nodeIds.position < Phase.types.position := by decide
    have unique := distinct earlier
    exact different ((one.unique unique first).trans (second.unique unique other))
  | duplicateSettingKey key firstId secondId =>
    rcases describes with ⟨first, duplicate, less, ⟨one, found, _, firstKey⟩, other, otherFound, _, otherKey⟩
    have apart := List.pairwise_filterMap.mp passes
    rcases List.getElem?_eq_some_iff.mp found with ⟨bound, rfl⟩
    rcases List.getElem?_eq_some_iff.mp otherFound with ⟨otherBound, rfl⟩
    exact List.pairwise_iff_getElem.mp apart first duplicate bound otherBound less key firstKey key otherKey rfl
  | unreachableNode nodeId =>
    rcases describes with ⟨⟨node, member, rfl⟩, unreachable⟩
    exact unreachable (passes node member)

end KafkaCalculator

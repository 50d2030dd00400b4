import BazelRepo.KafkaCalculator.Identifier

namespace KafkaCalculator

open Library

inductive DataUnit where
  | bytes
  | kilobytes
  | kibibytes
  | megabytes
  | mebibytes
  deriving DecidableEq

inductive ValueType where
  | scalar
  | ratio
  | messageCount
  | dataSize
  deriving DecidableEq

structure Operand where
  nodeId : NodeId
  role : String
  deriving DecidableEq

inductive ExpressionError where
  | resolvedTypeCountMismatch (operation : String) (expected actual : Nat)
  | incompatibleOperandType (operation : String) (operand : Nat) (expected actual : ValueType)
  | unsupportedOperandTypes (operation : String) (operandTypes : List ValueType)
  deriving DecidableEq

/-- How many operands a descriptor's constructor and its `and` build. -/
inductive Arity where
  | exactly (count : Nat)
  | atLeast (count : Nat)

def Arity.Admits : Arity → Nat → Prop
  | .exactly count, operands => operands = count
  | .atLeast count, operands => count ≤ operands

class Descriptor (κ : Type) where
  arity : Arity

inductive Reference where
  | descriptor
  deriving DecidableEq

inductive Add where
  | descriptor
  deriving DecidableEq

inductive Multiply where
  | descriptor
  deriving DecidableEq

inductive Ceiling where
  | descriptor
  deriving DecidableEq

inductive CeilingDivide where
  | descriptor
  deriving DecidableEq

inductive Minimum where
  | descriptor
  deriving DecidableEq

inductive Maximum where
  | descriptor
  deriving DecidableEq

structure ConvertDataSize where
  targetUnit : DataUnit
  deriving DecidableEq

instance : Descriptor Reference := ⟨.exactly 1⟩

instance : Descriptor Add := ⟨.atLeast 2⟩

instance : Descriptor Multiply := ⟨.atLeast 2⟩

instance : Descriptor Ceiling := ⟨.exactly 1⟩

instance : Descriptor CeilingDivide := ⟨.exactly 2⟩

instance : Descriptor Minimum := ⟨.atLeast 2⟩

instance : Descriptor Maximum := ⟨.atLeast 2⟩

instance : Descriptor ConvertDataSize := ⟨.exactly 1⟩

structure Expression (κ : Type) [Descriptor κ] where
  operands : List Operand
  operation : κ
  arity : (Descriptor.arity κ).Admits operands.length

inductive AnyExpression where
  | reference (expression : Expression Reference)
  | add (expression : Expression Add)
  | multiply (expression : Expression Multiply)
  | ceiling (expression : Expression Ceiling)
  | ceilingDivide (expression : Expression CeilingDivide)
  | minimum (expression : Expression Minimum)
  | maximum (expression : Expression Maximum)
  | convertDataSize (expression : Expression ConvertDataSize)

def AnyExpression.operands : AnyExpression → List Operand
  | .reference expression => expression.operands
  | .add expression => expression.operands
  | .multiply expression => expression.operands
  | .ceiling expression => expression.operands
  | .ceilingDivide expression => expression.operands
  | .minimum expression => expression.operands
  | .maximum expression => expression.operands
  | .convertDataSize expression => expression.operands

abbrev Typing := Except (Failure ExpressionError)

def ensureResolvedTypeCount (operation : String) (expected actual : Nat) : Typing Unit :=
  if actual = expected then .ok ()
  else .error (.invalid (.resolvedTypeCountMismatch operation expected actual))

def homogeneousResultType (operation : String) (operandCount : Nat) (operandTypes : List ValueType) :
    Typing ValueType := do
  ensureResolvedTypeCount operation operandCount operandTypes.length
  let expected ← okOr operandTypes[0]? .panic
  (operandTypes.zipIdx.drop 1).forM fun operand =>
    if operand.1 ≠ expected then
      .error (.invalid (.incompatibleOperandType operation operand.2 expected operand.1))
    else .ok ()
  .ok expected

namespace Expression

def multiplyResultType (expression : Expression Multiply) (factorTypes : List ValueType) : Typing ValueType := do
  ensureResolvedTypeCount "multiply" expression.operands.length factorTypes.length
  if factorTypes.all (· = .scalar) then .ok .scalar
  else if factorTypes.all (· = .ratio) then .ok .ratio
  else if (factorTypes.filter (· = .dataSize)).length = 1 then .ok .dataSize
  else .error (.invalid (.unsupportedOperandTypes "multiply" factorTypes))

def ceilingResultType (valueType : ValueType) : Typing ValueType :=
  match valueType with
  | .scalar | .ratio | .dataSize => .ok valueType
  | .messageCount => .error (.invalid (.unsupportedOperandTypes "ceiling" [valueType]))

def ceilingDivideResultType (dividendType divisorType : ValueType) : Typing ValueType :=
  if dividendType = divisorType then .ok .scalar
  else .error (.invalid (.incompatibleOperandType "ceiling divide" 1 dividendType divisorType))

def convertDataSizeResultType (sourceType : ValueType) : Typing ValueType :=
  match sourceType with
  | .dataSize => .ok .dataSize
  | _ => .error (.invalid (.unsupportedOperandTypes "convert data size" [sourceType]))

end Expression

def AnyExpression.resultType (expression : AnyExpression) (operandTypes : List ValueType) : Typing ValueType :=
  match expression with
  | .reference _ => do
    ensureResolvedTypeCount "reference" 1 operandTypes.length
    okOr operandTypes[0]? .panic
  | .add expression => homogeneousResultType "add" expression.operands.length operandTypes
  | .multiply expression => expression.multiplyResultType operandTypes
  | .ceiling _ => do
    ensureResolvedTypeCount "ceiling" 1 operandTypes.length
    let valueType ← okOr operandTypes[0]? .panic
    Expression.ceilingResultType valueType
  | .ceilingDivide _ => do
    ensureResolvedTypeCount "ceiling divide" 2 operandTypes.length
    let dividendType ← okOr operandTypes[0]? .panic
    let divisorType ← okOr operandTypes[1]? .panic
    Expression.ceilingDivideResultType dividendType divisorType
  | .minimum expression => homogeneousResultType "minimum" expression.operands.length operandTypes
  | .maximum expression => homogeneousResultType "maximum" expression.operands.length operandTypes
  | .convertDataSize _ => do
    ensureResolvedTypeCount "convert data size" 1 operandTypes.length
    let sourceType ← okOr operandTypes[0]? .panic
    Expression.convertDataSizeResultType sourceType

def Typing.Total (result : Typing ValueType) : Prop :=
  ∀ failure, result = .error failure → ∃ error, failure = .invalid error

theorem total_ok (valueType : ValueType) : Typing.Total (.ok valueType) := by
  intro failure failed
  cases failed

theorem total_error (error : ExpressionError) : Typing.Total (.error (.invalid error)) := by
  intro failure failed
  cases failed
  exact ⟨error, rfl⟩

theorem total_counted {operation : String} {expected actual : Nat} {rest : Typing ValueType}
    (total : actual = expected → rest.Total) :
    Typing.Total (ensureResolvedTypeCount operation expected actual >>= fun _ => rest) := by
  unfold ensureResolvedTypeCount
  split
  · rename_i counted
    exact total counted
  · exact total_error _

theorem total_indexed {operandTypes : List ValueType} {index : Nat} {rest : ValueType → Typing ValueType}
    (bound : index < operandTypes.length) (total : ∀ valueType, (rest valueType).Total) :
    Typing.Total (okOr operandTypes[index]? .panic >>= rest) := by
  rw [List.getElem?_eq_getElem bound]
  exact total _

theorem total_homogeneousResultType {operation : String} {operandCount : Nat} {operandTypes : List ValueType}
    (several : 2 ≤ operandCount) : (homogeneousResultType operation operandCount operandTypes).Total := by
  apply total_counted
  intro counted
  apply total_indexed (by omega)
  intro expected failure failed
  rcases bind_eq_error.mp failed with failed | ⟨_, _, failed⟩
  · rcases exists_of_forM_error failed with ⟨operand, _, failed⟩
    split at failed
    · cases failed
      exact ⟨_, rfl⟩
    · cases failed
  · cases failed

theorem AnyExpression.total_resultType (expression : AnyExpression) (operandTypes : List ValueType) :
    (expression.resultType operandTypes).Total := by
  cases expression with
  | reference expression =>
    apply total_counted
    intro counted
    rw [List.getElem?_eq_getElem (by omega)]
    exact total_ok _
  | add expression => exact total_homogeneousResultType expression.arity
  | multiply expression =>
    apply total_counted
    intro _
    repeat' split
    · exact total_ok _
    · exact total_ok _
    · exact total_ok _
    · exact total_error _
  | ceiling expression =>
    apply total_counted
    intro counted
    apply total_indexed (by omega)
    intro valueType
    cases valueType with
    | messageCount => exact total_error _
    | scalar | ratio | dataSize => exact total_ok _
  | ceilingDivide expression =>
    apply total_counted
    intro counted
    apply total_indexed (by omega)
    intro dividendType
    apply total_indexed (by omega)
    intro divisorType
    unfold Expression.ceilingDivideResultType
    split
    · exact total_ok _
    · exact total_error _
  | minimum expression => exact total_homogeneousResultType expression.arity
  | maximum expression => exact total_homogeneousResultType expression.arity
  | convertDataSize expression =>
    apply total_counted
    intro counted
    apply total_indexed (by omega)
    intro sourceType
    cases sourceType with
    | dataSize => exact total_ok _
    | scalar | ratio | messageCount => exact total_error _

structure Citation where
  id : CitationId
  title : String
  url : String
  summary : String

structure CitationClaim where
  citationId : CitationId
  claim : String

structure NodeMetadata where
  label : String
  description : String
  citationClaims : List CitationClaim

structure ExactDecimal where
  coefficient : BitVec 96
  scale : Fin 29

structure DataSize where
  amount : ExactDecimal
  unit : DataUnit

inductive Value where
  | scalar (value : ExactDecimal)
  | ratio (value : ExactDecimal)
  | messageCount (count : BitVec 128)
  | dataSize (size : DataSize)

def Value.valueType : Value → ValueType
  | .scalar _ => .scalar
  | .ratio _ => .ratio
  | .messageCount _ => .messageCount
  | .dataSize _ => .dataSize

inductive InputConstraint where
  | minimumInclusive (value : Value)
  | minimumExclusive (value : Value)
  | maximumInclusive (value : Value)
  | maximumExclusive (value : Value)

def InputConstraint.value : InputConstraint → Value
  | .minimumInclusive value | .minimumExclusive value | .maximumInclusive value | .maximumExclusive value => value

structure Input where
  valueType : ValueType
  default : Option Value
  hardConstraints : List InputConstraint
  defaultType : ∀ value, default = some value → value.valueType = valueType
  constraintTypes : ∀ constraint ∈ hardConstraints, constraint.value.valueType = valueType

theorem no_default {valueType : ValueType} : ∀ value : Value, none = some value → value.valueType = valueType := by simp

theorem no_constraints {valueType : ValueType} :
    ∀ constraint ∈ ([] : List InputConstraint), constraint.value.valueType = valueType := by simp

theorem two_terms : 2 ≤ 2 := Nat.le_refl 2

inductive ConstantOrigin where
  | unitDefinition
  | clientDefault
  | clientConstraint
  | calculatorPolicy

structure Constant where
  value : Value
  origin : ConstantOrigin
  rationale : String

structure Derived where
  expression : AnyExpression

inductive SettingScope where
  | producer
  | consumer
  | common

inductive SettingUnit where
  | bytes
  | kBytes
  | messages

structure Setting where
  key : String
  scope : SettingScope
  unit : SettingUnit
  expression : AnyExpression

inductive ComparisonOperator where
  | equal
  | notEqual
  | lessThan
  | lessThanOrEqual
  | greaterThan
  | greaterThanOrEqual

structure Comparison where
  left : Operand
  operator : ComparisonOperator
  right : Operand

inductive FindingCondition where
  | always
  | comparison (comparison : Comparison)

inductive FindingSeverity where
  | informational
  | warning
  | error

structure Finding where
  severity : FindingSeverity
  condition : FindingCondition

class NodeTypeMetadata (τ : Type) where
  idPrefix : String
  segment : IsSegment idPrefix.toList

theorem isSegment_of_letters {first : Char} {rest : List Char} (start : isAsciiLowercase first = true)
    (letters : rest.all isAsciiLowercase = true) : IsSegment (first :: rest) := by
  refine ⟨first, rest, rfl, start, ?_⟩
  intro c member
  have letter := List.all_eq_true.mp letters c member
  simp [isSegmentCharacter, letter]

instance : NodeTypeMetadata Input := ⟨"input", isSegment_of_letters (by decide) (by decide)⟩

instance : NodeTypeMetadata Constant := ⟨"constant", isSegment_of_letters (by decide) (by decide)⟩

instance : NodeTypeMetadata Derived := ⟨"derived", isSegment_of_letters (by decide) (by decide)⟩

instance : NodeTypeMetadata Setting := ⟨"setting", isSegment_of_letters (by decide) (by decide)⟩

instance : NodeTypeMetadata Finding := ⟨"finding", isSegment_of_letters (by decide) (by decide)⟩

def NodeId.fromParts (τ : Type) [NodeTypeMetadata τ] (suffix : NodeIdSuffix) : NodeId :=
  ⟨NodeTypeMetadata.idPrefix τ ++ "." ++ suffix.value,
    validateIdentifier_prefixed NodeTypeMetadata.segment suffix.valid⟩

structure Node (τ : Type) [NodeTypeMetadata τ] where
  id : NodeId
  metadata : NodeMetadata
  nodeType : τ
  fromParts : ∃ suffix, id = NodeId.fromParts τ suffix

def Node.new {τ : Type} [NodeTypeMetadata τ] (suffix : NodeIdSuffix) (metadata : NodeMetadata) (nodeType : τ) : Node τ :=
  ⟨NodeId.fromParts τ suffix, metadata, nodeType, suffix, rfl⟩

inductive AnyNode where
  | input (node : Node Input)
  | constant (node : Node Constant)
  | derived (node : Node Derived)
  | setting (node : Node Setting)
  | finding (node : Node Finding)

def AnyNode.id : AnyNode → NodeId
  | .input node => node.id
  | .constant node => node.id
  | .derived node => node.id
  | .setting node => node.id
  | .finding node => node.id

def AnyNode.metadata : AnyNode → NodeMetadata
  | .input node => node.metadata
  | .constant node => node.metadata
  | .derived node => node.metadata
  | .setting node => node.metadata
  | .finding node => node.metadata

def AnyNode.isFinding : AnyNode → Bool
  | .finding _ => true
  | _ => false

def operands : AnyNode → List Operand
  | .input _ | .constant _ => []
  | .derived derived => derived.nodeType.expression.operands
  | .setting setting => setting.nodeType.expression.operands
  | .finding finding =>
    match finding.nodeType.condition with
    | .always => []
    | .comparison comparison => [comparison.left, comparison.right]

end KafkaCalculator

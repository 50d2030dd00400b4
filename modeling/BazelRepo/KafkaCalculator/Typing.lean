import BazelRepo.KafkaCalculator.Order

namespace KafkaCalculator

open Library

/-- The types found so far are right, and none of these nodes is without one. -/
structure TypesFound (definition : GraphDefinition) (done : List Nat) (resolved : BTreeMap NodeId ValueType) : Prop where
  sound : ∀ (id : NodeId) (valueType : ValueType), resolved[id]? = some valueType → HasType definition id valueType
  complete : ∀ index ∈ done, ∀ node, definition.nodes[index]? = some node → node.isFinding = false →
    ∃ valueType, resolved[node.id]? = some valueType
  typechecks : ∀ index ∈ done, ∀ node, definition.nodes[index]? = some node → node.Typechecks definition

section

variable {definition : GraphDefinition} {done : List Nat} {resolved : BTreeMap NodeId ValueType}

theorem TypesFound.keep (found : TypesFound definition done resolved) {index : Nat} {node : AnyNode}
    (held : definition.nodes[index]? = some node) (isFinding : node.isFinding = true)
    (checked : node.Typechecks definition) : TypesFound definition (done ++ [index]) resolved := by
  refine ⟨found.sound, ?_, ?_⟩
  · intro other member otherNode otherHeld value
    rcases List.mem_append.mp member with earlier | last
    · exact found.complete other earlier otherNode otherHeld value
    · rw [List.mem_singleton.mp last, held] at otherHeld
      cases otherHeld
      rw [isFinding] at value
      cases value
  · intro other member otherNode otherHeld
    rcases List.mem_append.mp member with earlier | last
    · exact found.typechecks other earlier otherNode otherHeld
    · rw [List.mem_singleton.mp last, held] at otherHeld
      cases otherHeld
      exact checked

theorem TypesFound.insert (found : TypesFound definition done resolved) {index : Nat} {node : AnyNode}
    {valueType : ValueType} (held : definition.nodes[index]? = some node) (typed : HasType definition node.id valueType)
    (checked : node.Typechecks definition) :
    TypesFound definition (done ++ [index]) (resolved.insert node.id valueType) := by
  refine ⟨?_, ?_, ?_⟩
  · intro id other present
    rw [BTreeMap.getElem?_insert_eq] at present
    split at present
    · rename_i same
      cases present
      rw [same]
      exact typed
    · exact found.sound id other present
  · intro other member otherNode otherHeld value
    rw [BTreeMap.getElem?_insert_eq]
    split
    · exact ⟨_, rfl⟩
    · rename_i different
      rcases List.mem_append.mp member with earlier | last
      · exact found.complete other earlier otherNode otherHeld value
      · rw [List.mem_singleton.mp last, held] at otherHeld
        cases otherHeld
        exact absurd rfl different
  · intro other member otherNode otherHeld
    rcases List.mem_append.mp member with earlier | last
    · exact found.typechecks other earlier otherNode otherHeld
    · rw [List.mem_singleton.mp last, held] at otherHeld
      cases otherHeld
      exact checked

def OperandsFound (expression : AnyExpression) (resolved : BTreeMap NodeId ValueType) : Prop :=
  ∀ operand ∈ expression.operands, ∃ valueType, resolved[operand.nodeId]? = some valueType

theorem resolveExpressionType_spec (found : TypesFound definition done resolved) {expression : AnyExpression}
    (operands : OperandsFound expression resolved) (nodeId : NodeId) :
    ∃ operandTypes, OperandsHaveTypes definition expression operandTypes ∧
      resolveExpressionType nodeId expression resolved =
        (expression.resultType operandTypes).mapError (Failure.map (.expressionType nodeId)) := by
  let typeOf : Operand → ValueType := fun operand => (resolved[operand.nodeId]?).getD .scalar
  have each : ∀ operand ∈ expression.operands, resolved[operand.nodeId]? = some (typeOf operand) := by
    intro operand member
    rcases operands operand member with ⟨valueType, present⟩
    show _ = some ((resolved[operand.nodeId]?).getD .scalar)
    rw [present]
    rfl
  refine ⟨expression.operands.map typeOf, ⟨by simp, ?_⟩, ?_⟩
  · intro index operand operandType held typed
    rw [List.getElem?_map, held, Option.map_some, Option.some.injEq] at typed
    rw [← typed]
    exact found.sound _ _ (each operand (List.mem_of_getElem? held))
  · unfold resolveExpressionType
    rw [mapM_eq_ok_map (g := typeOf), ok_bind]
    intro operand member
    rw [each operand member]
    rfl

theorem resolveComputed_spec (found : TypesFound definition done resolved) {index : Nat} {node : AnyNode}
    {expression : AnyExpression} (held : definition.nodes[index]? = some node)
    (computed : node.expression = some expression) (operands : OperandsFound expression resolved) :
    (∀ next, (do
        let resultType ← resolveExpressionType node.id expression resolved
        .ok (resolved.insert node.id resultType)) = Except.ok next → TypesFound definition (done ++ [index]) next) ∧
      ∀ failure, (do
        let resultType ← resolveExpressionType node.id expression resolved
        .ok (resolved.insert node.id resultType)) = Except.error failure →
          ∃ error, failure = .invalid error ∧ error.phase = .types ∧ error.Describes definition := by
  rcases resolveExpressionType_spec found operands node.id with ⟨operandTypes, types, result⟩
  have member := List.mem_of_getElem? held
  rw [result]
  cases outcome : expression.resultType operandTypes with
  | ok valueType =>
    constructor
    · intro next same
      cases same
      apply found.insert held
      · exact .computed node expression operandTypes valueType member computed types.length types.types outcome
      · constructor
        · intro other same
          rw [computed] at same
          cases same
          exact ⟨operandTypes, valueType, types, outcome⟩
        · intro comparison compared
          cases node <;> cases computed <;> cases compared
    · intro _ impossible
      cases impossible
  | error failure =>
    rcases expression.total_resultType operandTypes failure outcome with ⟨error, rfl⟩
    constructor
    · intro _ impossible
      cases impossible
    · intro _ same
      cases same
      exact ⟨_, rfl, rfl, node, member, rfl, expression, operandTypes, computed, types, outcome⟩

theorem resolveComparison_spec (found : TypesFound definition done resolved) {node : AnyNode}
    {comparison : Comparison} (member : node ∈ definition.nodes) (compared : node.comparison = some comparison)
    (left : ∃ valueType, resolved[comparison.left.nodeId]? = some valueType)
    (right : ∃ valueType, resolved[comparison.right.nodeId]? = some valueType) :
    (resolveComparison node.id comparison resolved = .ok () → node.Typechecks definition) ∧
      ∀ failure, resolveComparison node.id comparison resolved = .error failure →
        ∃ error, failure = .invalid error ∧ error.phase = .types ∧ error.Describes definition := by
  rcases left with ⟨leftType, left⟩
  rcases right with ⟨rightType, right⟩
  have one := found.sound _ _ left
  have other := found.sound _ _ right
  unfold resolveComparison
  rw [left, right, okOr_some, ok_bind, okOr_some, ok_bind]
  split
  · rename_i different
    exact ⟨fun passed => absurd passed reject_ne_ok, reject_fails rfl ⟨node, member, rfl, comparison, compared, one, other, different⟩⟩
  · rename_i same
    rw [not_not] at same
    subst same
    constructor
    · intro _
      constructor
      · intro expression computed
        cases node <;> cases computed <;> cases compared
      · intro again found
        rw [compared] at found
        cases found
        exact ⟨leftType, one, other⟩
    · intro _ impossible
      cases impossible

theorem operands_of_comparison {node : AnyNode} {comparison : Comparison} (compared : node.comparison = some comparison) :
    operands node = [comparison.left, comparison.right] := by
  cases node with
  | finding node =>
    unfold AnyNode.comparison at compared
    unfold operands
    dsimp only at compared ⊢
    cases condition : node.nodeType.condition with
    | always =>
      rw [condition] at compared
      cases compared
    | comparison other =>
      rw [condition] at compared
      cases compared
      rfl
  | input node | constant node | derived node | setting node => cases compared

theorem resolveNode_spec (found : TypesFound definition done resolved) {index : Nat} {node : AnyNode}
    (held : definition.nodes[index]? = some node)
    (typed : ∀ operand ∈ operands node, ∃ valueType, resolved[operand.nodeId]? = some valueType) :
    (∀ next, resolveNode resolved node = .ok next → TypesFound definition (done ++ [index]) next) ∧
      ∀ failure, resolveNode resolved node = .error failure →
        ∃ error, failure = .invalid error ∧ error.phase = .types ∧ error.Describes definition := by
  have member := List.mem_of_getElem? held
  have declares : ∀ valueType, node.declaredType = some valueType →
      TypesFound definition (done ++ [index]) (resolved.insert node.id valueType) := by
    intro valueType declared
    apply found.insert held (.declared node valueType member declared)
    constructor
    · intro expression computed
      exact (declaredType_expression declared computed).elim
    · intro comparison compared
      cases node <;> cases declared <;> cases compared
  cases node with
  | input node | constant node =>
    constructor
    · intro next same
      cases same
      exact declares _ rfl
    · intro _ impossible
      cases impossible
  | derived node => exact resolveComputed_spec found held rfl typed
  | setting node => exact resolveComputed_spec found held rfl typed
  | finding node =>
    unfold resolveNode
    dsimp only
    cases condition : node.nodeType.condition with
    | always =>
      constructor
      · intro next same
        cases same
        apply found.keep held rfl
        constructor
        · intro expression computed
          cases computed
        · intro comparison compared
          unfold AnyNode.comparison at compared
          dsimp only at compared
          rw [condition] at compared
          cases compared
      · intro _ impossible
        cases impossible
    | comparison comparison =>
      have compared : (AnyNode.finding node).comparison = some comparison := by
        unfold AnyNode.comparison
        dsimp only
        rw [condition]
      have both := operands_of_comparison compared
      rw [both] at typed
      have spec := resolveComparison_spec found member compared (typed _ (by simp)) (typed _ (by simp))
      constructor
      · intro next run
        rcases bind_eq_ok.mp run with ⟨⟨⟩, checked, run⟩
        cases run
        exact found.keep held rfl (spec.1 checked)
      · intro failure run
        rcases bind_eq_error.mp run with failed | ⟨_, _, impossible⟩
        · exact spec.2 failure failed
        · cases impossible

theorem checks_types {nodeIndex : BTreeMap NodeId Nat} (resolves : Resolved definition nodeIndex) {order : List Nat}
    (perm : order.Perm (List.range definition.nodes.length))
    (sorted : InOrder (arrowsOf nodeIndex (generateEdges definition.nodes)) order) :
    Phase.types.Checks definition (resolveTypes definition.nodes order) (TypesFound definition order) := by
  have each : ∀ done index rest resolved, order = done ++ index :: rest → TypesFound definition done resolved →
      (∀ next, resolveAt definition.nodes resolved index = .ok next → TypesFound definition (done ++ [index]) next) ∧
        ∀ failure, resolveAt definition.nodes resolved index = .error failure →
          ∃ error, failure = .invalid error ∧ error.phase = .types ∧ error.Describes definition := by
    intro done index rest resolved split found
    have listed : index ∈ order := by
      rw [split]
      exact List.mem_append_right _ List.mem_cons_self
    have bound := List.mem_range.mp (perm.mem_iff.mp listed)
    have held := List.getElem?_eq_getElem bound
    have member := List.mem_of_getElem? held
    unfold resolveAt
    rw [held, okOr_some, ok_bind]
    apply resolveNode_spec found held
    intro operand used
    rcases resolves.referenced.place member used with ⟨_, source, placed, same⟩
    have arrow := arrow_generated resolves ⟨_, by
      unfold dependencyIndices
      rw [List.getElem?_map, held]
      rfl, List.mem_map.mpr ⟨operand, used, rfl⟩⟩
    have earlier := sorted done index rest split _ arrow
    have value := resolves.sources.values _ member operand used source (List.mem_of_getElem? placed) same
    rcases found.complete _ earlier source placed value with ⟨valueType, present⟩
    rw [same] at present
    exact ⟨valueType, present⟩
  have initial : TypesFound definition [] ∅ := ⟨by simp, by simp, by simp⟩
  have spec := foldlM_prefix (P := TypesFound definition) initial
    fun done index rest resolved next split found passed => (each done index rest resolved split found).1 next passed
  constructor
  · intro resolved passed
    have found := spec.1 resolved passed
    refine ⟨?_, found⟩
    intro node member
    rcases List.getElem?_of_mem member with ⟨index, held⟩
    have bound := (List.getElem?_eq_some_iff.mp held).1
    exact found.typechecks index (perm.mem_iff.mpr (List.mem_range.mpr bound)) node held
  · intro failure failed
    rcases spec.2 failure failed with ⟨done, index, rest, resolved, split, found, failed⟩
    exact (each done index rest resolved split found).2 failure failed

end

end KafkaCalculator

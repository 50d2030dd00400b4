import BazelRepo.KafkaCalculator.Cycles

namespace KafkaCalculator

open Library Relation

def unexplored : List (List Nat) → List Bool → Nat
  | following :: dependencies, seen :: reachable =>
    (if seen then 0 else following.length) + unexplored dependencies reachable
  | _, _ => 0

theorem unexplored_set : ∀ {dependencies : List (List Nat)} {reachable : List Bool} {index : Nat} {following : List Nat},
    dependencies[index]? = some following → reachable[index]? = some false →
      unexplored dependencies (reachable.set index true) + following.length = unexplored dependencies reachable := by
  intro dependencies
  induction dependencies with
  | nil =>
    intro reachable index following found
    simp at found
  | cons first dependencies ih =>
    intro reachable index following found fresh
    cases reachable with
    | nil => simp at fresh
    | cons seen reachable =>
      cases index with
      | zero =>
        simp only [List.getElem?_cons_zero, Option.some.injEq] at found fresh
        subst found fresh
        simp [unexplored]
        omega
      | succ index =>
        rw [List.getElem?_cons_succ] at found fresh
        have rest := ih found fresh
        simp only [List.set_cons_succ, unexplored]
        omega

theorem unexplored_replicate (dependencies : List (List Nat)) :
    unexplored dependencies (List.replicate dependencies.length false) = (dependencies.map List.length).sum := by
  induction dependencies with
  | nil => rfl
  | cons following dependencies ih =>
    rw [List.length_cons, List.replicate_succ, unexplored, ih]
    simp

/-- What is reached or pending is reachable, and what follows from the reached is reached or pending. -/
structure Reaches (dependencies : List (List Nat)) (start pending : List Nat) (reachable : List Bool) : Prop where
  length : reachable.length = dependencies.length
  bound : ∀ index ∈ pending, index < dependencies.length
  sound : ∀ index, index ∈ pending ∨ reachable[index]? = some true →
    ∃ origin ∈ start, ReflTransGen (Arrow dependencies) origin index
  started : ∀ origin ∈ start, origin ∈ pending ∨ reachable[origin]? = some true
  closed : ∀ index next, reachable[index]? = some true → Arrow dependencies index next →
    next ∈ pending ∨ reachable[next]? = some true

section

variable {dependencies : List (List Nat)} {start : List Nat}

theorem Reaches.skip {pending : List Nat} {reachable : List Bool} {index : Nat}
    (reaches : Reaches dependencies start (pending ++ [index]) reachable) (seen : reachable[index]? = some true) :
    Reaches dependencies start pending reachable := by
  have drop : ∀ other, other ∈ pending ++ [index] ∨ reachable[other]? = some true →
      other ∈ pending ∨ reachable[other]? = some true := by
    rintro other (member | reached)
    · rcases List.mem_append.mp member with earlier | last
      · exact .inl earlier
      · rw [List.mem_singleton.mp last]
        exact .inr seen
    · exact .inr reached
  refine ⟨reaches.length, fun other member => reaches.bound other (List.mem_append_left _ member), ?_,
    fun origin member => drop origin (reaches.started origin member),
    fun other next reached arrow => drop next (reaches.closed other next reached arrow)⟩
  rintro other (member | reached)
  · exact reaches.sound other (.inl (List.mem_append_left _ member))
  · exact reaches.sound other (.inr reached)

theorem Reaches.mark (closed : ∀ index next, Arrow dependencies index next → next < dependencies.length)
    {pending following : List Nat} {reachable : List Bool} {index : Nat}
    (reaches : Reaches dependencies start (pending ++ [index]) reachable)
    (found : dependencies[index]? = some following) :
    Reaches dependencies start (pending ++ following) (reachable.set index true) := by
  have inside := reaches.bound index (List.mem_append_right _ List.mem_cons_self)
  have marked : ∀ other : Nat, (reachable.set index true)[other]? = some true ↔
      other = index ∨ reachable[other]? = some true := by
    intro other
    rw [List.getElem?_set]
    by_cases same : index = other
    · subst same
      simp [reaches.length, inside]
    · simp [same, Ne.symm same]
  have arrows : ∀ next ∈ following, Arrow dependencies index next := fun next member => ⟨following, found, member⟩
  have later : ∀ other, other ∈ pending ++ [index] ∨ reachable[other]? = some true →
      other ∈ pending ++ following ∨ (reachable.set index true)[other]? = some true := by
    rintro other (member | reached)
    · rcases List.mem_append.mp member with earlier | last
      · exact .inl (List.mem_append_left _ earlier)
      · exact .inr ((marked other).mpr (.inl (List.mem_singleton.mp last)))
    · exact .inr ((marked other).mpr (.inr reached))
  refine ⟨by rw [List.length_set]; exact reaches.length, ?_, ?_,
    fun origin member => later origin (reaches.started origin member), ?_⟩
  · intro other member
    rcases List.mem_append.mp member with earlier | new
    · exact reaches.bound other (List.mem_append_left _ earlier)
    · exact closed index other (arrows other new)
  · rintro other (member | reached)
    · rcases List.mem_append.mp member with earlier | new
      · exact reaches.sound other (.inl (List.mem_append_left _ earlier))
      · rcases reaches.sound index (.inl (List.mem_append_right _ List.mem_cons_self)) with ⟨origin, member, walk⟩
        exact ⟨origin, member, walk.tail (arrows other new)⟩
    · rcases (marked other).mp reached with rfl | before
      · exact reaches.sound other (.inl (List.mem_append_right _ List.mem_cons_self))
      · exact reaches.sound other (.inr before)
  · intro other next reached arrow
    rcases (marked other).mp reached with rfl | before
    · rcases arrow with ⟨list, held, member⟩
      rw [found] at held
      cases held
      exact .inl (List.mem_append_right _ member)
    · exact later next (reaches.closed other next before arrow)

theorem reach_spec (closed : ∀ index next, Arrow dependencies index next → next < dependencies.length) :
    ∀ (turns : Nat) (pending : List Nat) (reachable : List Bool), Reaches dependencies start pending reachable →
      pending.length + unexplored dependencies reachable < turns →
      ∃ final, reach dependencies turns pending reachable = .ok final ∧ Reaches dependencies start [] final := by
  intro turns
  induction turns with
  | zero =>
    intro pending reachable _ enough
    omega
  | succ turns ih =>
    intro pending reachable reaches enough
    rcases List.eq_nil_or_concat pending with rfl | ⟨rest, index, rfl⟩
    · exact ⟨reachable, rfl, reaches⟩
    · rw [List.concat_eq_append] at reaches enough ⊢
      rw [List.length_append, List.length_singleton] at enough
      have inside := reaches.bound index (List.mem_append_right _ List.mem_cons_self)
      have counted : index < reachable.length := by
        rw [reaches.length]
        exact inside
      have state := List.getElem?_eq_getElem counted
      have found := List.getElem?_eq_getElem inside
      rw [reach, List.getLast?_concat]
      dsimp only
      rw [state, okOr_some, ok_bind, List.dropLast_concat]
      generalize reachable[index] = seen at state
      cases seen with
      | true =>
        rw [if_pos rfl]
        exact ih rest reachable (reaches.skip state) (by omega)
      | false =>
        have less := unexplored_set found state
        rw [if_neg (by decide), found, okOr_some, ok_bind]
        apply ih _ _ (reaches.mark closed found)
        rw [List.length_append]
        omega

theorem Reaches.exact {reachable : List Bool} (reaches : Reaches dependencies start [] reachable) {index : Nat} :
    reachable[index]? = some true ↔ ∃ origin ∈ start, ReflTransGen (Arrow dependencies) origin index := by
  constructor
  · intro reached
    exact reaches.sound index (.inr reached)
  · rintro ⟨origin, member, walk⟩
    induction walk with
    | refl =>
      rcases reaches.started origin member with impossible | reached
      · cases impossible
      · exact reached
    | tail _ arrow ih =>
      rcases reaches.closed _ _ ih arrow with impossible | reached
      · cases impossible
      · exact reached

end

section

variable {definition : GraphDefinition} {nodeIndex : BTreeMap NodeId Nat}

theorem reflTransGen_arrow (resolved : Resolved definition nodeIndex) {dependent dependency : NodeId} {index : Nat}
    (found : nodeIndex[dependent]? = some index) (walk : ReflTransGen definition.DependsOn dependent dependency) :
    ∃ place, nodeIndex[dependency]? = some place ∧
      ReflTransGen (Arrow (dependencyIndices definition.nodes nodeIndex)) index place := by
  induction walk with
  | refl => exact ⟨index, found, .refl⟩
  | tail _ depends ih =>
    rcases ih with ⟨middle, placed, walk⟩
    rcases depends.arrow resolved.referenced placed with ⟨place, last, arrow⟩
    exact ⟨place, last, walk.tail arrow⟩

theorem reflTransGen_dependsOn (resolved : Resolved definition nodeIndex) {dependent dependency : Nat} {node : AnyNode}
    (held : definition.nodes[dependent]? = some node)
    (walk : ReflTransGen (Arrow (dependencyIndices definition.nodes nodeIndex)) dependent dependency) :
    ∃ source, definition.nodes[dependency]? = some source ∧ ReflTransGen definition.DependsOn node.id source.id := by
  induction walk with
  | refl => exact ⟨node, held, .refl⟩
  | tail _ arrow ih =>
    rcases ih with ⟨middle, middleHeld, walk⟩
    rcases arrow.dependsOn resolved.referenced with ⟨other, source, otherHeld, sourceHeld, depends⟩
    rw [middleHeld] at otherHeld
    cases otherHeld
    exact ⟨source, sourceHeld, walk.tail depends⟩

theorem placeOf_output (resolved : Resolved definition nodeIndex) {output : NodeId}
    (known : ∃ node ∈ definition.nodes, node.id = output) :
    nodeIndex[output]? = some (placeOf nodeIndex output) := by
  rcases known with ⟨node, member, rfl⟩
  rcases List.getElem?_of_mem (List.mem_map_of_mem member : node.id ∈ definition.nodes.map AnyNode.id) with ⟨place, held⟩
  have found := (resolved.indexed node.id place).mpr held
  rw [placeOf, found]
  rfl

theorem reach_outputs (resolved : Resolved definition nodeIndex)
    (outputs : ∀ output ∈ definition.outputs, ∃ node ∈ definition.nodes, node.id = output) :
    ∃ reachable, reach (dependencyIndices definition.nodes nodeIndex)
        ((definition.outputs.map (placeOf nodeIndex)).length +
          ((dependencyIndices definition.nodes nodeIndex).map List.length).sum + 1)
        (definition.outputs.map (placeOf nodeIndex)) (List.replicate definition.nodes.length false) = .ok reachable ∧
      reachable.length = definition.nodes.length ∧
      ∀ (index : Nat) (node : AnyNode), definition.nodes[index]? = some node →
        (reachable[index]? = some true ↔ definition.Reachable node.id) := by
  have placed : ∀ output ∈ definition.outputs, nodeIndex[output]? = some (placeOf nodeIndex output) :=
    fun output member => placeOf_output resolved (outputs output member)
  have length : (dependencyIndices definition.nodes nodeIndex).length = definition.nodes.length := List.length_map _
  have closed : ∀ index next, Arrow (dependencyIndices definition.nodes nodeIndex) index next →
      next < (dependencyIndices definition.nodes nodeIndex).length := by
    intro index next arrow
    rcases arrow.dependsOn resolved.referenced with ⟨_, _, _, held, _⟩
    rw [length]
    exact (List.getElem?_eq_some_iff.mp held).1
  have initial : Reaches (dependencyIndices definition.nodes nodeIndex) (definition.outputs.map (placeOf nodeIndex))
      (definition.outputs.map (placeOf nodeIndex)) (List.replicate definition.nodes.length false) := by
    refine ⟨by rw [List.length_replicate, length], ?_, ?_, fun origin member => .inl member, ?_⟩
    · intro index member
      rcases List.mem_map.mp member with ⟨output, listed, rfl⟩
      rcases resolved.indexed.item (placed output listed) with ⟨node, held, _⟩
      rw [length]
      exact (List.getElem?_eq_some_iff.mp held).1
    · rintro index (member | reached)
      · exact ⟨index, member, .refl⟩
      · simp [List.getElem?_replicate] at reached
    · intro index next reached
      simp [List.getElem?_replicate] at reached
  have enough := unexplored_replicate (dependencyIndices definition.nodes nodeIndex)
  rw [length] at enough
  rcases reach_spec closed _ _ _ initial (by rw [enough]; exact Nat.lt_succ_self _) with ⟨reachable, run, reaches⟩
  refine ⟨reachable, run, reaches.length.trans length, ?_⟩
  intro index node held
  rw [reaches.exact]
  constructor
  · rintro ⟨origin, member, walk⟩
    rcases List.mem_map.mp member with ⟨output, listed, rfl⟩
    rcases resolved.indexed.item (placed output listed) with ⟨source, sourceHeld, rfl⟩
    rcases reflTransGen_dependsOn resolved sourceHeld walk with ⟨last, lastHeld, walk⟩
    rw [held] at lastHeld
    cases lastHeld
    exact ⟨source.id, listed, walk⟩
  · rintro ⟨output, listed, walk⟩
    rcases reflTransGen_arrow resolved (placed output listed) walk with ⟨place, found, walk⟩
    have indexed := (resolved.indexed node.id index).mpr (by rw [List.getElem?_map, held]; rfl)
    rw [indexed] at found
    cases found
    exact ⟨_, List.mem_map_of_mem listed, walk⟩

theorem checks_reachability (resolved : Resolved definition nodeIndex)
    (outputs : ∀ output ∈ definition.outputs, ∃ node ∈ definition.nodes, node.id = output) :
    Phase.reachability.Checks definition
      (validateReachability definition.nodes definition.outputs nodeIndex (dependencyIndices definition.nodes nodeIndex))
      fun _ => True := by
  have starts : (definition.outputs.mapM fun output => okOr nodeIndex[output]? (Failure.panic (ε := GraphValidationError))) =
      .ok (definition.outputs.map (placeOf nodeIndex)) := by
    apply mapM_eq_ok_map
    intro output member
    rw [placeOf_output resolved (outputs output member)]
    rfl
  rcases reach_outputs resolved outputs with ⟨reachable, run, length, listed⟩
  unfold validateReachability
  rw [starts, ok_bind]
  dsimp only
  rw [run, ok_bind]
  split
  · rename_i entry missing
    constructor
    · intro _ impossible
      cases impossible
    · intro failure failed
      rw [reject_eq_error] at failed
      subst failed
      have unseen := List.find?_some missing
      rcases List.getElem?_of_mem (List.mem_of_find?_eq_some missing) with ⟨index, found⟩
      rw [List.getElem?_zip_eq_some] at found
      refine ⟨_, rfl, rfl, ⟨entry.1, List.mem_of_getElem? found.1, rfl⟩, ?_⟩
      intro reached
      rw [← listed index entry.1 found.1, found.2, Option.some.injEq] at reached
      rw [reached] at unseen
      cases unseen
  · rename_i all
    constructor
    · intro _ _
      refine ⟨?_, trivial⟩
      intro node member
      rcases List.getElem?_of_mem member with ⟨index, held⟩
      have bound := (List.getElem?_eq_some_iff.mp held).1
      rw [← length] at bound
      have state := List.getElem?_eq_getElem bound
      have zipped : (node, reachable[index]) ∈ definition.nodes.zip reachable :=
        List.mem_of_getElem? (List.getElem?_zip_eq_some.mpr ⟨held, state⟩)
      have marked := List.find?_eq_none.mp all _ zipped
      rw [← listed index node held, state]
      simpa using marked
    · intro _ impossible
      cases impossible

end

end KafkaCalculator

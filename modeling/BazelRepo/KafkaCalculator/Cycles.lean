import BazelRepo.KafkaCalculator.References

namespace KafkaCalculator

open Library Relation

structure Resolved (definition : GraphDefinition) (nodeIndex : BTreeMap NodeId Nat) : Prop where
  indexed : IndexOf AnyNode.id definition.nodes nodeIndex
  sources : definition.OperandsResolve

structure Referenced (definition : GraphDefinition) (nodeIndex : BTreeMap NodeId Nat) : Prop where
  indexed : IndexOf AnyNode.id definition.nodes nodeIndex
  known : ∀ node ∈ definition.nodes, ∀ operand ∈ operands node, ∃ source ∈ definition.nodes, source.id = operand.nodeId

theorem Resolved.referenced {definition : GraphDefinition} {nodeIndex : BTreeMap NodeId Nat}
    (resolved : Resolved definition nodeIndex) : Referenced definition nodeIndex :=
  ⟨resolved.indexed, resolved.sources.known⟩

def placeOf (nodeIndex : BTreeMap NodeId Nat) (id : NodeId) : Nat := (nodeIndex[id]?).getD 0

def dependencyIndices (nodes : List AnyNode) (nodeIndex : BTreeMap NodeId Nat) : List (List Nat) :=
  nodes.map fun node => (operands node).map fun operand => placeOf nodeIndex operand.nodeId

def Arrow (dependencies : List (List Nat)) (dependent dependency : Nat) : Prop :=
  ∃ following, dependencies[dependent]? = some following ∧ dependency ∈ following

section

variable {definition : GraphDefinition} {nodeIndex : BTreeMap NodeId Nat}

theorem Referenced.place (referenced : Referenced definition nodeIndex) {node : AnyNode} {operand : Operand}
    (member : node ∈ definition.nodes) (used : operand ∈ operands node) :
    nodeIndex[operand.nodeId]? = some (placeOf nodeIndex operand.nodeId) ∧
      ∃ source, definition.nodes[placeOf nodeIndex operand.nodeId]? = some source ∧ source.id = operand.nodeId := by
  rcases referenced.known node member operand used with ⟨source, known, same⟩
  rcases List.getElem?_of_mem (List.mem_map_of_mem known : source.id ∈ definition.nodes.map AnyNode.id) with
    ⟨place, held⟩
  have found := (referenced.indexed source.id place).mpr held
  rw [same] at found
  have placed : placeOf nodeIndex operand.nodeId = place := by
    rw [placeOf, found]
    rfl
  rw [placed]
  exact ⟨found, referenced.indexed.item found⟩

theorem buildDependencyIndices_eq (referenced : Referenced definition nodeIndex) :
    buildDependencyIndices definition.nodes nodeIndex = .ok (dependencyIndices definition.nodes nodeIndex) := by
  apply mapM_eq_ok_map
  intro node member
  apply mapM_eq_ok_map
  intro operand used
  rw [(referenced.place member used).1]
  rfl

theorem Arrow.dependsOn (referenced : Referenced definition nodeIndex) {dependent dependency : Nat}
    (arrow : Arrow (dependencyIndices definition.nodes nodeIndex) dependent dependency) :
    ∃ node source, definition.nodes[dependent]? = some node ∧ definition.nodes[dependency]? = some source ∧
      definition.DependsOn node.id source.id := by
  rcases arrow with ⟨following, found, member⟩
  unfold dependencyIndices at found
  rw [List.getElem?_map, Option.map_eq_some_iff] at found
  rcases found with ⟨node, held, rfl⟩
  rcases List.mem_map.mp member with ⟨operand, used, rfl⟩
  have present := List.mem_of_getElem? held
  rcases (referenced.place present used).2 with ⟨source, placed, same⟩
  exact ⟨node, source, held, placed, node, present, rfl, operand, used, same.symm⟩

theorem GraphDefinition.DependsOn.arrow (referenced : Referenced definition nodeIndex) {dependent dependency : NodeId}
    (depends : definition.DependsOn dependent dependency) {index : Nat}
    (found : nodeIndex[dependent]? = some index) : ∃ place, nodeIndex[dependency]? = some place ∧
      Arrow (dependencyIndices definition.nodes nodeIndex) index place := by
  rcases depends with ⟨node, member, rfl, operand, used, rfl⟩
  rcases referenced.indexed.item found with ⟨other, held, same⟩
  rw [node_unique referenced.indexed.nodup (List.mem_of_getElem? held) member same] at held
  refine ⟨_, (referenced.place member used).1, (operands node).map fun operand => placeOf nodeIndex operand.nodeId, ?_,
    List.mem_map.mpr ⟨operand, used, rfl⟩⟩
  unfold dependencyIndices
  rw [List.getElem?_map, held]
  rfl

end

/-- Where a traversal stands: the stack is a path of what is being visited, and from what was visited no walk is endless. -/
structure Tracks (definition : GraphDefinition) (dependencies : List (List Nat)) (traversal : Traversal) : Prop where
  length : traversal.states.length = definition.nodes.length
  visiting : ∀ index : Nat, traversal.states[index]? = some .visiting ↔ index ∈ traversal.stack
  distinct : traversal.stack.Nodup
  chain : traversal.stack.IsChain (Arrow dependencies)
  visited : ∀ index : Nat, traversal.states[index]? = some .visited →
    Acc (fun dependency dependent => Arrow dependencies dependent dependency) index

structure Advances (before after : Traversal) : Prop where
  stack : after.stack = before.stack
  visited : ∀ index : Nat, before.states[index]? = some .visited → after.states[index]? = some .visited
  unvisited : after.states.count .unvisited ≤ before.states.count .unvisited

theorem Advances.refl (traversal : Traversal) : Advances traversal traversal := ⟨rfl, fun _ same => same, le_rfl⟩

theorem Advances.trans {first second third : Traversal} (one : Advances first second) (other : Advances second third) :
    Advances first third where
  stack := other.stack.trans one.stack
  visited := fun index seen => other.visited index (one.visited index seen)
  unvisited := other.unvisited.trans one.unvisited

def ReportsCycle (definition : GraphDefinition) (failure : Failure GraphValidationError) : Prop :=
  ∃ path, failure = .invalid (.cycle path) ∧ (GraphValidationError.cycle path).Describes definition

section

variable {definition : GraphDefinition} {nodeIndex : BTreeMap NodeId Nat}

theorem nodeIdAt_eq_ok {nodes : List AnyNode} {index : Nat} {node : AnyNode} (found : nodes[index]? = some node) :
    nodeIdAt nodes index = .ok node.id := by
  unfold nodeIdAt
  rw [found]
  rfl

theorem reportCycle_spec (referenced : Referenced definition nodeIndex) {traversal : Traversal} {base : List Nat}
    {index dependency : Nat} (tracks : Tracks definition (dependencyIndices definition.nodes nodeIndex) traversal)
    (top : traversal.stack = base ++ [index]) (visiting : dependency ∈ traversal.stack)
    (arrow : Arrow (dependencyIndices definition.nodes nodeIndex) index dependency) :
    ∃ failure, reportCycle definition.nodes traversal.stack dependency = .error failure ∧
      ReportsCycle definition failure := by
  rcases Option.isSome_iff_exists.mp (List.isSome_idxOf?.mpr visiting) with ⟨start, found⟩
  rcases List.idxOf?_eq_some_iff.mp found with ⟨bound, closes, _⟩
  rcases arrow.dependsOn referenced with ⟨_, source, _, placed, _⟩
  have walk : traversal.stack.drop start = dependency :: traversal.stack.drop (start + 1) := by
    rw [List.drop_eq_getElem_cons bound, closes]
  let idAt : Nat → NodeId := fun place => ((definition.nodes[place]?).map AnyNode.id).getD source.id
  have idAt_eq : ∀ {place : Nat} {node : AnyNode}, definition.nodes[place]? = some node → idAt place = node.id := by
    intro place node held
    show ((definition.nodes[place]?).map AnyNode.id).getD source.id = node.id
    rw [held]
    rfl
  have inside : ∀ place ∈ traversal.stack, ∃ node, definition.nodes[place]? = some node := by
    intro place member
    have marked := (tracks.visiting place).mpr member
    have small := (List.getElem?_eq_some_iff.mp marked).1
    rw [tracks.length] at small
    exact ⟨_, List.getElem?_eq_getElem small⟩
  have path : (traversal.stack.drop start).mapM (nodeIdAt definition.nodes) =
      .ok ((traversal.stack.drop start).map idAt) := by
    apply mapM_eq_ok_map
    intro place member
    rcases inside place (List.mem_of_mem_drop member) with ⟨node, held⟩
    rw [nodeIdAt_eq_ok held, idAt_eq held]
  have closed : (traversal.stack.drop start ++ [dependency]).IsChain
      (Arrow (dependencyIndices definition.nodes nodeIndex)) := by
    refine List.isChain_append.mpr ⟨tracks.chain.drop start, List.isChain_singleton _, ?_⟩
    intro last isLast other isOther
    rw [List.getLast?_drop, if_neg (by omega), top, List.getLast?_append, List.getLast?_singleton] at isLast
    cases isLast
    cases isOther
    exact arrow
  refine ⟨.invalid (.cycle ((traversal.stack.drop start).map idAt ++ [source.id])), ?_, _, rfl, source.id,
    (traversal.stack.drop (start + 1)).map idAt, ?_, ?_, ?_⟩
  · unfold reportCycle
    rw [found, okOr_some, ok_bind, path, ok_bind, nodeIdAt_eq_ok placed]
    rfl
  · rw [walk, List.map_cons, idAt_eq placed]
  · have plain : source.id :: (traversal.stack.drop (start + 1)).map idAt = (traversal.stack.drop start).map idAt := by
      rw [walk, List.map_cons, idAt_eq placed]
    rw [plain]
    refine List.Nodup.map_on ?_ (tracks.distinct.sublist (List.drop_sublist start _))
    intro one first other second same
    rcases inside one (List.mem_of_mem_drop first) with ⟨node, held⟩
    rcases inside other (List.mem_of_mem_drop second) with ⟨otherNode, otherHeld⟩
    rw [idAt_eq held, idAt_eq otherHeld] at same
    have place := (referenced.indexed node.id one).mpr (by rw [List.getElem?_map, held]; rfl)
    have otherPlace := (referenced.indexed otherNode.id other).mpr (by rw [List.getElem?_map, otherHeld]; rfl)
    rw [same, otherPlace] at place
    exact (Option.some.inj place).symm
  · have ids : (traversal.stack.drop start).map idAt ++ [source.id] =
        (traversal.stack.drop start ++ [dependency]).map idAt := by
      rw [List.map_append, List.map_singleton, idAt_eq placed]
    rw [ids]
    refine List.isChain_map_of_isChain idAt ?_ closed
    intro one other step
    rcases step.dependsOn referenced with ⟨node, next, held, nextHeld, depends⟩
    rw [idAt_eq held, idAt_eq nextHeld]
    exact depends

theorem getElem?_set_state {states : List State} {index other : Nat} {state : State} (bound : index < states.length) :
    (states.set index state)[other]? = if other = index then some state else states[other]? := by
  rw [List.getElem?_set]
  by_cases same : index = other
  · subst same
    simp [bound]
  · rw [if_neg same, if_neg (Ne.symm same)]

theorem count_unvisited_set {states : List State} {index : Nat} {state : State}
    (fresh : states[index]? = some .unvisited) (marked : state ≠ .unvisited) :
    (states.set index state).count .unvisited + 1 = states.count .unvisited := by
  rcases List.getElem?_eq_some_iff.mp fresh with ⟨bound, held⟩
  have positive : 0 < states.count .unvisited := List.count_pos_iff.mpr (List.mem_of_getElem? fresh)
  rw [List.count_set bound, held, if_pos (by decide), if_neg (by simpa using marked)]
  omega

theorem count_unvisited_set_le (states : List State) (index : Nat) {state : State} (marked : state ≠ .unvisited) :
    (states.set index state).count .unvisited ≤ states.count .unvisited := by
  rcases lt_or_ge index states.length with bound | outside
  · rw [List.count_set bound, if_neg (c := (state == .unvisited) = true) (by simpa using marked)]
    omega
  · rw [List.set_eq_of_length_le outside]

theorem Tracks.enter {dependencies : List (List Nat)} {traversal : Traversal} {index : Nat}
    (tracks : Tracks definition dependencies traversal) (fresh : traversal.states[index]? = some .unvisited)
    (chain : (traversal.stack ++ [index]).IsChain (Arrow dependencies)) :
    Tracks definition dependencies ⟨traversal.states.set index .visiting, traversal.stack ++ [index]⟩ := by
  have bound := (List.getElem?_eq_some_iff.mp fresh).1
  have absent : index ∉ traversal.stack := by
    intro member
    have visiting := (tracks.visiting index).mpr member
    rw [fresh] at visiting
    cases visiting
  refine ⟨?_, ?_, ?_, chain, ?_⟩
  · rw [List.length_set]
    exact tracks.length
  · intro other
    rw [getElem?_set_state bound, List.mem_append, List.mem_singleton, ← tracks.visiting other]
    by_cases same : other = index
    · simp [same]
    · simp [same]
  · refine List.nodup_append.mpr ⟨tracks.distinct, List.nodup_singleton _, ?_⟩
    rintro one first other last rfl
    rw [List.mem_singleton.mp last] at first
    exact absent first
  · intro other seen
    rw [getElem?_set_state bound] at seen
    split at seen
    · cases seen
    · exact tracks.visited other seen

theorem Tracks.leave {dependencies : List (List Nat)} {traversal : Traversal} {base : List Nat} {index : Nat}
    (tracks : Tracks definition dependencies traversal) (top : traversal.stack = base ++ [index])
    (finished : ∀ dependency, Arrow dependencies index dependency → traversal.states[dependency]? = some .visited) :
    Tracks definition dependencies ⟨traversal.states.set index .visited, base⟩ := by
  have visiting := (tracks.visiting index).mpr (by simp [top])
  have bound := (List.getElem?_eq_some_iff.mp visiting).1
  have distinct := tracks.distinct
  rw [top] at distinct
  have absent : index ∉ base := by
    intro member
    exact (List.nodup_append.mp distinct).2.2 index member index List.mem_cons_self rfl
  refine ⟨?_, ?_, (List.nodup_append.mp distinct).1, ?_, ?_⟩
  · rw [List.length_set]
    exact tracks.length
  · intro other
    rw [getElem?_set_state bound]
    by_cases same : other = index
    · simp [same, absent]
    · rw [if_neg same, tracks.visiting other, top]
      simp [same]
  · have chain := tracks.chain
    rw [top] at chain
    exact (List.isChain_append.mp chain).1
  · intro other seen
    rw [getElem?_set_state bound] at seen
    split at seen
    · rename_i same
      subst same
      exact Acc.intro _ fun dependency arrow => tracks.visited dependency (finished dependency arrow)
    · exact tracks.visited other seen

structure Visits (definition : GraphDefinition) (dependencies : List (List Nat)) (index : Nat) (before : Traversal)
    (result : Validation Traversal) : Prop where
  visits : ∀ after, result = .ok after → Tracks definition dependencies after ∧ Advances before after ∧
    after.states[index]? = some .visited
  fails : ∀ failure, result = .error failure → ReportsCycle definition failure

theorem visitDependency_spec (referenced : Referenced definition nodeIndex) {visit : Nat → Traversal → Validation Traversal}
    {base : List Nat} {index dependency : Nat} {traversal : Traversal}
    (tracks : Tracks definition (dependencyIndices definition.nodes nodeIndex) traversal)
    (top : traversal.stack = base ++ [index])
    (arrow : Arrow (dependencyIndices definition.nodes nodeIndex) index dependency)
    (deeper : traversal.states[dependency]? = some .unvisited →
      Visits definition (dependencyIndices definition.nodes nodeIndex) dependency traversal (visit dependency traversal)) :
    Visits definition (dependencyIndices definition.nodes nodeIndex) dependency traversal
      (visitDependency definition.nodes visit traversal dependency) := by
  rcases arrow.dependsOn referenced with ⟨_, _, _, placed, _⟩
  have bound := (List.getElem?_eq_some_iff.mp placed).1
  unfold visitDependency
  split
  · rename_i missing
    rw [List.getElem?_eq_none_iff, tracks.length] at missing
    omega
  · rename_i fresh
    exact deeper fresh
  · rename_i visiting
    rcases reportCycle_spec referenced tracks top ((tracks.visiting dependency).mp visiting) arrow with
      ⟨failure, failed, reports⟩
    rw [failed]
    constructor
    · intro _ impossible
      cases impossible
    · intro _ same
      cases same
      exact reports
  · rename_i visited
    constructor
    · intro after same
      cases same
      exact ⟨tracks, .refl _, visited⟩
    · intro _ impossible
      cases impossible

theorem visitLoop_spec (referenced : Referenced definition nodeIndex) (visit : Nat → Traversal → Validation Traversal)
    {base : List Nat} {index : Nat} {entered : Traversal} (dependencies : List Nat)
    (tracks : Tracks definition (dependencyIndices definition.nodes nodeIndex) entered)
    (top : entered.stack = base ++ [index])
    (arrows : ∀ dependency ∈ dependencies, Arrow (dependencyIndices definition.nodes nodeIndex) index dependency)
    (deeper : ∀ dependency ∈ dependencies, ∀ traversal,
      Tracks definition (dependencyIndices definition.nodes nodeIndex) traversal → Advances entered traversal →
      traversal.states[dependency]? = some .unvisited →
      Visits definition (dependencyIndices definition.nodes nodeIndex) dependency traversal (visit dependency traversal)) :
    (∀ after, dependencies.foldlM (visitDependency definition.nodes visit) entered = .ok after →
        Tracks definition (dependencyIndices definition.nodes nodeIndex) after ∧ Advances entered after ∧
          ∀ dependency ∈ dependencies, after.states[dependency]? = some .visited) ∧
      ∀ failure, dependencies.foldlM (visitDependency definition.nodes visit) entered = .error failure →
        ReportsCycle definition failure := by
  have each : ∀ done dependency rest traversal, dependencies = done ++ dependency :: rest →
      (Tracks definition (dependencyIndices definition.nodes nodeIndex) traversal ∧ Advances entered traversal ∧
        ∀ earlier ∈ done, traversal.states[earlier]? = some .visited) →
      Visits definition (dependencyIndices definition.nodes nodeIndex) dependency traversal
        (visitDependency definition.nodes visit traversal dependency) := by
    rintro done dependency rest traversal split ⟨kept, advances, _⟩
    have member : dependency ∈ dependencies := by
      rw [split]
      exact List.mem_append_right _ List.mem_cons_self
    exact visitDependency_spec referenced kept (advances.stack.trans top) (arrows dependency member)
      (deeper dependency member traversal kept advances)
  have loop := foldlM_prefix (P := fun (done : List Nat) (traversal : Traversal) =>
      Tracks definition (dependencyIndices definition.nodes nodeIndex) traversal ∧ Advances entered traversal ∧
        ∀ earlier ∈ done, traversal.states[earlier]? = some .visited)
    ⟨tracks, .refl entered, by simp⟩
    (by
      intro done dependency rest traversal next split kept passed
      rcases (each done dependency rest traversal split kept).visits next passed with ⟨still, further, seen⟩
      refine ⟨still, kept.2.1.trans further, ?_⟩
      intro earlier member
      rcases List.mem_append.mp member with before | last
      · exact further.visited earlier (kept.2.2 earlier before)
      · rw [List.mem_singleton.mp last]
        exact seen)
  refine ⟨loop.1, ?_⟩
  intro failure failed
  rcases loop.2 failure failed with ⟨done, dependency, rest, traversal, split, kept, failed⟩
  exact (each done dependency rest traversal split kept).fails failure failed

/-- Every level marks one more index, so as many levels as there are unmarked ones are enough. -/
theorem visit_spec (referenced : Referenced definition nodeIndex) (depth : Nat) :
    ∀ (index : Nat) (traversal : Traversal),
      Tracks definition (dependencyIndices definition.nodes nodeIndex) traversal →
      traversal.states[index]? = some .unvisited → traversal.states.count .unvisited ≤ depth →
      (traversal.stack ++ [index]).IsChain (Arrow (dependencyIndices definition.nodes nodeIndex)) →
      Visits definition (dependencyIndices definition.nodes nodeIndex) index traversal
        (visit definition.nodes (dependencyIndices definition.nodes nodeIndex) depth index traversal) := by
  induction depth with
  | zero =>
    intro index traversal _ fresh enough _
    have positive : 0 < traversal.states.count .unvisited := List.count_pos_iff.mpr (List.mem_of_getElem? fresh)
    omega
  | succ depth ih =>
    intro index traversal tracks fresh enough chain
    have bound := (List.getElem?_eq_some_iff.mp fresh).1
    have differs : State.visiting ≠ .unvisited := by decide
    have counted := count_unvisited_set fresh differs
    have declared : index < (dependencyIndices definition.nodes nodeIndex).length := by
      rw [dependencyIndices, List.length_map, ← tracks.length]
      exact bound
    have following := List.getElem?_eq_getElem declared
    generalize (dependencyIndices definition.nodes nodeIndex)[index] = dependencies at following
    have arrows : ∀ dependency, Arrow (dependencyIndices definition.nodes nodeIndex) index dependency ↔
        dependency ∈ dependencies := by
      intro dependency
      unfold Arrow
      rw [following]
      simp
    have entered := tracks.enter fresh chain
    have loop := visitLoop_spec referenced
      (visit definition.nodes (dependencyIndices definition.nodes nodeIndex) depth) dependencies entered rfl
      (fun dependency member => (arrows dependency).mpr member)
      (by
        intro dependency member next kept advances fresh
        have less := advances.unvisited
        apply ih dependency next kept fresh (by dsimp only at less; omega)
        rw [advances.stack]
        refine List.isChain_append.mpr ⟨chain, List.isChain_singleton _, ?_⟩
        intro last isLast other isOther
        rw [List.getLast?_append, List.getLast?_singleton] at isLast
        cases isLast
        cases isOther
        exact (arrows dependency).mpr member)
    have unfolded : visit definition.nodes (dependencyIndices definition.nodes nodeIndex) (depth + 1) index traversal =
        (dependencies.foldlM (visitDependency definition.nodes
            (visit definition.nodes (dependencyIndices definition.nodes nodeIndex) depth))
          ⟨traversal.states.set index .visiting, traversal.stack ++ [index]⟩ >>= fun after => do
            let states ← after.mark index .visited
            .ok ⟨states, after.stack.dropLast⟩) := by
      rw [visit, Traversal.mark, if_pos bound, ok_bind, following, okOr_some, ok_bind]
    rw [unfolded]
    constructor
    · intro final run
      rcases bind_eq_ok.mp run with ⟨after, looped, run⟩
      rcases loop.1 after looped with ⟨kept, advances, seen⟩
      have left := kept.leave advances.stack fun dependency arrow => seen dependency ((arrows dependency).mp arrow)
      have visiting := (kept.visiting index).mpr (by rw [advances.stack]; simp)
      have inside := (List.getElem?_eq_some_iff.mp visiting).1
      rw [Traversal.mark, if_pos inside, ok_bind, advances.stack, List.dropLast_concat] at run
      cases run
      refine ⟨left, ⟨rfl, ?_, ?_⟩, ?_⟩
      · intro other before
        dsimp only
        rw [getElem?_set_state inside]
        split
        · rfl
        · rename_i apart
          apply advances.visited
          dsimp only
          rw [getElem?_set_state bound, if_neg apart]
          exact before
      · have less := advances.unvisited
        have leaving : State.visited ≠ .unvisited := by decide
        have last := count_unvisited_set_le after.states index leaving
        dsimp only at less last ⊢
        omega
      · dsimp only
        rw [getElem?_set_state inside, if_pos rfl]
    · intro failure run
      rcases bind_eq_error.mp run with failed | ⟨after, looped, run⟩
      · exact loop.2 failure failed
      · rcases loop.1 after looped with ⟨kept, advances, _⟩
        have visiting := (kept.visiting index).mpr (by rw [advances.stack]; simp)
        have inside := (List.getElem?_eq_some_iff.mp visiting).1
        rw [Traversal.mark, if_pos inside] at run
        cases run

/-- No walk from this index is endless, so none comes back to it. -/
theorem not_transGen_of_acc {α : Type} {R : α → α → Prop} {a : α} (accessible : Acc (fun b a => R a b) a) :
    ¬ TransGen R a a := by
  induction accessible with
  | intro a _ ih =>
    intro circle
    rcases TransGen.head'_iff.mp circle with ⟨b, first, rest⟩
    exact ih b first (TransGen.tail' rest first)

theorem transGen_arrow (referenced : Referenced definition nodeIndex) {dependent dependency : NodeId} {index : Nat}
    (found : nodeIndex[dependent]? = some index) (walk : TransGen definition.DependsOn dependent dependency) :
    ∃ place, nodeIndex[dependency]? = some place ∧
      TransGen (Arrow (dependencyIndices definition.nodes nodeIndex)) index place := by
  induction walk with
  | single depends =>
    rcases depends.arrow referenced found with ⟨place, placed, arrow⟩
    exact ⟨place, placed, .single arrow⟩
  | tail _ depends ih =>
    rcases ih with ⟨middle, placed, walk⟩
    rcases depends.arrow referenced placed with ⟨place, last, arrow⟩
    exact ⟨place, last, walk.tail arrow⟩

theorem checks_cycles (referenced : Referenced definition nodeIndex) :
    Phase.cycles.Checks definition (validateAcyclic definition.nodes (dependencyIndices definition.nodes nodeIndex))
      fun _ => ∀ index, index < definition.nodes.length →
        Acc (fun dependency dependent => Arrow (dependencyIndices definition.nodes nodeIndex) dependent dependency) index := by
  have unmarked : ∀ index : Nat, (List.replicate definition.nodes.length State.unvisited)[index]? =
      if index < definition.nodes.length then some .unvisited else none := by
    intro index
    rw [List.getElem?_replicate]
  have initial : Tracks definition (dependencyIndices definition.nodes nodeIndex)
      ⟨List.replicate definition.nodes.length .unvisited, []⟩ := by
    refine ⟨by simp, ?_, List.nodup_nil, List.isChain_nil, ?_⟩
    · intro index
      rw [unmarked]
      split <;> simp
    · intro index seen
      rw [unmarked] at seen
      split at seen <;> cases seen
  have each : ∀ done index rest traversal, List.range definition.nodes.length = done ++ index :: rest →
      (Tracks definition (dependencyIndices definition.nodes nodeIndex) traversal ∧ traversal.stack = [] ∧
        ∀ earlier ∈ done, traversal.states[earlier]? = some .visited) →
      Visits definition (dependencyIndices definition.nodes nodeIndex) index traversal
        (visitUnvisited definition.nodes (dependencyIndices definition.nodes nodeIndex) traversal index) := by
    rintro done index rest traversal split ⟨tracks, empty, _⟩
    have listed : index ∈ List.range definition.nodes.length := by
      rw [split]
      exact List.mem_append_right _ List.mem_cons_self
    have bound := List.mem_range.mp listed
    have few : traversal.states.count .unvisited ≤ definition.nodes.length := by
      rw [← tracks.length]
      exact List.count_le_length
    unfold visitUnvisited
    split
    · rename_i missing
      rw [List.getElem?_eq_none_iff, tracks.length] at missing
      omega
    · rename_i fresh
      apply visit_spec referenced _ index traversal tracks fresh few
      rw [empty]
      exact List.isChain_singleton _
    · rename_i state marked found
      have visited : traversal.states[index]? = some .visited := by
        cases state with
        | unvisited => exact absurd rfl marked
        | visiting =>
          have held := (tracks.visiting index).mp found
          rw [empty] at held
          cases held
        | visited => exact found
      constructor
      · intro after same
        cases same
        exact ⟨tracks, .refl _, visited⟩
      · intro _ impossible
        cases impossible
  have loop := foldlM_prefix (P := fun (done : List Nat) (traversal : Traversal) =>
      Tracks definition (dependencyIndices definition.nodes nodeIndex) traversal ∧ traversal.stack = [] ∧
        ∀ earlier ∈ done, traversal.states[earlier]? = some .visited)
    ⟨initial, rfl, by simp⟩
    (by
      intro done index rest traversal next split kept passed
      rcases (each done index rest traversal split kept).visits next passed with ⟨still, further, seen⟩
      refine ⟨still, further.stack.trans kept.2.1, ?_⟩
      intro earlier member
      rcases List.mem_append.mp member with before | last
      · exact further.visited earlier (kept.2.2 earlier before)
      · rw [List.mem_singleton.mp last]
        exact seen)
  unfold validateAcyclic
  constructor
  · intro _ passed
    rcases bind_eq_ok.mp passed with ⟨final, run, _⟩
    rcases loop.1 final run with ⟨tracks, _, visited⟩
    have accessible : ∀ index, index < definition.nodes.length → Acc (fun dependency dependent =>
        Arrow (dependencyIndices definition.nodes nodeIndex) dependent dependency) index := by
      intro index bound
      exact tracks.visited index (visited index (List.mem_range.mpr bound))
    refine ⟨?_, accessible⟩
    intro id circle
    rcases TransGen.head'_iff.mp circle with ⟨_, ⟨node, member, same, _⟩, _⟩
    rcases List.getElem?_of_mem (List.mem_map_of_mem member : node.id ∈ definition.nodes.map AnyNode.id) with
      ⟨index, held⟩
    have found := (referenced.indexed node.id index).mpr held
    have bound := (List.getElem?_eq_some_iff.mp held).1
    rw [List.length_map] at bound
    rw [same] at found
    rcases transGen_arrow referenced found circle with ⟨place, placed, walk⟩
    rw [found] at placed
    cases placed
    exact not_transGen_of_acc (accessible index bound) walk
  · intro failure failed
    rcases bind_eq_error.mp failed with failed | ⟨_, _, impossible⟩
    · rcases loop.2 failure failed with ⟨done, index, rest, traversal, split, kept, failed⟩
      rcases (each done index rest traversal split kept).fails failure failed with ⟨path, rfl, describes⟩
      exact ⟨_, rfl, rfl, describes⟩
    · cases impossible

/-- Where every operand names a node the search ends, and it fails exactly when the nodes depend on each other in a
circle: with one that is there, which meets no node twice but the one where it closes. -/
theorem cycles_are_found_exactly (built : buildNodeIndex definition.nodes = .ok nodeIndex)
    (known : ∀ node ∈ definition.nodes, ∀ operand ∈ operands node,
      ∃ source ∈ definition.nodes, source.id = operand.nodeId) :
    ∃ dependencies, buildDependencyIndices definition.nodes nodeIndex = .ok dependencies ∧
      (validateAcyclic definition.nodes dependencies = .ok () ∨
        ∃ path, validateAcyclic definition.nodes dependencies = .error (.invalid (.cycle path))) ∧
      ((∃ failure, validateAcyclic definition.nodes dependencies = .error failure) ↔
        ∃ id, TransGen definition.DependsOn id id) ∧
      ∀ path, validateAcyclic definition.nodes dependencies = .error (.invalid (.cycle path)) →
        ∃ first rest, path = first :: rest ++ [first] ∧ (first :: rest).Nodup ∧
          path.IsChain definition.DependsOn := by
  have referenced : Referenced definition nodeIndex := ⟨((checks_nodeIds definition).passes nodeIndex built).2, known⟩
  have checks := checks_cycles referenced
  have reported : ∀ path, validateAcyclic definition.nodes (dependencyIndices definition.nodes nodeIndex) =
      .error (.invalid (.cycle path)) → (GraphValidationError.cycle path).Describes definition := by
    intro path failed
    rcases checks.fails _ failed with ⟨error, same, _, describes⟩
    cases same
    exact describes
  have circles : ∀ failure, validateAcyclic definition.nodes (dependencyIndices definition.nodes nodeIndex) =
      .error failure → ∃ path, failure = .invalid (.cycle path) := by
    intro failure failed
    rcases checks.fails _ failed with ⟨error, same, phase, _⟩
    cases error <;> cases phase
    exact ⟨_, same⟩
  refine ⟨_, buildDependencyIndices_eq referenced, ?_, ⟨?_, ?_⟩, reported⟩
  · cases outcome : validateAcyclic definition.nodes (dependencyIndices definition.nodes nodeIndex) with
    | ok _ => exact .inl rfl
    | error failure =>
      rcases circles failure outcome with ⟨path, rfl⟩
      exact .inr ⟨path, rfl⟩
  · rintro ⟨failure, failed⟩
    rcases circles failure failed with ⟨path, rfl⟩
    rcases reported path failed with ⟨first, rest, rfl, _, chain⟩
    exact ⟨first, transGen_of_isChain rest chain⟩
  · rintro ⟨id, circle⟩
    cases outcome : validateAcyclic definition.nodes (dependencyIndices definition.nodes nodeIndex) with
    | ok value => exact absurd circle ((checks.passes value outcome).1 id)
    | error failure => exact ⟨failure, rfl⟩

end

/-- Two results, each of which uses the other, and the second itself too. -/
def usedByEachOther : GraphDefinition :=
  let second : NodeId := .fromParts Derived ⟨"second", by decide +kernel⟩
  let first : Node Derived := .new ⟨"first", by decide +kernel⟩ ⟨"", "", []⟩
    ⟨.add ⟨[⟨second, "one term"⟩, ⟨second, "other term"⟩], .descriptor, two_terms⟩⟩
  let other : Node Derived := .new ⟨"second", by decide +kernel⟩ ⟨"", "", []⟩
    ⟨.add ⟨[⟨first.id, "one term"⟩, ⟨second, "other term"⟩], .descriptor, two_terms⟩⟩
  { nodes := [.derived first, .derived other], citations := [], outputs := [first.id] }

theorem cycles_are_found_exactly_each_other : ∃ nodeIndex dependencies,
    buildNodeIndex usedByEachOther.nodes = .ok nodeIndex ∧
      buildDependencyIndices usedByEachOther.nodes nodeIndex = .ok dependencies ∧
      ((∃ failure, validateAcyclic usedByEachOther.nodes dependencies = .error failure) ↔
        ∃ id, TransGen usedByEachOther.DependsOn id id) := by
  have indexes : (buildNodeIndex usedByEachOther.nodes).isOk = true := by decide +kernel
  rcases exists_eq_ok indexes with ⟨nodeIndex, built⟩
  have known : ∀ node ∈ usedByEachOther.nodes, ∀ operand ∈ operands node,
      ∃ source ∈ usedByEachOther.nodes, source.id = operand.nodeId := by decide +kernel
  rcases cycles_are_found_exactly built known with ⟨dependencies, listed, _, exact_, _⟩
  exact ⟨nodeIndex, dependencies, built, listed, exact_⟩

end KafkaCalculator

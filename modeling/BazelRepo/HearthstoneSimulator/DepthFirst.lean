import BazelRepo.HearthstoneSimulator.Resolving

namespace HearthstoneSimulator

open Library

/-- Whether an operation that was taken from the stack found a budget left. One that finds none does nothing and fails. -/
def Executed.isCharged (executed : Executed) : Bool := executed.world.work.remainingBudget ≠ 0

def Executed.id (executed : Executed) : ResolutionId := executed.stacked.id

/-- An operation that already waited when another was executed is executed only after all that were put on the stack from
then on. -/
def DepthFirst (history : List Executed) : Prop :=
  ∀ (before between rest : List Executed) (executed later : Executed),
    history = before ++ executed :: (between ++ later :: rest) → later.id < executed.world.work.nextResolutionId →
      ∀ id, executed.world.work.nextResolutionId ≤ id → id < later.world.work.nextResolutionId →
        id ∈ between.map Executed.id

/-- Nothing is left of a sequence, and the simulator is ready for the next action, or complete. -/
structure AtRest (world : World) : Prop where
  released : emptyWork world.work = true
  inactive : world.work.sequenceActive = false
  status : world.gameState.status = restingStatus world

/-- What is said of the operations of a sequence: no more are executed than the budget has, none twice, and depth first;
their ids are given out in order and those on a stack decrease from the top. A sequence that is finished has executed
every operation that was put on the stack, and one that is finished or failed leaves nothing behind. -/
structure Accounted [QueryOrder] [NativeEffects] (start : World) (history : List Executed) (ending : Ending)
    (after : World) : Prop where
  bounded : (history.filter Executed.isCharged).length ≤ start.ruleset.resolutionBudget
  exhausted : ∀ executed ∈ history, executed.isCharged = false → ∀ rest,
    resolveOperation executed.stacked (popped executed.world rest) =
      (popped executed.world rest, .error (.resolution (.budgetExhausted (some executed.id))))
  once : (history.map Executed.id).Nodup
  given : ∀ executed ∈ history, start.work.nextResolutionId ≤ executed.id ∧ executed.id < after.work.nextResolutionId
  increasing : ∀ executed ∈ history, executed.world.work.stack.Pairwise fun above below => below.id < above.id
  depthFirst : DepthFirst history
  complete : ending = .finished → (history.map Executed.id).Perm
    (List.range' start.work.nextResolutionId (after.work.nextResolutionId - start.work.nextResolutionId))
  waiting : ending = .paused → (history.map Executed.id ++ after.work.stack.map StackedResolutionOp.id).Perm
    (List.range' start.work.nextResolutionId (after.work.nextResolutionId - start.work.nextResolutionId))
  rests : ending ≠ .paused → AtRest after

/-- The operations of a history with the number of the next one at the time. -/
def takenTasks (history : List Executed) : List (ℕ × ℕ) :=
  history.map fun executed => (executed.id, executed.world.work.nextResolutionId)

theorem map_fst_takenTasks (history : List Executed) : (takenTasks history).map Prod.fst = history.map Executed.id := by
  unfold takenTasks
  rw [List.map_map]
  rfl

theorem beginSequence_of_ok {world : World} (idle : (beginSequence world).2 = .ok ()) : emptyWork world.work = true ∧
    (beginSequence world).1 = world.withWork fun work =>
      { work with remainingBudget := world.ruleset.resolutionBudget, sequenceActive := true } := by
  unfold beginSequence at idle ⊢
  rw [Procedure.read_bind] at idle ⊢
  split at idle
  · cases idle
  · rename_i free
    rw [if_neg free]
    refine ⟨?_, rfl⟩
    simpa using fun (full : emptyWork world.work = false) => free (by simp [full])

theorem stack_of_emptyWork {work : ResolutionWork} (released : emptyWork work = true) : work.stack = [] := by
  unfold emptyWork at released
  simp only [Bool.and_eq_true, List.isEmpty_iff] at released
  exact released.1.1.1.1.1.1.1

section Runs

variable [QueryOrder] [NativeEffects] {start after : World} {history : List Executed} {ending : Ending}

omit [QueryOrder] [NativeEffects] in
theorem answered_pushed (world : World) (pending : PendingChoice) (selected : ChoiceOption) :
    world.work.worklist.Pushed (answered world pending selected).work.worklist :=
  ResolutionWork.pushed { world.work with pendingChoice := none } selected.operations

theorem Resolving.worklist {world : World} (run : Resolving start history world) :
    Worklist.Run start.work.worklist (takenTasks history) world.work.worklist := by
  induction run with
  | start => exact .start
  | operation before top resolving done ih =>
    unfold takenTasks
    rw [List.map_append]
    apply ih.take
    · unfold ResolutionWork.worklist
      rw [top, List.map_cons]
      rfl
    · exact (resolveOperation_of_ok done).1
  | answer before found offered ih => exact ih.push (answered_pushed _ _ _)
  | note before entry ih => exact ih

theorem Resolving.budget {world : World} (run : Resolving start history world) :
    history.length + world.work.remainingBudget = start.work.remainingBudget ∧
      ∀ executed ∈ history, executed.isCharged = true := by
  induction run with
  | start =>
    refine ⟨Nat.zero_add _, ?_⟩
    intro executed member
    cases member
  | @operation early world other stacked rest before top resolving done ih =>
    have spent : other.work.remainingBudget + 1 = world.work.remainingBudget := (resolveOperation_of_ok done).2
    refine ⟨?_, ?_⟩
    · rw [List.length_append, List.length_singleton]
      omega
    · intro executed member
      rcases List.mem_append.mp member with early | last
      · exact ih.2 executed early
      · rw [List.mem_singleton.mp last]
        unfold Executed.isCharged
        simp only [decide_eq_true_eq]
        omega
  | answer before found offered ih =>
    rename_i world pending selected
    have same : (answered world pending selected).work.remainingBudget = world.work.remainingBudget :=
      remainingBudget_foldr { world.work with pendingChoice := none } selected.operations
    rw [same]
    exact ih
  | note before entry ih => exact ih

theorem Resolved.budget (resolved : Resolved start history ending after) :
    (history.filter Executed.isCharged).length ≤ start.work.remainingBudget := by
  have charges : ∀ {history : List Executed} {world : World}, Resolving start history world →
      (history.filter Executed.isCharged).length + world.work.remainingBudget = start.work.remainingBudget := by
    intro history world run
    rw [List.filter_eq_self.mpr run.budget.2]
    exact run.budget.1
  induction resolved with
  | paused before => exact (charges before).le.trans' (Nat.le_add_right _ _)
  | finished before => exact (charges before).le.trans' (Nat.le_add_right _ _)
  | unfit before => exact (charges before).le.trans' (Nat.le_add_right _ _)
  | failed before top resolving failed =>
    rename_i early world after stacked rest error
    have spent := charges before
    rw [List.filter_append, List.length_append]
    by_cases left : world.work.remainingBudget = 0
    · have none : [(⟨world, stacked⟩ : Executed)].filter Executed.isCharged = [] := by
        simp [Executed.isCharged, left]
      rw [none, List.length_nil]
      omega
    · have one := List.length_filter_le Executed.isCharged [(⟨world, stacked⟩ : Executed)]
      rw [List.length_singleton] at one
      omega
  | note _ entry ih => exact ih

omit [NativeEffects] in
theorem finishResolutionIfIdle_of_empty {world after : World} {result : Except SimulationError Unit}
    (resting : world.gameState.status ≠ .awaitingChoice) (empty : world.work.stack = [])
    (finished : finishResolutionIfIdle world = (after, result)) :
    after.work = { world.work with sequenceActive := false } ∧
      (result = .ok () → emptyWork after.work = true ∧ after.gameState.status = restingStatus after) := by
  unfold finishResolutionIfIdle at finished
  have busy : ¬ (world.gameState.status = .awaitingChoice ∨ world.work.stack.isEmpty = false) := by
    rw [empty]
    simp [resting]
  rw [Procedure.read_bind, if_neg busy, Procedure.change_bind, Procedure.read_bind] at finished
  cases checked : resolutionInvariants (finishSequence world) with
  | error message =>
    rw [checked] at finished
    cases finished
    exact ⟨rfl, nofun⟩
  | ok =>
    rw [checked] at finished
    have released : emptyWork (finishSequence world).work = true := by
      unfold resolutionInvariants at checked
      rcases bind_eq_ok.mp checked with ⟨_, _, rest⟩
      have inactive : (finishSequence world).work.sequenceActive = false := rfl
      rw [if_pos inactive] at rest
      by_contra full
      rw [if_neg full] at rest
      cases rest
    have rested : (finishSequence world).withStatus (restingStatus (finishSequence world)) = after :=
      (Prod.ext_iff.mp finished).1
    rw [← rested]
    exact ⟨rfl, fun _ => ⟨released, rfl⟩⟩

omit [NativeEffects] in
theorem atRest_abandon (world : World) : AtRest (abandon world) ∧
    (abandon world).work.nextResolutionId = world.work.nextResolutionId := by
  have kept := World.keeps_abandonEquips pliant_anyAlteration world
  refine ⟨⟨?_, rfl, rfl⟩, ?_⟩
  · rfl
  · show world.abandonEquips.work.nextResolutionId = _
    rw [kept.work]

theorem Resolved.worklist (resolved : Resolved start history ending after) :
    (∃ list, Worklist.Run start.work.worklist (takenTasks history) list ∧ list.next = after.work.nextResolutionId ∧
      (ending = .paused → list.stack = after.work.stack.map StackedResolutionOp.id) ∧
      (ending = .finished → list.stack = [])) ∧
    (ending ≠ .paused → AtRest after) := by
  induction resolved with
  | paused before waiting => exact ⟨⟨_, before.worklist, rfl, fun _ => rfl, nofun⟩, fun apart => absurd rfl apart⟩
  | finished before resting empty done =>
    rename_i early world other
    rcases finishResolutionIfIdle_of_empty resting empty done with ⟨work, fit⟩
    rcases fit rfl with ⟨released, status⟩
    have next : world.work.worklist.next = other.work.nextResolutionId := by
      rw [work]
      rfl
    have spent : world.work.worklist.stack = [] := by
      unfold ResolutionWork.worklist
      rw [empty]
      rfl
    refine ⟨⟨_, before.worklist, next, nofun, fun _ => spent⟩, fun _ => ⟨released, ?_, status⟩⟩
    rw [work]
  | unfit before resting empty failed =>
    rename_i early world other error
    rcases finishResolutionIfIdle_of_empty resting empty failed with ⟨work, _⟩
    rcases atRest_abandon other with ⟨rests, next⟩
    rw [work] at next
    exact ⟨⟨_, before.worklist, next.symm, nofun, nofun⟩, fun _ => rests⟩
  | failed before top resolving failed =>
    rename_i early world other stacked rest error
    rcases atRest_abandon other with ⟨rests, next⟩
    have grown : (popped world rest).work.worklist.Pushed other.work.worklist := by
      rcases resolveOperation_cases stacked (popped world rest) with ⟨_, same⟩ | ⟨_, same⟩ | ⟨_, _, same⟩
      · have grown := grown_executeResolutionOp stacked.id stacked.operation (charged stacked (popped world rest))
        rw [← same, failed] at grown
        exact grown.1
      · rw [same] at failed
        have unchanged := congrArg Prod.fst failed
        dsimp only at unchanged
        rw [← unchanged]
        exact .refl _
      · rw [same] at failed
        have unchanged := congrArg Prod.fst failed
        dsimp only at unchanged
        rw [← unchanged]
        exact .refl _
    have run : Worklist.Run start.work.worklist (takenTasks (early ++ [⟨world, stacked⟩])) other.work.worklist := by
      unfold takenTasks
      rw [List.map_append]
      apply before.worklist.take
      · unfold ResolutionWork.worklist
        rw [top, List.map_cons]
        rfl
      · exact grown
    exact ⟨⟨_, run, next.symm, nofun, nofun⟩, fun _ => rests⟩
  | note before entry ih =>
    rcases ih with ⟨tasks, rests⟩
    refine ⟨tasks, ?_⟩
    intro apart
    rcases rests apart with ⟨released, inactive, status⟩
    exact ⟨released, inactive, status⟩

theorem Resolving.of_append {world : World} {late : List Executed} {executed : Executed} :
    ∀ {early : List Executed}, Resolving start (early ++ executed :: late) world → Resolving start early executed.world := by
  intro early run
  generalize split : early ++ executed :: late = history at run
  induction run generalizing late with
  | start => simp at split
  | @operation before world other stacked rest reached top resolving done ih =>
    rcases List.eq_nil_or_concat late with rfl | ⟨others, last, rfl⟩
    · rcases List.append_inj' split rfl with ⟨same, last⟩
      cases last
      rw [same]
      exact reached
    · rw [List.concat_eq_append, ← List.cons_append, ← List.append_assoc] at split
      exact ih (List.append_inj' split rfl).1
  | answer before found offered ih => exact ih split
  | note before entry ih => exact ih split

theorem Resolved.increasing (resolved : Resolved start history ending after) (numbered : start.work.worklist.Numbered) :
    ∀ executed ∈ history, executed.world.work.stack.Pairwise fun above below => below.id < above.id := by
  have ordered : ∀ {history : List Executed} {world : World}, Resolving start history world →
      world.work.stack.Pairwise fun above below => below.id < above.id := by
    intro history world run
    have descending := (run.worklist.numbered numbered).descending
    unfold ResolutionWork.worklist at descending
    rwa [List.pairwise_map] at descending
  have all : ∀ {history : List Executed} {world : World}, Resolving start history world → ∀ executed ∈ history,
      executed.world.work.stack.Pairwise fun above below => below.id < above.id := by
    intro history world run executed member
    rcases List.append_of_mem member with ⟨early, late, rfl⟩
    exact ordered run.of_append
  induction resolved with
  | paused before => exact all before
  | finished before => exact all before
  | unfit before => exact all before
  | failed before top resolving failed =>
    intro executed member
    rcases List.mem_append.mp member with early | last
    · exact all before executed early
    · rw [List.mem_singleton.mp last]
      exact ordered before
  | note _ entry ih => exact ih

theorem Resolved.depthFirst (resolved : Resolved start history ending after) (numbered : start.work.worklist.Numbered) :
    DepthFirst history := by
  rcases resolved.worklist with ⟨⟨list, run, _⟩, _⟩
  rintro before between rest executed later rfl waited id from' before'
  unfold takenTasks at run
  rw [List.map_append, List.map_cons, List.map_append, List.map_cons] at run
  have taken := run.exhausted numbered waited from' before'
  rwa [List.map_map] at taken

theorem Resolved.accounted {normalized : GameAction}
    (idle : (beginSequence (start.withStatus .resolving)).2 = .ok ())
    (resolved : Resolved (begun start normalized) history ending after) : Accounted start history ending after := by
  rcases beginSequence_of_ok idle with ⟨released, begins⟩
  have empty : start.work.stack = [] := stack_of_emptyWork released
  have worklist : (begun start normalized).work.worklist =
      ⟨[start.work.nextResolutionId + 2, start.work.nextResolutionId + 1, start.work.nextResolutionId],
        start.work.nextResolutionId + 3⟩ := by
    unfold begun
    rw [begins]
    unfold ResolutionWork.worklist
    show Worklist.mk (_ :: _ :: _ :: start.work.stack.map StackedResolutionOp.id) _ = _
    rw [empty]
    rfl
  have pushed : Worklist.Pushed ⟨[], start.work.nextResolutionId⟩ (begun start normalized).work.worklist := by
    rw [worklist]
    exact ⟨3, rfl, rfl⟩
  have numbered : (begun start normalized).work.worklist.Numbered :=
    Worklist.Numbered.pushed ⟨List.Pairwise.nil, fun _ member => absurd member List.not_mem_nil⟩ pushed
  have budget : (begun start normalized).work.remainingBudget = start.ruleset.resolutionBudget := by
    unfold begun
    rw [begins]
    rfl
  rcases resolved.worklist with ⟨⟨list, run, next, paused, finished⟩, rests⟩
  have whole := (Worklist.Run.start.push pushed).trans run
  have account := whole.account
  rw [List.nil_append, map_fst_takenTasks, List.append_nil] at account
  dsimp only at account
  rw [next] at account
  have distinct := (account.nodup_iff.mpr List.nodup_range').of_append_left
  refine ⟨?_, ?_, distinct, ?_, resolved.increasing numbered, resolved.depthFirst numbered, ?_, ?_, rests⟩
  · rw [← budget]
    exact resolved.budget
  · intro executed _ uncharged rest
    apply Procedure.bind_eq_of_error
    apply consumeBudget_of_exhausted
    unfold Executed.isCharged at uncharged
    have none := not_not.mp (of_decide_eq_false uncharged)
    exact none
  · intro executed member
    have listed := account.mem_iff.mp (List.mem_append_left _ (List.mem_map_of_mem member))
    have bounds := List.mem_range'_1.mp listed
    have from' := whole.le
    rw [next] at from'
    have total := Nat.add_sub_cancel' from'
    dsimp only at total
    rw [total] at bounds
    exact bounds
  · intro ends
    rw [finished ends, List.append_nil] at account
    exact account
  · intro ends
    rw [paused ends] at account
    exact account

/-- Every action that an idle simulator accepts begins a sequence of operations, which ends when they are all done, when one
of them fails or the budget is used up, or when a choice is wanted, whose answer goes on with it; and every operation of the
sequence is accounted for. -/
theorem resolution_is_bounded_and_depth_first {action normalized : GameAction}
    (accepted : start.validateAction action = .ok normalized)
    (idle : (beginSequence (start.withStatus .resolving)).2 = .ok ()) :
    (∃ history ending after result, submitAction action start = (after, result) ∧
      Resolved (begun start normalized) history ending after ∧ (ending ≠ .failed ↔ result = .ok ())) ∧
    (∀ history world pending selected option, Resolved (begun start normalized) history .paused world →
      world.work.pendingChoice = some pending →
      pending.request.options.find? (fun candidate => candidate.id = option) = some selected →
        ∃ more ending after result, submitChoice option world = (after, result) ∧
          Resolved (begun start normalized) (history ++ more) ending after ∧ (ending ≠ .failed ↔ result = .ok ())) ∧
    ∀ history ending after, Resolved (begun start normalized) history ending after →
      Accounted start history ending after := by
  refine ⟨submitAction_resolved accepted idle, ?_, ?_⟩
  · intro history world pending selected option paused found chosen
    exact submitChoice_resolved paused found chosen
  · intro history ending after resolved
    exact resolved.accounted idle

end Runs

abbrev noHandlers : NativeEffects := ⟨fun _ _ _ => .ok []⟩

def bareGame : World := (newSimulation ⟨"Ann", [], []⟩ ⟨"Bob", [], []⟩ 0 .one).getD (.blank 0 .one)

theorem resolution_is_bounded_and_depth_first_turn :
    ∃ history ending after, @Resolved World.keyOrder noHandlers (begun bareGame (.endTurn .one)) history ending after ∧
      ending ≠ .failed ∧ @Accounted World.keyOrder noHandlers bareGame history ending after := by
  rcases @resolution_is_bounded_and_depth_first World.keyOrder noHandlers bareGame (.endTurn .one) (.endTurn .one)
    (by decide +kernel) (by decide +kernel) with ⟨⟨history, ending, after, result, submitted, resolved, ended⟩, _, accounts⟩
  have fine : (@submitAction World.keyOrder noHandlers (.endTurn .one) bareGame).2.isOk = true := by decide +kernel
  rw [submitted] at fine
  refine ⟨history, ending, after, resolved, ?_, accounts history ending after resolved⟩
  cases result with
  | error _ => cases fine
  | ok => exact ended.mpr rfl

end HearthstoneSimulator

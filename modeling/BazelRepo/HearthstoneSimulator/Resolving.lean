import BazelRepo.HearthstoneSimulator.Flow
import BazelRepo.Library.Worklist

namespace HearthstoneSimulator

open Library

def ResolutionOp.released (operation : ResolutionOp) (id : ResolutionId)
    (payers : BTreeMap ResolutionId (PlayerId × GameEntityId)) : BTreeMap ResolutionId (PlayerId × GameEntityId) :=
  match operation with
  | .runSequenceStep (.consumeDurability _ _) => payers.erase id
  | _ => payers

/-- The world in which an operation does its work: the budget is charged, and the payer released. -/
def charged (stacked : StackedResolutionOp) (world : World) : World :=
  (world.withWork fun work =>
    { work with
      remainingBudget := work.remainingBudget - 1
      durabilityPayers := stacked.operation.released stacked.id work.durabilityPayers }).trace
    (.operationPopped stacked.id stacked.operation.kind)

theorem consumeBudget_of_exhausted {world : World} (exhausted : world.work.remainingBudget = 0) (operation : ResolutionId) :
    consumeBudget operation world = (world, .error (.resolution (.budgetExhausted (some operation)))) := by
  unfold consumeBudget
  rw [Procedure.read_bind, if_pos exhausted]
  rfl

theorem consumeBudget_of_left {world : World} (left : world.work.remainingBudget ≠ 0) (operation : ResolutionId) :
    consumeBudget operation world =
      (world.withWork fun work => { work with remainingBudget := work.remainingBudget - 1 }, .ok ()) := by
  unfold consumeBudget
  rw [Procedure.read_bind, if_neg left]
  rfl

theorem releasePayer_cases (stacked : StackedResolutionOp) (world : World) :
    ∃ result, releasePayer stacked world = (world.withWork fun work =>
      { work with durabilityPayers := stacked.operation.released stacked.id work.durabilityPayers }, result) := by
  rcases stacked with ⟨id, operation⟩
  cases operation with
  | runSequenceStep step =>
    cases step with
    | consumeDurability player weapon =>
      unfold releasePayer
      dsimp only
      rw [Procedure.read_bind, Procedure.change_bind]
      split
      · exact ⟨_, rfl⟩
      · exact ⟨_, rfl⟩
    | _ => exact ⟨_, rfl⟩
  | _ => exact ⟨_, rfl⟩

section

variable [QueryOrder] [NativeEffects]

/-- An operation runs in the world that was charged for it, or nothing is left to charge or its payer is another one. -/
theorem resolveOperation_cases (stacked : StackedResolutionOp) (world : World) :
    (world.work.remainingBudget ≠ 0 ∧
      resolveOperation stacked world = executeResolutionOp stacked.id stacked.operation (charged stacked world)) ∨
    (∃ error, resolveOperation stacked world = (world, .error error)) ∨
    ∃ error, world.work.remainingBudget ≠ 0 ∧ resolveOperation stacked world =
      (world.withWork fun work =>
        { work with
          remainingBudget := work.remainingBudget - 1
          durabilityPayers := stacked.operation.released stacked.id work.durabilityPayers }, .error error) := by
  by_cases exhausted : world.work.remainingBudget = 0
  · right
    left
    exact ⟨_, Procedure.bind_eq_of_error (consumeBudget_of_exhausted exhausted stacked.id)⟩
  · unfold resolveOperation
    rw [Procedure.bind_eq_of_ok (consumeBudget_of_left exhausted stacked.id)]
    rcases releasePayer_cases stacked
      (world.withWork fun work => { work with remainingBudget := work.remainingBudget - 1 }) with ⟨result, released⟩
    cases result with
    | error error =>
      right
      right
      exact ⟨error, exhausted, Procedure.bind_eq_of_error released⟩
    | ok =>
      left
      refine ⟨exhausted, ?_⟩
      rw [Procedure.bind_eq_of_ok released]
      rfl

/-- The operations of a sequence in the order in which they are executed, with the worlds they were taken from. Choices
that they ask for are answered in between, and the actions and choices that drive the sequence may be noted. -/
inductive Resolving (start : World) : List Executed → World → Prop where
  | start : Resolving start [] start
  | operation {history : List Executed} {world after : World} {stacked : StackedResolutionOp}
      {rest : List StackedResolutionOp} (before : Resolving start history world)
      (top : world.work.stack = stacked :: rest) (resolving : world.gameState.status ≠ .awaitingChoice)
      (done : resolveOperation stacked (popped world rest) = (after, .ok ())) :
      Resolving start (history ++ [⟨world, stacked⟩]) after
  | answer {history : List Executed} {world : World} {pending : PendingChoice} {selected : ChoiceOption}
      (before : Resolving start history world) (found : world.work.pendingChoice = some pending)
      (offered : selected ∈ pending.request.options) : Resolving start history (answered world pending selected)
  | note {history : List Executed} {world : World} (before : Resolving start history world) (entry : TraceEntry) :
      Resolving start history (world.trace entry)

inductive Ending where
  | paused
  | finished
  | failed
  deriving DecidableEq

/-- The sequence waits for a choice, or has no operation left and is at rest, or is given up: an operation failed, or the
simulator is not fit to rest. -/
inductive Resolved (start : World) : List Executed → Ending → World → Prop where
  | paused {history : List Executed} {world : World} (before : Resolving start history world)
      (waiting : world.gameState.status = .awaitingChoice) : Resolved start history .paused world
  | finished {history : List Executed} {world after : World} (before : Resolving start history world)
      (resting : world.gameState.status ≠ .awaitingChoice) (empty : world.work.stack = [])
      (done : finishResolutionIfIdle world = (after, .ok ())) : Resolved start history .finished after
  | unfit {history : List Executed} {world after : World} {error : SimulationError}
      (before : Resolving start history world) (resting : world.gameState.status ≠ .awaitingChoice)
      (empty : world.work.stack = []) (failed : finishResolutionIfIdle world = (after, .error error)) :
      Resolved start history .failed (abandon after)
  | failed {history : List Executed} {world after : World} {stacked : StackedResolutionOp}
      {rest : List StackedResolutionOp} {error : SimulationError} (before : Resolving start history world)
      (top : world.work.stack = stacked :: rest) (resolving : world.gameState.status ≠ .awaitingChoice)
      (failed : resolveOperation stacked (popped world rest) = (after, .error error)) :
      Resolved start (history ++ [⟨world, stacked⟩]) .failed (abandon after)
  | note {history : List Executed} {ending : Ending} {world : World} (before : Resolved start history ending world)
      (entry : TraceEntry) : Resolved start history ending (world.trace entry)

theorem Resolved.of_paused {start world : World} {history : List Executed} (resolved : Resolved start history .paused world) :
    Resolving start history world ∧ world.gameState.status = .awaitingChoice := by
  generalize same : Ending.paused = ending at resolved
  induction resolved with
  | paused before waiting => exact ⟨before, waiting⟩
  | finished => cases same
  | unfit => cases same
  | failed => cases same
  | note _ entry ih =>
    rcases ih same with ⟨before, waiting⟩
    exact ⟨before.note entry, waiting⟩

end

def ResolutionWork.worklist (work : ResolutionWork) : Worklist :=
  ⟨work.stack.map StackedResolutionOp.id, work.nextResolutionId⟩

theorem ResolutionWork.pushed (work : ResolutionWork) (operations : List ResolutionOp) :
    work.worklist.Pushed (operations.foldr (fun operation work => work.push operation) work).worklist := by
  induction operations with
  | nil => exact .refl _
  | cons operation rest ih => exact ih.trans (.one _)

def Grown (before work : ResolutionWork) : Prop :=
  before.worklist.Pushed work.worklist ∧ work.remainingBudget = before.remainingBudget

theorem Grown.of_same {before work other : ResolutionWork} (grown : Grown before work) (stack : other.stack = work.stack)
    (nextResolutionId : other.nextResolutionId = work.nextResolutionId)
    (remainingBudget : other.remainingBudget = work.remainingBudget) : Grown before other := by
  have same : other.worklist = work.worklist := by
    unfold ResolutionWork.worklist
    rw [stack, nextResolutionId]
  refine ⟨?_, remainingBudget.trans grown.2⟩
  rw [same]
  exact grown.1

theorem remainingBudget_foldr (work : ResolutionWork) (operations : List ResolutionOp) :
    (operations.foldr (fun operation work => work.push operation) work).remainingBudget = work.remainingBudget := by
  induction operations with
  | nil => rfl
  | cons operation rest ih => exact ih

theorem work_consumeDurability (world : World) (player : PlayerId) (weapon : GameEntityId) :
    (world.consumeDurability player weapon).work = world.work := by
  unfold World.consumeDurability
  split
  · rfl
  · split <;> rfl

section

variable [QueryOrder]

theorem finishResolutionIfIdle_of_waiting {world : World} (waiting : world.gameState.status = .awaitingChoice) :
    finishResolutionIfIdle world = (world, .ok ()) := by
  unfold finishResolutionIfIdle
  rw [Procedure.read_bind, if_pos (.inl waiting)]
  rfl

theorem grown_flow (before : ResolutionWork) : Flow (fun _ _ => True) fun _ world => Grown before world.work where
  forgets := ⟨fun _ grown => grown⟩
  kept kept grown := grown.of_same (congrArg _ kept.work) (congrArg _ kept.work) (congrArg _ kept.work)
  tidy tidy grown := grown.of_same tidy.stack tidy.nextResolutionId tidy.remainingBudget
  common _ := trivial
  push {_ world operations} _ grown :=
    ⟨grown.1.trans (world.work.pushed operations), (remainingBudget_foldr world.work operations).trans grown.2⟩
  record grown := grown.of_same rfl rfl rfl
  recordSeeds grown := grown.of_same rfl rfl rfl

omit [QueryOrder] in
theorem grown_serves (before : ResolutionWork) : Admits.Serves fun _ world => Grown before world.work where
  fills grown := grown.of_same rfl rfl rfl
  takes grown := grown.of_same rfl rfl rfl
  allots grown := grown.of_same rfl rfl rfl
  collects grown := grown.of_same rfl rfl rfl
  seeds grown := grown.of_same rfl rfl rfl
  pends grown := grown.of_same rfl rfl rfl
  wears grown := by rwa [work_consumeDurability]

variable [NativeEffects]

theorem grown_executeResolutionOp (id : ResolutionId) (operation : ResolutionOp) (world : World) :
    Grown world.work (executeResolutionOp id operation world).1.work :=
  (grown_flow world.work).admits.execute_open (grown_serves world.work) id operation world []
    ⟨.refl _, rfl⟩

theorem resolveOperation_of_ok {stacked : StackedResolutionOp} {world after : World}
    (done : resolveOperation stacked world = (after, .ok ())) :
    world.work.worklist.Pushed after.work.worklist ∧
      after.work.remainingBudget + 1 = world.work.remainingBudget := by
  rcases resolveOperation_cases stacked world with ⟨left, executes⟩ | ⟨error, fails⟩ | ⟨error, _, fails⟩
  · have grown := grown_executeResolutionOp stacked.id stacked.operation (charged stacked world)
    rw [← executes, done] at grown
    have budget : after.work.remainingBudget = world.work.remainingBudget - 1 := grown.2
    exact ⟨grown.1, by omega⟩
  · rw [fails] at done
    cases (Prod.ext_iff.mp done).2
  · rw [fails] at done
    cases (Prod.ext_iff.mp done).2

/-- The loop has enough turns: it ends because it has nothing to do, or must wait, or an operation fails. -/
theorem Resolving.drive {start world : World} {history : List Executed} (before : Resolving start history world)
    (resolving : world.gameState.status ≠ .awaitingChoice) {fuel : Nat} (enough : world.work.remainingBudget < fuel) :
    (∃ more after, driveResolution fuel world = (after, .ok ()) ∧ Resolving start (history ++ more) after ∧
      (after.gameState.status = .awaitingChoice ∨
        after.gameState.status ≠ .awaitingChoice ∧ after.work.stack = [])) ∨
    ∃ more after error, driveResolution fuel world = (after, .error error) ∧
      Resolved start (history ++ more) .failed (abandon after) := by
  induction fuel generalizing history world with
  | zero => omega
  | succ fuel ih =>
    cases top : world.work.stack with
    | nil =>
      left
      refine ⟨[], world, driveResolution_of_empty top _, ?_, .inr ⟨resolving, top⟩⟩
      rwa [List.append_nil]
    | cons stacked rest =>
      rcases resolved : resolveOperation stacked (popped world rest) with ⟨middle, error | ⟨⟨⟩⟩⟩
      · right
        exact ⟨[⟨world, stacked⟩], middle, error, driveResolution_of_error top resolved fuel,
          .failed before top resolving resolved⟩
      · have stepped := before.operation top resolving resolved
        have budget : middle.work.remainingBudget + 1 = world.work.remainingBudget := (resolveOperation_of_ok resolved).2
        rw [driveResolution_of_ok top resolved]
        by_cases waiting : middle.gameState.status = .awaitingChoice
        · left
          refine ⟨[⟨world, stacked⟩], middle, ?_, stepped, .inl waiting⟩
          rw [if_pos waiting]
        · rw [if_neg waiting]
          rcases ih stepped waiting (by omega) with ⟨more, after, driven, run, stops⟩ | ⟨more, after, error, driven, run⟩
          · left
            refine ⟨⟨world, stacked⟩ :: more, after, driven, ?_, stops⟩
            rwa [List.append_assoc] at run
          · right
            refine ⟨⟨world, stacked⟩ :: more, after, error, driven, ?_⟩
            rwa [List.append_assoc] at run

theorem Resolving.resolveToPause {start world : World} {history : List Executed}
    (before : Resolving start history world) (resolving : world.gameState.status ≠ .awaitingChoice) :
    ∃ more ending after result, HearthstoneSimulator.resolveToPause world = (after, result) ∧
      Resolved start (history ++ more) ending after ∧ (ending ≠ .failed ↔ result = .ok ()) := by
  rcases before.drive resolving (Nat.lt_succ_self world.work.remainingBudget) with
    ⟨more, middle, driven, run, waiting | ⟨resting, empty⟩⟩ | ⟨more, middle, error, driven, run⟩
  · have whole := (Procedure.bind_eq_of_ok (f := fun _ => finishResolutionIfIdle) driven).trans
      (finishResolutionIfIdle_of_waiting waiting)
    exact ⟨more, .paused, middle, _, resolveToPause_of_ok whole, .paused run waiting, by simp⟩
  · rcases finished : finishResolutionIfIdle middle with ⟨last, error | ⟨⟨⟩⟩⟩
    · have whole := (Procedure.bind_eq_of_ok (f := fun _ => finishResolutionIfIdle) driven).trans finished
      exact ⟨more, .failed, abandon last, _, resolveToPause_of_error whole, .unfit run resting empty finished, by simp⟩
    · have whole := (Procedure.bind_eq_of_ok (f := fun _ => finishResolutionIfIdle) driven).trans finished
      exact ⟨more, .finished, last, _, resolveToPause_of_ok whole, .finished run resting empty finished, by simp⟩
  · exact ⟨more, .failed, abandon middle, _, resolveToPause_of_error (Procedure.bind_eq_of_error driven), run, by simp⟩

theorem submitAction_resolved {start : World} {action normalized : GameAction}
    (accepted : start.validateAction action = .ok normalized)
    (idle : (beginSequence (start.withStatus .resolving)).2 = .ok ()) :
    ∃ history ending after result, submitAction action start = (after, result) ∧
      Resolved (begun start normalized) history ending after ∧ (ending ≠ .failed ↔ result = .ok ()) := by
  have resolving : (begun start normalized).gameState.status ≠ .awaitingChoice := by
    show (beginSequence (start.withStatus .resolving)).1.gameState.status ≠ .awaitingChoice
    rw [beginSequence_gameState]
    exact nofun
  rcases Resolving.start.resolveToPause resolving with ⟨history, ending, after, result, resolved, run, failed⟩
  rw [← applyAction_of_accepted accepted idle] at resolved
  cases result with
  | error error =>
    have attempted : Procedure.attempt (applyAction action) start = (after, .ok (.error error)) := by
      unfold Procedure.attempt
      rw [resolved]
    refine ⟨history, ending, after.trace (.actionRejected action.player error.text), .error error, ?_, run.note _, failed⟩
    unfold submitAction
    rw [Procedure.bind_eq_of_ok attempted]
    rfl
  | ok =>
    have attempted : Procedure.attempt (applyAction action) start = (after, .ok (.ok ())) := by
      unfold Procedure.attempt
      rw [resolved]
    refine ⟨history, ending, after.trace (.actionAccepted action.player action.label), .ok (), ?_, run.note _, failed⟩
    unfold submitAction
    rw [Procedure.bind_eq_of_ok attempted]
    rfl

theorem submitChoice_resolved {start world : World} {history : List Executed} {pending : PendingChoice}
    {selected : ChoiceOption} {option : ChoiceId} (paused : Resolved start history .paused world)
    (found : world.work.pendingChoice = some pending)
    (chosen : pending.request.options.find? (fun candidate => candidate.id = option) = some selected) :
    ∃ more ending after result, submitChoice option world = (after, result) ∧
      Resolved start (history ++ more) ending after ∧ (ending ≠ .failed ↔ result = .ok ()) := by
  rcases paused.of_paused with ⟨before, _⟩
  have resumed := before.answer found (List.mem_of_find?_eq_some chosen)
  have submitted : submitChoice option world = resolveToPause (answered world pending selected) :=
    Procedure.bind_eq_of_ok (answerChoice_of_selected found chosen)
  rw [submitted]
  apply resumed.resolveToPause
  show SimulationStatus.resolving ≠ .awaitingChoice
  exact nofun

end

end HearthstoneSimulator

import BazelRepo.HearthstoneSimulator.World
import BazelRepo.Library.Procedure

namespace HearthstoneSimulator

open Library

abbrev Sim := Procedure World SimulationError

def emptyWork (work : ResolutionWork) : Bool :=
  work.stack.isEmpty && work.events.isEmpty && work.eventSlots.isEmpty && work.drawResultSlots.isEmpty &&
    work.playScopes.isEmpty && work.durabilityPayers.isEmpty && work.pendingPlayedSelfTransforms.isEmpty &&
      work.pendingChoice.isNone

namespace World

def trace (world : World) (entry : TraceEntry) : World :=
  { world with canonicalTrace := world.canonicalTrace ++ [entry] }

def withWork (world : World) (change : ResolutionWork → ResolutionWork) : World :=
  { world with work := change world.work }

def withStatus (world : World) (status : SimulationStatus) : World :=
  { world with gameState := { world.gameState with status := status } }

end World

def trace (entry : TraceEntry) : Sim Unit :=
  .change (·.trace entry)

def raise {α : Type} (error : SimulationError) : Sim α :=
  .fail error

def beginSequence : Sim Unit := do
  let world ← .read
  if world.work.sequenceActive || !emptyWork world.work then
    raise (.resolution .alreadyResolving)
  else
    .change (·.withWork fun work =>
      { work with remainingBudget := world.ruleset.resolutionBudget, sequenceActive := true })

def finishSequence (world : World) : World :=
  world.withWork fun work => { work with sequenceActive := false }

def abandonSequence (world : World) : World :=
  world.withWork fun work =>
    { work with
      stack := []
      events := ∅
      eventSlots := ∅
      drawResultSlots := ∅
      playScopes := ∅
      durabilityPayers := ∅
      pendingPlayedSelfTransforms := []
      pendingChoice := none
      sequenceActive := false
      remainingBudget := 0 }

def ResolutionWork.push (work : ResolutionWork) (operation : ResolutionOp) : ResolutionWork :=
  { work with
    stack := ⟨work.nextResolutionId, operation⟩ :: work.stack
    nextResolutionId := work.nextResolutionId + 1 }

def pushResolutionOp (operation : ResolutionOp) : Sim ResolutionId :=
  .changing fun world => (world.withWork (·.push operation), world.work.nextResolutionId)

def pushResolutionOps (operations : List ResolutionOp) : Sim Unit :=
  .change (·.withWork fun work => operations.foldr (fun operation work => work.push operation) work)

def openPlayScope (subject : GameEntityId) (originalAfterPlay : List TriggerSeed) : Sim ResolutionId := do
  let scope ← pushResolutionOp (.finishPlayedSelfTransform subject originalAfterPlay)
  .change (·.withWork fun work => { work with playScopes := work.playScopes.insert scope subject })
  pure scope

def World.validatePlayScope (world : World) (scope : ResolutionId) (subject : GameEntityId) :
    Except SimulationError Unit :=
  if world.work.playScopes[scope]? ≠ some subject ∨ world.get subject (·.kind) ≠ some .minion then
    .error (.invalidTransformation ("invalid play scope ResolutionId(" ++ toString scope ++ ") for subject GameEntityId("
      ++ toString subject ++ ")"))
  else
    .ok ()

def validatePlayScope (scope : ResolutionId) (subject : GameEntityId) : Sim Unit := do
  let world ← .read
  .ofExcept (world.validatePlayScope scope subject)

def allocateEventId : Sim EventId :=
  .changing fun world =>
    (world.withWork fun work => { work with nextEventId := work.nextEventId + 1 }, world.work.nextEventId)

def allocateEventSlot : Sim EventSlotId :=
  .changing fun world =>
    (world.withWork fun work =>
      { work with
        nextEventSlotId := work.nextEventSlotId + 1
        eventSlots := work.eventSlots.insert work.nextEventSlotId {} }, world.work.nextEventSlotId)

def allocateDrawResultSlot : Sim DrawResultSlotId :=
  .changing fun world =>
    (world.withWork fun work =>
      { work with
        nextDrawResultSlotId := work.nextDrawResultSlotId + 1
        drawResultSlots := work.drawResultSlots.insert work.nextDrawResultSlotId {} }, world.work.nextDrawResultSlotId)

def fillDrawResultSlot (slot : DrawResultSlotId) (outcome : DrawOutcome) : Sim Unit := do
  let world ← .read
  match world.work.drawResultSlots[slot]? with
  | none => raise (.resolution (.missingDrawResultSlot slot))
  | some result =>
    if result.outcome.isSome then
      raise (.resolution (.drawResultSlotAlreadyFilled slot))
    else
      .change (·.withWork fun work =>
        { work with drawResultSlots := work.drawResultSlots.insert slot ⟨some outcome⟩ })

def takeDrawResult (slot : DrawResultSlotId) : Sim DrawOutcome := do
  let world ← .read
  .change (·.withWork fun work => { work with drawResultSlots := work.drawResultSlots.erase slot })
  match world.work.drawResultSlots[slot]? with
  | none => raise (.resolution (.missingDrawResultSlot slot))
  | some result => .ofExcept (okOr result.outcome (.resolution (.emptyDrawResultSlot slot)))

/-- Every operation that spends durability has the payer that was captured for it, and no payer lacks one. -/
def validateDurabilityPayers (work : ResolutionWork) : Except String Unit := do
  let left ← work.stack.reverse.foldlM (fun payers stacked =>
    match stacked.operation with
    | .runSequenceStep (.consumeDurability player weapon) =>
      if payers[stacked.id]? = some (player, weapon) then
        .ok (payers.erase stacked.id)
      else
        .error "durability payer differs from combat preparation capture"
    | .runGuardedSequenceStep _ (.consumeDurability _ _) =>
      .error "durability payer cannot have a conditional completion"
    | _ => .ok payers) work.durabilityPayers
  if left.isEmpty then .ok () else .error "durability payer has no one-shot completion"

def resolutionInvariants (world : World) : Except String Unit := do
  validateDurabilityPayers world.work
  if world.work.sequenceActive = false then
    if emptyWork world.work then
      .ok ()
    else
      .error ("idle resolution work retains operations, events, event slots, draw result slots, play scopes, " ++
        "transform timing markers, or a choice")
  else if world.gameState.status = .awaitingChoice ∧ world.work.pendingChoice.isNone then
    .error "AwaitingChoice has no pending choice"
  else
    .ok ()

end HearthstoneSimulator

import BazelRepo.HearthstoneSimulator.SequenceSteps

namespace HearthstoneSimulator

open Library

def GameAction.label : GameAction → String
  | .playCard .. => "PlayCard"
  | .useHeroPower .. => "UseHeroPower"
  | .attack .. => "Attack"
  | .endTurn _ => "EndTurn"
  | .concede _ => "Concede"

/-- Work that needs more than its own context: the scope of a play, the event of a program, an equip or a payer. -/
def ResolutionOp.borrows : ResolutionOp → Except SimulationError Unit
  | .runSequenceStep (.finishEquip _) | .runGuardedSequenceStep _ (.finishEquip _) =>
    .error (.checkpoint "choice branches cannot borrow a weapon replacement scope")
  | .runSequenceStep (.consumeDurability _ _) | .runGuardedSequenceStep _ (.consumeDurability _ _) =>
    .error (.checkpoint "choice branches cannot borrow a durability payer")
  | .runEffect _ _ (some _) => .error (.invariant "choice branches cannot borrow an event context")
  | .runPlayEffect .. | .finishPlayedSelfTransform .. | .transformEntity (some _) .. =>
    .error (.invalidTransformation "choice branches cannot borrow a play scope")
  | _ => .ok ()

namespace World

def validateIndexEntry (world : World) (player : PlayerId) (zone : Zone) (entry : GameEntityId × Nat) :
    Except String Unit := do
  let components ← okOr world.entities[entry.1]? s!"zone index references missing GameEntityId({entry.1})"
  let actualZone ← okOr components.zone s!"indexed entity GameEntityId({entry.1}) has no Zone"
  let controller ← okOr components.controller s!"indexed entity GameEntityId({entry.1}) has no Controller"
  let position ← okOr components.zonePosition s!"indexed entity GameEntityId({entry.1}) has no ZonePosition"
  if actualZone ≠ zone ∨ controller ≠ player ∨ position ≠ entry.2 then
    .error s!"zone index disagrees for GameEntityId({entry.1})"
  else
    .ok ()

def allZones : List Zone :=
  [.deck, .hand, .play, .secret, .graveyard, .setAside, .removedFromGame]

def assertZoneInvariants (world : World) : Except String Unit :=
  [PlayerId.one, .two].forM fun player => allZones.forM fun zone =>
    (world.zoneIndex player zone).zipIdx.forM (world.validateIndexEntry player zone)

def ResolutionOp.completesEquip (weapon : GameEntityId) : ResolutionOp → Bool
  | .runSequenceStep (.finishEquip finished) => finished = weapon
  | _ => false

/-- The replacement scope of a weapon: both weapons exist, of one player, and one operation closes the scope. -/
def validateScope (world : World) (scope : GameEntityId × Option GameEntityId) : Except String Unit :=
  match world.entities[scope.1]? with
  | none => .error "missing equip source"
  | some components =>
    if scope.2 = some scope.1 ∨ (scope.2.any fun old => (world.entities[old]?).isNone) ∨
        components.kind ≠ some .weapon ∨ components.weaponState.isNone ∨
        (scope.2.any fun old => world.get old (·.kind) ≠ some .weapon) ∨ components.controller.isNone then
      .error "invalid replacement scope"
    else if scope.2.any fun old => world.get old (·.controller) ≠ components.controller then
      .error "replacement weapons must share the same controller"
    else if (world.work.stack.filter fun stacked =>
        ResolutionOp.completesEquip scope.1 stacked.operation).length ≠ 1 then
      .error "replacement scope must own one completion"
    else
      .ok ()

def validateActiveWeapon (world : World) (player : PlayerId) : Except String Unit :=
  if world.weaponEquipment.active player ≠ none ∧ world.activeWeapon player ≠ world.weaponEquipment.active player then
    .error "invalid active weapon reference"
  else
    .ok ()

def validateCompletion (world : World) (stacked : StackedResolutionOp) : Except String Unit :=
  match stacked.operation with
  | .runSequenceStep (.finishEquip weapon) =>
    if world.weaponEquipment.pending.contains weapon then .ok () else .error "equip completion lacks a scope"
  | _ => .ok ()

def validateWeaponInPlay (world : World) (player : PlayerId) (id : GameEntityId) : Except String Unit :=
  if world.get id (·.kind) ≠ some .weapon then
    .ok ()
  else if (world.get id (·.weaponState)).isNone then
    .error "weapon lacks durability"
  else if world.activeWeapon player ≠ some id ∧ world.weaponEquipment.supersedes id = false then
    .error "extra weapon lacks a replacement scope"
  else
    .ok ()

def assertWeaponInvariants (world : World) : Except String Unit := do
  [PlayerId.one, .two].forM world.validateActiveWeapon
  world.work.stack.reverse.forM world.validateCompletion
  world.weaponEquipment.pending.toList.forM world.validateScope
  [PlayerId.one, .two].forM fun player => (world.zoneIndex player .play).forM (world.validateWeaponInPlay player)

def validatePayer (world : World) (weapon : GameEntityId) : Except SimulationError Unit :=
  if world.get weapon (·.kind) = some .weapon ∧ (world.get weapon (·.weaponState)).isSome = true then
    .ok ()
  else
    .error (.checkpoint "durability payer must be a Weapon with WeaponState")

def eventKind (world : World) (event : Option EventId) : Option EventKind :=
  (event.bind fun event => world.work.events[event]?).map (·.context.kind)

/-- Only the transformation of a played minion by itself has a scope, and it must be its own. -/
def validateTransformScope (world : World) (playScope : Option ResolutionId) (target : GameEntityId)
    (source : Option GameEntityId) (kind : TransformKind) : Except SimulationError Unit :=
  if kind = .playedSelf then do
    let scope ← okOr (playScope.filter fun _ => source = some target)
      (.invalidTransformation "played-self transformation requires its own explicit play scope")
    world.validatePlayScope scope target
  else if playScope.isSome then
    .error (.invalidTransformation "ordinary transformation cannot carry a play scope")
  else
    .ok ()

def validateChoiceIds (options : List ChoiceOption) : Except SimulationError Unit :=
  if options.isEmpty ∨ ¬ (options.map (·.id)).Nodup then
    .error (.invariant "choice requires nonempty, unique options")
  else
    .ok ()

section Validation

variable [QueryOrder]

mutual

def validateResolutionOperation (world : World) : ResolutionOp → Except SimulationError Unit
  | .runSequenceStep (.consumeDurability _ weapon) | .runGuardedSequenceStep _ (.consumeDurability _ weapon) =>
    world.validatePayer weapon
  | .runEffect _ effect event => validateEffectProgram world [effect] (world.eventKind event)
  | .runPlayEffect scope context effect => do
    let subject ← okOr context.source (.invalidTransformation "play effect requires its source")
    world.validatePlayScope scope subject
    validatePlayEffectProgram world [effect]
  | .continueDraw _ _ effects _ => validateEffectProgram world effects none
  | .attemptTrigger candidate =>
    validateEffectProgram world candidate.definition.effectProgram (some candidate.definition.event)
  | .finishPlayedSelfTransform _ originalAfterPlay =>
    originalAfterPlay.forM fun seed => validateEffectProgram world seed.definition.effectProgram (some .afterPlay)
  | .transformEntity playScope target source card kind => do
    world.validateTransformScope playScope target source kind
    (world.prepareTransform target card).map fun _ => ()
  | .copyEntity request => (world.prepareCopy request).map fun _ => ()
  | .requestChoice request => validateChoiceRequest world request
  | _ => .ok ()

def validateChoiceRequest (world : World) : ChoiceRequest → Except SimulationError Unit
  | ⟨_, _, options⟩ => do
    validateChoiceIds options
    validateChoiceOptions world options

def validateChoiceOptions (world : World) : List ChoiceOption → Except SimulationError Unit
  | [] => .ok ()
  | option :: rest => do
    validateChoiceOption world option
    validateChoiceOptions world rest

def validateChoiceOption (world : World) : ChoiceOption → Except SimulationError Unit
  | ⟨_, operations⟩ => validateChoiceOperations world operations

def validateChoiceOperations (world : World) : List ResolutionOp → Except SimulationError Unit
  | [] => .ok ()
  | operation :: rest => do
    operation.borrows
    validateResolutionOperation world operation
    validateChoiceOperations world rest

end

end Validation

end World

/-- The option is taken out of the pending choice, which stays when there is no such option. -/
def answerChoice (option : ChoiceId) : Sim Unit := do
  let world ← .read
  .change (·.withWork fun work => { work with pendingChoice := none })
  let pending ← .ofExcept (okOr world.work.pendingChoice (.resolution .noPendingChoice))
  match pending.request.options.find? fun candidate => candidate.id = option with
  | none => do
    .change (·.withWork fun work => { work with pendingChoice := some pending })
    raise (.resolution (.invalidChoice option))
  | some selected => do
    .change (·.withStatus .resolving)
    trace (.choiceAnswered pending.request.id option)
    pushResolutionOps selected.operations

theorem withWork_pendingChoice {world : World} {pending : Option PendingChoice}
    (found : world.work.pendingChoice = pending) :
    (world.withWork fun work => { work with pendingChoice := none }).withWork
      (fun work => { work with pendingChoice := pending }) = world := by
  subst found
  rfl

theorem answerChoice_of_missing {world : World} (missing : world.work.pendingChoice = none) (option : ChoiceId) :
    answerChoice option world = (world, .error (.resolution .noPendingChoice)) := by
  have cleared : world.withWork (fun work => { work with pendingChoice := none }) = world := by
    rw [← missing]
    rfl
  unfold answerChoice
  rw [Procedure.read_bind, Procedure.change_bind, missing, cleared]
  rfl

theorem answerChoice_of_invalid {world : World} {pending : PendingChoice} {option : ChoiceId}
    (found : world.work.pendingChoice = some pending)
    (invalid : ∀ candidate ∈ pending.request.options, candidate.id ≠ option) :
    answerChoice option world = (world, .error (.resolution (.invalidChoice option))) := by
  have absent : pending.request.options.find? (fun candidate => candidate.id = option) = none := by
    rw [List.find?_eq_none]
    intro candidate member same
    exact invalid candidate member (of_decide_eq_true same)
  unfold answerChoice
  rw [Procedure.read_bind, Procedure.change_bind, found]
  show (match pending.request.options.find? (fun candidate => candidate.id = option) with
    | none => _
    | some selected => _ : Sim Unit) _ = _
  rw [absent]
  show ((world.withWork fun work => { work with pendingChoice := none }).withWork
    (fun work => { work with pendingChoice := some pending }), _) = _
  rw [withWork_pendingChoice found]

def answered (world : World) (pending : PendingChoice) (selected : ChoiceOption) : World :=
  (pushResolutionOps selected.operations
    (((world.withWork fun work => { work with pendingChoice := none }).withStatus .resolving).trace
      (.choiceAnswered pending.request.id selected.id))).1

theorem answerChoice_of_selected {world : World} {pending : PendingChoice} {option : ChoiceId} {selected : ChoiceOption}
    (found : world.work.pendingChoice = some pending)
    (chosen : pending.request.options.find? (fun candidate => candidate.id = option) = some selected) :
    answerChoice option world = (answered world pending selected, .ok ()) := by
  have same : selected.id = option := by simpa using List.find?_some chosen
  subst same
  unfold answerChoice
  rw [Procedure.read_bind, Procedure.change_bind, found]
  show (match pending.request.options.find? (fun candidate => candidate.id = selected.id) with
    | none => _
    | some selected => _ : Sim Unit) _ = _
  rw [chosen]
  rfl

section Operations

variable [QueryOrder] [NativeEffects]

def refreshAuras : AuraRefreshPlan → Sim Unit
  | .playedProvider provider => .change (·.refreshPlayedProvider provider)
  | .summon => .change (·.refreshAllAuras)

def continueDraw (result : DrawResultSlotId) (context : EffectContext) (effects : List Effect)
    (policy : DrawContinuationPolicy) : Sim Unit := do
  match ← takeDrawResult result with
  | .drawn card => pushEffects { context with drawnCard := some card } effects none
  | .burned _ | .fatigue _ =>
    if policy = .runWithoutCard then
      pushEffects { context with drawnCard := none } effects none
    else
      pure ()

def transformOperation (playScope : Option ResolutionId) (target : GameEntityId) (source : Option GameEntityId)
    (card : Card) (kind : TransformKind) : Sim Unit := do
  let world ← .read
  .ofExcept (world.validateTransformScope playScope target source kind)
  replacing fun world => world.transformEntity target card kind
  match kind with
  | .spell => pure ()
  | .nonSpell => do
    let _ ← pushResolutionOp (.refreshAuras .summon)
    pure ()
  | .playedSelf =>
    .change (·.withWork fun work =>
      { work with
        pendingPlayedSelfTransforms := if target ∈ work.pendingPlayedSelfTransforms then
          work.pendingPlayedSelfTransforms else work.pendingPlayedSelfTransforms ++ [target] })

def executeResolutionOp (operation : ResolutionId) : ResolutionOp → Sim Unit
  | .runSequenceStep step => runSequenceStep step
  | .runGuardedSequenceStep guards step => runGuardedSequenceStep guards step
  | .runPhaseBoundary _ => runPhaseBoundary
  | .refreshAuras plan => refreshAuras plan
  | .checkOutcome => .change (·.checkOutcome)
  | .prepareEvent context => do
    let event ← prepareEvent context
    let _ ← pushResolutionOp (.resolveEvent event)
    pure ()
  | .resolveEvent event => expandEvent event
  | .finishEvent event => do
    let _ ← takePreparedEvent event
    pure ()
  | .resolveEventSlot slot => resolveEventSlot slot
  | .attemptTrigger candidate => attemptTrigger operation candidate
  | .finishTrigger attempt source => trace (.triggerResolved attempt source)
  | .runPlayEffect scope context effect => executePlayEffectOperation scope context effect
  | .runEffect context effect event => executeEffectOperation context effect event
  | .processDamageBatch requests => expandDamageBatch requests
  | .processDamage request actualEvent ordinal => processDamage request actualEvent ordinal
  | .applyDamage request proposedEvent actualEvent ordinal => applyPreparedDamage request proposedEvent actualEvent ordinal
  | .processHealingBatch requests => expandHealingBatch requests
  | .processHealing request actualEvent ordinal => processHealing request actualEvent ordinal
  | .applyHealing request proposedEvent actualEvent ordinal =>
    applyPreparedHealing request proposedEvent actualEvent ordinal
  | .processDraw request => processDraw request
  | .finishDraw result => do
    let _ ← takeDrawResult result
    pure ()
  | .continueDraw result context effects policy => continueDraw result context effects policy
  | .transformEntity playScope target source card kind => transformOperation playScope target source card kind
  | .finishPlayedSelfTransform subject originalAfterPlay =>
    finishPlayedSelfTransform operation subject originalAfterPlay
  | .copyEntity request => dispatchCopy request
  | .requestChoice request => do
    let world ← .read
    .ofExcept (world.validateChoiceRequest request)
    if world.work.pendingChoice.isSome then
      raise (.invariant "cannot replace a pending choice")
    else
      requestChoice request

def consumeBudget (operation : ResolutionId) : Sim Unit := do
  let world ← .read
  if world.work.remainingBudget = 0 then
    raise (.resolution (.budgetExhausted (some operation)))
  else
    .change (·.withWork fun work => { work with remainingBudget := work.remainingBudget - 1 })

/-- Durability is spent only by the payer that was captured for the operation, and the capture is used up. -/
def releasePayer (stacked : StackedResolutionOp) : Sim Unit :=
  match stacked.operation with
  | .runSequenceStep (.consumeDurability player weapon) => do
    let world ← .read
    .change (·.withWork fun work => { work with durabilityPayers := work.durabilityPayers.erase stacked.id })
    if world.work.durabilityPayers[stacked.id]? ≠ some (player, weapon) then
      raise (.invariant "durability payer differs from combat preparation capture")
    else
      pure ()
  | _ => pure ()

def resolveOperation (stacked : StackedResolutionOp) : Sim Unit := do
  consumeBudget stacked.id
  releasePayer stacked
  trace (.operationPopped stacked.id stacked.operation.kind)
  executeResolutionOp stacked.id stacked.operation

/-- The loop over the stack, which every turn of it charges to the budget. -/
def driveResolution : Nat → Sim Unit
  | 0 => pure ()
  | fuel + 1 => do
    let world ← .read
    match world.work.stack with
    | [] => pure ()
    | stacked :: rest => do
      .change (·.withWork fun work => { work with stack := rest })
      resolveOperation stacked
      let world ← .read
      if world.gameState.status = .awaitingChoice then pure () else driveResolution fuel

def restingStatus (world : World) : SimulationStatus :=
  if world.gameState.outcome.isSome then .complete else .awaitingAction

/-- The checks of an idle simulator. Its index of entities is the map of entities itself. -/
def assertIdle (world : World) : Except String Unit := do
  world.assertWeaponInvariants
  world.assertZoneInvariants
  world.assertPlayerRoleInvariants

def finishResolutionIfIdle : Sim Unit := do
  let world ← .read
  if world.gameState.status = .awaitingChoice ∨ world.work.stack.isEmpty = false then
    pure ()
  else do
    .change finishSequence
    let world ← .read
    .ofExcept ((resolutionInvariants world).mapError .invariant)
    .change fun world => world.withStatus (restingStatus world)
    let world ← .read
    .ofExcept ((assertIdle world).mapError .invariant)

/-- A failed sequence keeps what it did to the game and releases everything else. -/
def abandon (world : World) : World :=
  let abandoned := abandonSequence world.abandonEquips
  abandoned.withStatus (restingStatus abandoned)

def resolveToPause : Sim Unit := do
  let world ← .read
  match ← Procedure.attempt do
      driveResolution (world.work.remainingBudget + 1)
      finishResolutionIfIdle with
  | .ok () => pure ()
  | .error error => do
    .change abandon
    raise error

def actionOperation : GameAction → ResolutionOp
  | .playCard player card target boardIndex _ =>
    .runGuardedSequenceStep [⟨card, .hand⟩] (.playCard player card target boardIndex)
  | .attack player attacker defender =>
    .runGuardedSequenceStep [⟨attacker, .play⟩, ⟨defender, .play⟩] (.attack player attacker defender)
  | .useHeroPower player power target => .runGuardedSequenceStep [⟨power, .play⟩] (.useHeroPower player power target)
  | .endTurn player => .runSequenceStep (.endTurn player)
  | .concede player => .runSequenceStep (.concede player)

def applyAction (action : GameAction) : Sim Unit := do
  let world ← .read
  let action ← .ofExcept (world.validateAction action)
  .change (·.withStatus .resolving)
  beginSequence
  pushResolutionOps [actionOperation action, .runPhaseBoundary .ordinary, .checkOutcome]
  resolveToPause

def submitAction (action : GameAction) : Sim Unit := do
  match ← Procedure.attempt (applyAction action) with
  | .ok () => trace (.actionAccepted action.player action.label)
  | .error error => do
    trace (.actionRejected action.player error.text)
    raise error

def submitChoice (option : ChoiceId) : Sim Unit := do
  answerChoice option
  resolveToPause

theorem applyAction_of_rejected {world : World} {action : GameAction} {error : SimulationError}
    (rejected : world.validateAction action = .error error) : applyAction action world = (world, .error error) := by
  unfold applyAction
  rw [Procedure.read_bind, rejected]
  rfl

theorem submitAction_of_rejected {world : World} {action : GameAction} {error : SimulationError}
    (rejected : world.validateAction action = .error error) :
    submitAction action world = (world.trace (.actionRejected action.player error.text), .error error) := by
  have attempted : Procedure.attempt (applyAction action) world = (world, .ok (.error error)) := by
    unfold Procedure.attempt
    rw [applyAction_of_rejected rejected]
  unfold submitAction
  rw [Procedure.bind_eq_of_ok attempted]
  rfl

theorem submitChoice_of_rejected {world : World} {option : ChoiceId} {error : SimulationError}
    (rejected : answerChoice option world = (world, .error error)) :
    submitChoice option world = (world, .error error) :=
  Procedure.bind_eq_of_error rejected

/-- A rejected action leaves one entry in the trace and nothing else, and a selection that the pending choice
does not offer leaves nothing at all. -/
theorem rejection_is_atomic (world : World) :
    (∀ action error, world.validateAction action = .error error →
      submitAction action world = (world.trace (.actionRejected action.player error.text), .error error)) ∧
    (∀ pending option, world.work.pendingChoice = some pending →
      (∀ candidate ∈ pending.request.options, candidate.id ≠ option) →
      submitChoice option world = (world, .error (.resolution (.invalidChoice option)))) ∧
    (world.work.pendingChoice = none →
      ∀ option, submitChoice option world = (world, .error (.resolution .noPendingChoice))) := by
  refine ⟨?_, ?_, ?_⟩
  · intro action error rejected
    exact submitAction_of_rejected rejected
  · intro pending option found invalid
    exact submitChoice_of_rejected (answerChoice_of_invalid found invalid)
  · intro missing option
    exact submitChoice_of_rejected (answerChoice_of_missing missing option)

end Operations

end HearthstoneSimulator

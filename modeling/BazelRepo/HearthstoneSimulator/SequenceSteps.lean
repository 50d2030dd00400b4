import BazelRepo.HearthstoneSimulator.EffectExecutor

namespace HearthstoneSimulator

open Library

def containsPlayedSelfTransform : List Effect → Bool
  | [] => false
  | .transform .source _ .playedSelf :: _ => true
  | .sequence nested :: rest => containsPlayedSelfTransform nested || containsPlayedSelfTransform rest
  | _ :: rest => containsPlayedSelfTransform rest

namespace World

def consumeDurability (world : World) (player : PlayerId) (weapon : GameEntityId) : World :=
  if world.activeWeapon player ≠ some weapon then
    world
  else
    match world.get weapon (·.weaponState) with
    | none => world
    | some state =>
      let current := max (saturatingSub state.durability 1) 0
      { world.modify weapon fun components =>
          { components with weaponState := some { state with durability := current } } with
        canonicalTrace := world.canonicalTrace ++ [.weaponDurability weapon state.durability current] }

def finishHeroPower (world : World) (power : GameEntityId) : World :=
  if world.get power (·.kind) = some .heroPower then
    world.modify power fun components =>
      { components with
        heroPowerState := components.heroPowerState.map fun state =>
          ⟨if state.usesThisTurn.toNat + 1 < UInt32.size then state.usesThisTurn + 1 else state.usesThisTurn, true⟩ }
  else
    world

def countAttack (world : World) (attacker : GameEntityId) : World :=
  world.modify attacker fun components =>
    { components with
      attackState := components.attackState.map fun state =>
        { state with attacksThisTurn := state.attacksThisTurn + 1 } }

def refreshTurnEntity (world : World) (id : GameEntityId) : World :=
  world.modify id fun components =>
    { components with
      attackState := components.attackState.map fun _ => ⟨0, false⟩
      heroPowerState := components.heroPowerState.map fun _ => ⟨0, false⟩ }

def concede (world : World) (player : PlayerId) : World :=
  { world with
    gameState := { world.gameState with outcome := some (.winner player.opponent) }
    canonicalTrace := world.canonicalTrace ++ [.outcome (some player.opponent)] }

end World

def attack (player : PlayerId) (attacker defender : GameEntityId) : Sim Unit :=
  pushResolutionOps [
    .prepareEvent (eventContext .attack (some attacker) [defender] player),
    .runGuardedSequenceStep [⟨attacker, .play⟩] (.breakAttackStealth attacker),
    .runPhaseBoundary .ordinary,
    .checkOutcome,
    .runGuardedSequenceStep [⟨attacker, .play⟩, ⟨defender, .play⟩] (.prepareCombatDamage player attacker defender)]

def combatDamage (world : World) (attacker defender : GameEntityId) : List DamageRequest :=
  let counterDamage := world.effectiveAttack defender
  ⟨some attacker, defender, world.effectiveAttack attacker⟩ ::
    if 0 < counterDamage then [⟨some defender, attacker, counterDamage⟩] else []

/-- The weapon that pays for the attack is settled here, and pays after the damage. -/
def capturePayer : Option (PlayerId × GameEntityId) → Sim Unit
  | none => pure ()
  | some payer => do
    let operation ← pushResolutionOp (.runSequenceStep (.consumeDurability payer.1 payer.2))
    .change (·.withWork fun work => { work with durabilityPayers := work.durabilityPayers.insert operation payer })

def prepareCombatDamage (player : PlayerId) (attacker defender : GameEntityId) : Sim Unit := do
  let world ← .read
  if world.gameState.outcome.isSome then
    pure ()
  else do
    let _ ← pushResolutionOp (.runSequenceStep (.finishAttack player attacker defender))
    capturePayer (world.attackWeapon attacker)
    let _ ← pushResolutionOp (.processDamageBatch (combatDamage world attacker defender))
    pure ()

def finishAttack (player : PlayerId) (attacker defender : GameEntityId) : Sim Unit := do
  .change (·.countAttack attacker)
  pushResolutionOps [.prepareEvent (eventContext .afterAttack (some attacker) [defender] player)]

def endTurn (player : PlayerId) : Sim Unit :=
  pushResolutionOps [
    .prepareEvent (eventContext .turnEnded none [] player),
    .runPhaseBoundary .ordinary,
    .checkOutcome,
    .runSequenceStep (.thawCharacters player),
    .runSequenceStep (.advanceTurn player)]

section Steps

variable [QueryOrder]

def spendResources (player : PlayerId) (amount : Int32) : Sim Unit := do
  let amount := max amount 0
  changePlayer player fun player =>
    { player with
      usedResources := player.usedResources + amount
      resourcesSpent := player.resourcesSpent + amount }
  trace (.resourceSpent player amount)

def playWeapon (player : PlayerId) (weapon : GameEntityId) (target : Option GameEntityId) (runtime : CardRuntime) :
    Sim Unit := do
  let event := eventContext .afterPlay (some weapon) [weapon] player
  let after ← preparePrecheckedEvent event
  spendResources player runtime.cost
  beginEquip player weapon
  let context : EffectContext := ⟨some weapon, player, target, none, .other⟩
  pushResolutionOps ([.prepareEvent { event with kind := .cardPlayed, targets := target.toList }] ++
    effectOps context none none runtime.program ++
    [.prepareEvent { event with kind := .weaponEquipped }, .runSequenceStep (.finishEquip weapon),
      .runPhaseBoundary .ordinary, .resolveEvent after])

def moveEntity (id : GameEntityId) (destination : Zone) (position : Option Nat) : Sim ZoneMoveOutcome :=
  fun world =>
    let moved := world.moveEntity id destination position
    (moved.1, moved.2.mapError .zone)

def playOps (player : PlayerId) (card : GameEntityId) (target : Option GameEntityId) (kind : EntityKind)
    (playScope : Option ResolutionId) (program : List Effect) : List ResolutionOp :=
  let context : EffectContext := ⟨some card, player, target, none, if kind = .spell then .spell else .other⟩
  .prepareEvent (eventContext .cardPlayed (some card) target.toList player) ::
    ((if kind = .minion then
      [.prepareEvent (eventContext .summoned (some card) [card] player), .refreshAuras (.playedProvider card)]
    else []) ++ effectOps context none playScope program)

def playCard (player : PlayerId) (card : GameEntityId) (target : Option GameEntityId) (boardIndex : Option Nat) :
    Sim Unit := do
  let world ← .read
  let components ← .ofExcept (world.controlledEntityInZone player card .hand)
  let kind ← .ofExcept (okOr components.kind (.notPlayable card))
  let runtime ← .ofExcept (okOr components.cardRuntime (.notPlayable card))
  if kind = .weapon then
    playWeapon player card target runtime
  else do
    spendResources player runtime.cost
    let destination := if kind = .minion then Zone.play else .graveyard
    match ← moveEntity card destination boardIndex with
    | .moved source _ _ => do
      trace (.zoneMoved card source destination)
      let moved ← .read
      if kind = .minion ∧ containsPlayedSelfTransform runtime.program = true then do
        let seeds := moved.collectTriggerSeeds (eventContext .afterPlay (some card) [card] player)
        let scope ← openPlayScope card seeds
        pushResolutionOps (playOps player card target kind (some scope) runtime.program)
      else
        pushResolutionOps (playOps player card target kind none runtime.program)
    | _ => raise (.invariant "validated card move failed")

def useHeroPower (player : PlayerId) (power : GameEntityId) (target : Option GameEntityId) : Sim Unit := do
  let world ← .read
  let components ← .ofExcept (world.controlledEntityInZone player power .play)
  let runtime ← .ofExcept (okOr components.cardRuntime (.notActiveHeroPower power))
  let afterUse ← preparePrecheckedEvent (eventContext .afterHeroPower (some power) target.toList player)
  spendResources player runtime.cost
  let context : EffectContext := ⟨some power, player, target, none, .heroPower⟩
  pushResolutionOps (effectOps context none none runtime.program ++
    [.runSequenceStep (.finishHeroPower power), .runPhaseBoundary .ordinary, .resolveEvent afterUse])

def advanceTurn (ending : PlayerId) : Sim Unit := do
  let world ← .read
  if world.gameState.outcome.isSome then
    pure ()
  else do
    let next := world.turnSchedule.nextTurn ending
    .change fun world => { world with turnSchedule := next.2 }
    .change (·.expireTemporaryEffects ending next.1.player)
    pushResolutionOps [.runSequenceStep (.startTurn next.1.player next.1.kind)]

def startTurn (player : PlayerId) (kind : ScheduledTurnKind) : Sim Unit := do
  let world ← .read
  .change fun world =>
    { world with
      gameState :=
        { world.gameState with activePlayer := player, turnNumber := world.gameState.turnNumber + 1 } }
  changePlayer player fun player =>
    { player with
      maximumResources := min (player.maximumResources + 1) world.ruleset.maximumMana
      usedResources := 0
      temporaryResources := 0
      lockedOverload := player.pendingOverload
      pendingOverload := 0 }
  .change fun world => (world.zoneIndex player .play).foldl World.refreshTurnEntity world
  let world ← .read
  trace (.turnChanged player world.gameState.turnNumber kind)
  pushResolutionOps [.prepareEvent (eventContext .turnStarted none [] player)]

def finishEquip (weapon : GameEntityId) : Sim Unit :=
  fun world => world.finishEquip weapon

def runSequenceStep : SequenceStep → Sim Unit
  | .finishEquip weapon => finishEquip weapon
  | .consumeDurability player weapon => .change (·.consumeDurability player weapon)
  | .prepareCombatDamage player attacker defender => prepareCombatDamage player attacker defender
  | .playCard player card target boardIndex => playCard player card target boardIndex
  | .attack player attacker defender => attack player attacker defender
  | .breakAttackStealth attacker => replacing (·.breakAttackStealth attacker)
  | .finishAttack player attacker defender => finishAttack player attacker defender
  | .useHeroPower player power target => useHeroPower player power target
  | .finishHeroPower power => .change (·.finishHeroPower power)
  | .endTurn player => endTurn player
  | .thawCharacters player => replacing (·.thawCharacters player)
  | .advanceTurn ending => advanceTurn ending
  | .startTurn player kind => startTurn player kind
  | .concede player => .change (·.concede player)

def failedGuard (world : World) (guards : List SubjectGuard) : Option SubjectGuard :=
  guards.find? fun required => world.get required.subject (·.zone) ≠ some required.requiredZone

def runGuardedSequenceStep (guards : List SubjectGuard) (step : SequenceStep) : Sim Unit := do
  let world ← .read
  match failedGuard world guards with
  | none => runSequenceStep step
  | some failed => trace (.sequenceStepSkipped step failed.subject failed.requiredZone (world.get failed.subject (·.zone)))

end Steps

end HearthstoneSimulator

import BazelRepo.HearthstoneSimulator.Copying

namespace HearthstoneSimulator

open Library

def DeterministicRng.nextU64 (rng : DeterministicRng) : DeterministicRng × UInt64 :=
  let state := rng.state + 0x9e3779b97f4a7c15
  let value := (state ^^^ (state >>> 30)) * 0xbf58476d1ce4e5b9
  let value := (value ^^^ (value >>> 27)) * 0x94d049bb133111eb
  (⟨state, rng.position + 1⟩, value ^^^ (value >>> 31))

namespace World

def chooseGameEntity (world : World) (candidates : List GameEntityId) : World × Option GameEntityId :=
  let candidates := sortedIds candidates
  if candidates.isEmpty then
    (world, none)
  else
    let next := world.rng.nextU64
    let selected := candidates[next.2.toNat % candidates.length]?.getD 0
    ({ world with
        rng := next.1
        canonicalTrace := world.canonicalTrace ++ [.rngChoice world.rng.position candidates selected] }, some selected)

/-- The entities a selector names, in ascending order. Only a random one changes the world. -/
def selectEntities (context : EffectContext) : Selector → World → World × List GameEntityId
  | .source, world => (world, context.source.toList)
  | .drawnCard, world => (world, context.drawnCard.toList)
  | .attachedEntity, world => (world, (context.source.bind world.attachedEntity).toList)
  | .declaredTarget, world => (world, context.declaredTarget.toList)
  | .entity entity, world => (world, [entity])
  | .inZone player zone, world =>
    (world, sortedIds (world.zoneIndex (resolvePlayer context.controller player) zone))
  | .random inner, world =>
    let candidates := selectEntities context inner world
    let chosen := candidates.1.chooseGameEntity candidates.2
    (chosen.1, chosen.2.toList)
  | selector, world => (world, sortedIds (world.selectInPlay context.controller selector))

def evaluateValue (world : World) (context : EffectContext) (targetCount : Nat) : ValueExpression → Int32
  | .constant value => value
  | .sourceAttack => ((context.source.bind fun source => world.get source (·.currentStats)).map (·.attack)).getD 0
  | .targetCount => Int32.ofNat targetCount
  | .drawnCardCost => ((context.drawnCard.bind fun card => world.get card (·.cardRuntime)).map (·.cost)).getD 0

def continuousSourceIsActive (world : World) (components : Components) : Bool :=
  components.zone = some .play &&
    match components.attachedTo with
    | none => true
    | some attached => world.get attached (·.zone) = some .play

def ContinuousEffectDefinition.reaches (definition : ContinuousEffectDefinition) (controller player : PlayerId) :
    Bool :=
  match definition.recipients with
  | .controller => player = controller
  | .opponent => player = controller.opponent
  | .both => true

def addSpellDamage (controller player : PlayerId) (total : Int32) (definition : ContinuousEffectDefinition) : Int32 :=
  if ContinuousEffectDefinition.reaches definition controller player then
    match definition.modifier with
    | .spellDamage amount => saturatingAdd total amount
  else
    total

section Bonuses

variable [QueryOrder]

def currentSpellDamage (world : World) (player : PlayerId) : Int32 :=
  let providers := (QueryOrder.iterEntities world).filterMap fun id =>
    (world.entities[id]?).bind fun components =>
      match components.controller, components.runtimeContinuousEffects with
      | some controller, some definitions =>
        if !components.silenced && world.continuousSourceIsActive components then
          some (components.playOrder.getD 0, id, controller, definitions)
        else
          none
      | _, _ => none
  (sortByKey (fun provider : Nat × GameEntityId × PlayerId × List ContinuousEffectDefinition =>
    (toLex (provider.1, provider.2.1) : ℕ ×ₗ ℕ)) providers).foldl
      (fun total provider => provider.2.2.2.foldl (addSpellDamage provider.2.2.1 player) total) 0

def addHeroPowerDamage (total : Int32) (application : AuraApplication) : Int32 :=
  match application.modifier with
  | .heroPowerDamage amount => saturatingAdd total amount
  | _ => total

def heroPowerDamageBonus (world : World) (player : PlayerId) : Int32 :=
  let object := (QueryOrder.iterEntities world).find? fun id =>
    world.get id (·.kind) = some .player && world.get id (·.controller) = some player
  ((object.bind fun id => world.get id (·.otherAuraCache)).getD []).foldl addHeroPowerDamage 0

/-- The damage an effect of the given origin deals where it says `value`. -/
def boostedDamage (world : World) (context : EffectContext) (value : Int32) : Int32 :=
  match context.origin with
  | .spell => saturatingAdd value (world.currentSpellDamage context.controller)
  | .heroPower => saturatingAdd value (world.heroPowerDamageBonus context.controller)
  | .other => value

end Bonuses

end World

/-- What registered handlers plan: they read the world and answer with effects. -/
class NativeEffects where
  plan : NativeEffectId → EffectContext → World → Except String (List Effect)

def selectEntities (context : EffectContext) (selector : Selector) : Sim (List GameEntityId) :=
  .changing (World.selectEntities context selector)

def EventValueOperation.apply (operation : EventValueOperation) (previous operand : Int32) : Int32 :=
  match operation with
  | .replace => operand
  | .add => saturatingAdd previous operand
  | .multiply => saturatingMul previous operand

def modifyEventValue (event : Option EventId) (context : EffectContext) (operation : EventValueOperation)
    (expression : ValueExpression) : Sim Unit := do
  let event ← .ofExcept (okOr event .noModifiableEventValue)
  let world ← .read
  let prepared ← .ofExcept (okOr (world.work.events[event]?.filter fun prepared => prepared.context.kind.isProposed)
    .noModifiableEventValue)
  let previous ← .ofExcept (okOr prepared.context.proposedValue .noModifiableEventValue)
  let operand := world.evaluateValue context prepared.context.targets.length expression
  let current := max (operation.apply previous operand) 0
  .change (·.withWork fun work =>
    { work with
      events := work.events.insert event
        { prepared with context := { prepared.context with proposedValue := some current } } })
  trace (.eventValueChanged event operation previous current)

def chooseEffect (context : EffectContext) (id : ChoiceId) (player : PlayerSelector) (options : List EffectChoiceOption) :
    ChoiceRequest :=
  { id := id
    player := resolvePlayer context.controller player
    options := options.map fun option => ⟨option.id, effectOps context none none option.effects⟩ }

def setPendingDestroy (target : GameEntityId) : Sim Unit :=
  .change (·.modify target fun components => { components with pendingDestroy := true })

def drawEffect (player : PlayerId) (source : Option GameEntityId) (count : Nat) : Sim Unit := do
  let world ← .read
  if world.work.remainingBudget < count * 2 then
    raise (.resolution (.budgetExhausted none))
  else do
    let slots ← (List.range count).mapM fun _ => allocateDrawResultSlot
    pushResolutionOps (slots.flatMap fun slot => [.processDraw ⟨player, source, slot⟩, .finishDraw slot])

section Effects

variable [QueryOrder]

def moveTarget (player : PlayerId) (zone : Zone) (kind : ZoneMovementKind) (target : GameEntityId) : Sim Unit := do
  match ← moveEntityRequested ⟨target, player, zone, none, kind⟩ with
  | .moved source _ _ => trace (.zoneMoved target source zone)
  | .fullZoneRemoval source _ _ => trace (.zoneMoved target source .graveyard)
  | .preventedByFullZone => pure ()

def moveEffect (context : EffectContext) (targets : Selector) (player : PlayerSelector) (zone : Zone)
    (kind : ZoneMovementKind) : Sim Unit := do
  let targets ← selectEntities context targets
  let world ← .read
  (sortByKey (fun id => (toLex ((world.get id (·.playOrder)).getD 0, id) : ℕ ×ₗ ℕ)) targets).forM
    (moveTarget (resolvePlayer context.controller player) zone kind)

def gainResource (player : PlayerId) (amount : Int32) (temporary : Bool) : Sim Unit := do
  let world ← .read
  changePlayer player fun player =>
    if temporary then
      { player with temporaryResources := player.temporaryResources + amount }
    else
      { player with maximumResources := min (player.maximumResources + amount) world.ruleset.maximumMana }

def scheduleExtraTurns (player : PlayerId) (count : UInt32) (timing : ExtraTurnTiming) : Sim Unit := do
  .change fun world =>
    { world with turnSchedule := world.turnSchedule.schedule world.gameState.activePlayer player count timing }
  trace (.extraTurnsScheduled player count timing)

def summonEffect (source : Option GameEntityId) (player : PlayerId) (card : Card) (boardIndex : Option Nat) :
    Sim Unit := do
  match ← (fun world => world.summon player card boardIndex : Sim (Option GameEntityId)) with
  | none => pure ()
  | some summoned => announceSummoned source summoned player

def attachEach (targets : List GameEntityId)
    (attach : World → GameEntityId → Except SimulationError (World × GameEntityId)) : Sim Unit :=
  targets.forM fun target => replacing fun world => (attach world target).map Prod.fst

def attachContinuousEffect (world : World) (controller : PlayerId) (target : GameEntityId)
    (effect : ContinuousEffectDefinition) (duration : EnchantmentDuration) (silenceRemovable : Bool) :
    Except SimulationError (World × GameEntityId) := do
  let (world, id) ← world.spawnAttachedEnchantment controller target "synthetic:continuous_modifier"
    "Continuous modifier" duration silenceRemovable
  .ok (world.modify id fun components => { components with runtimeContinuousEffects := some [effect] }, id)

def attachTriggers (world : World) (controller : PlayerId) (target : GameEntityId) (triggers : List TriggerDefinition)
    (duration : EnchantmentDuration) (silenceRemovable : Bool) : Except SimulationError (World × GameEntityId) := do
  let (world, id) ← world.spawnAttachedEnchantment controller target "synthetic:trigger_enchantment"
    "Trigger enchantment" duration silenceRemovable
  .ok (world.modify id fun components => { components with runtimeTriggers := some triggers }, id)

def copyOps (world : World) (context : EffectContext) (controller : PlayerId) (zone : Zone) (boardIndex : Option Nat)
    (targets : List GameEntityId) : Except SimulationError (List ResolutionOp) :=
  targets.mapM fun target => do
    let policy ←
      if (world.entities[target]?).isSome then
        (world.copySourceZone target).map fun source => copyStatePolicy source zone
      else
        .ok .currentForm
    .ok (.copyEntity ⟨target, context.source, controller, zone, boardIndex, policy⟩)

variable [NativeEffects]

def nativeEffect (context : EffectContext) (event : Option EventId) (id : NativeEffectId) : Sim Unit := do
  let world ← .read
  if id ∈ world.nativeEffectRegistry then do
    let plan ← .ofExcept ((NativeEffects.plan id context world).mapError (.nativeEffectFailed id))
    let eventKind := (event.bind fun event => world.work.events[event]?).map (·.context.kind)
    .ofExcept (World.validateEffectProgram world plan eventKind)
    pushEffects context plan event
  else
    raise (.nativeEffectNotRegistered id)

def executeScopedEffect (context : EffectContext) (event : Option EventId) (playScope : Option ResolutionId) :
    Effect → Sim Unit
  | .choose id player options => do
    let world ← .read
    .ofExcept (World.validateEffectProgram world [.choose id player options] none)
    let _ ← pushResolutionOp (.requestChoice (chooseEffect context id player options))
    pure ()
  | .dealDamage targets amount => do
    let targets ← selectEntities context targets
    let world ← .read
    let value := world.boostedDamage context (world.evaluateValue context targets.length amount)
    applyDamageBatch (targets.map fun target => ⟨context.source, target, value⟩) .orderOfPlay
  | .heal targets amount => do
    let targets ← selectEntities context targets
    let world ← .read
    let value := world.evaluateValue context targets.length amount
    applyHealingBatch (targets.map fun target => ⟨context.source, target, value⟩) .orderOfPlay
  | .modifyEventValue operation value => modifyEventValue event context operation value
  | .destroy targets => do
    let targets ← selectEntities context targets
    targets.forM setPendingDestroy
  | .draw player count => drawEffect (resolvePlayer context.controller player) context.source count.toNat
  | .drawThen player effects policy => do
    let result ← allocateDrawResultSlot
    pushResolutionOps [.processDraw ⟨resolvePlayer context.controller player, context.source, result⟩,
      .continueDraw result context effects policy]
  | .move targets player zone kind => moveEffect context targets player zone kind
  | .gainResource player amount temporary => gainResource (resolvePlayer context.controller player) amount temporary
  | .scheduleExtraTurns player count timing =>
    scheduleExtraTurns (resolvePlayer context.controller player) count timing
  | .replaceHero player replacement => replaceHero (resolvePlayer context.controller player) replacement
  | .summon player card boardIndex =>
    summonEffect context.source (resolvePlayer context.controller player) card boardIndex
  | .attachStatModifier targets modifier duration => do
    let targets ← selectEntities context targets
    attachEach targets fun world target => world.attachStatModifier context.controller target modifier duration
  | .attachKeywordModifier targets modifier duration => do
    let targets ← selectEntities context targets
    attachEach targets fun world target => world.attachKeywordModifier context.controller target modifier duration
  | .attachCostModifier targets modifier duration => do
    let targets ← selectEntities context targets
    attachEach targets fun world target => world.attachCostModifier context.controller target modifier duration
  | .attachContinuousEffect targets effect silenceRemovable duration => do
    let targets ← selectEntities context targets
    attachEach targets fun world target =>
      attachContinuousEffect world context.controller target effect duration silenceRemovable
  | .attachTriggerEnchantment targets triggers duration silenceRemovable => do
    let world ← .read
    .ofExcept (world.validateTriggerEnchantment triggers)
    let targets ← selectEntities context targets
    attachEach targets fun world target =>
      attachTriggers world context.controller target triggers duration silenceRemovable
  | .silence targets => do
    let targets ← selectEntities context targets
    targets.forM fun target => replacing (·.silenceEntity target)
  | .transform targets card kind => do
    let targets ← selectEntities context targets
    let scope := if kind = .playedSelf then playScope else none
    pushResolutionOps (targets.map fun target => .transformEntity scope target context.source card kind)
  | .copy targets player zone boardIndex => do
    let targets ← selectEntities context targets
    let world ← .read
    let requests ← .ofExcept (copyOps world context (resolvePlayer context.controller player) zone boardIndex targets)
    pushResolutionOps requests
  | .native id => nativeEffect context event id
  | .sequence nested => pushScopedEffects context nested event playScope

def executeEffectOperation (context : EffectContext) (effect : Effect) (event : Option EventId) : Sim Unit :=
  executeScopedEffect context event none effect

def executePlayEffectOperation (scope : ResolutionId) (context : EffectContext) (effect : Effect) : Sim Unit := do
  let subject ← .ofExcept (okOr context.source (.invalidTransformation "play effect requires its source"))
  validatePlayScope scope subject
  executeScopedEffect context none (some scope) effect

end Effects

end HearthstoneSimulator

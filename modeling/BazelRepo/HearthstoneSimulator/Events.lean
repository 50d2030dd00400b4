import BazelRepo.HearthstoneSimulator.Movement
import BazelRepo.HearthstoneSimulator.Trigger
import BazelRepo.HearthstoneSimulator.Work

namespace HearthstoneSimulator

open Library

/-- An entity in Play that was found mortally wounded, as it was before anything was removed. -/
structure MortallyWounded where
  playOrder : Nat
  id : GameEntityId
  controller : PlayerId
  kind : EntityKind
  zonePosition : Nat

def MortallyWounded.record (wounded : MortallyWounded) (ordinal : Nat) (turn : UInt32) : DeathRecord :=
  { entity := wounded.id
    controller := wounded.controller
    kind := wounded.kind
    playOrder := wounded.playOrder
    rememberedZonePosition := wounded.zonePosition
    simultaneousOrdinal := ordinal
    turnOfDeath := turn }

namespace World

def isMortallyWounded (world : World) (id : GameEntityId) : Bool :=
  world.has id fun components =>
    (if components.kind = some .weapon then
      components.weaponState.any fun state => state.durability ≤ 0
    else
      match components.currentStats, components.damage with
      | some stats, some damage => stats.maximumHealth ≤ damage
      | _, _ => false) || components.pendingDestroy

def mortallyWounded (world : World) (id : GameEntityId) : Option MortallyWounded :=
  match world.get id (·.kind), world.get id (·.controller) with
  | some kind, some controller =>
    if world.get id (·.zone) = some .play ∧ world.isMortallyWounded id = true then
      some
        { playOrder := (world.get id (·.playOrder)).getD 0
          id := id
          controller := controller
          kind := kind
          zonePosition := (world.semanticZonePosition id controller .play).getD
            ((world.get id (·.zonePosition)).getD 0) }
    else
      none
  | _, _ => none

/-- A hero found mortally wounded is defeated for good, and stays in Play. -/
def defeatHero (world : World) (wounded : MortallyWounded) : World :=
  if wounded.controller ∈ world.defeatedHeroes then
    world
  else
    { world with
      defeatedHeroes := insert wounded.controller world.defeatedHeroes
      canonicalTrace := world.canonicalTrace ++ [.heroDefeated wounded.id wounded.controller] }

section Deaths

variable [QueryOrder]

def removeDying (turn : UInt32) (removed : World × List DeathRecord) (dying : MortallyWounded × Nat) :
    World × List DeathRecord :=
  let wounded := dying.1
  match removed.1.moveEntityWithRequest ⟨wounded.id, wounded.controller, .graveyard, none, .death⟩ with
  | (moved, .ok _) =>
    let buried := moved.modify wounded.id fun components => { components with pendingDestroy := false }
    ({ buried with canonicalTrace := buried.canonicalTrace ++ [.entityDied wounded.id] },
      removed.2 ++ [wounded.record dying.2 turn])
  | (moved, .error _) => (moved, removed.2)

/-- Who dies, and what is remembered of it, is settled before anything is removed. -/
def dyingEntities (world : World) : List MortallyWounded :=
  sortByKey (fun wounded : MortallyWounded => (toLex (wounded.playOrder, wounded.id) : ℕ ×ₗ ℕ))
    (((QueryOrder.iterEntities world).filterMap world.mortallyWounded).filter fun wounded => isMortal wounded.kind)

def createDeaths (world : World) : World :=
  let wounded := (QueryOrder.iterEntities world).filterMap world.mortallyWounded
  let defeated := (wounded.filter fun wounded => wounded.kind = .hero).foldl defeatHero world
  let removed := world.dyingEntities.zipIdx.foldl (removeDying world.gameState.turnNumber) (defeated, [])
  { removed.1 with
    deathEventCache := removed.1.deathEventCache ++ removed.2
    pendingDeaths := removed.1.pendingDeaths ++ removed.2 }

def resolvePhaseBoundary (world : World) : World :=
  world.refreshHealthAttackAuras.refreshHealthAttackAuras.createDeaths.refreshPostDeathAuras

end Deaths

def orderedDeaths (deaths : List DeathRecord) : List DeathRecord :=
  (sortByKey (fun record : DeathRecord => (toLex (record.playOrder, record.entity) : ℕ ×ₗ ℕ)) deaths).zipIdx.map
    fun numbered => { numbered.1 with simultaneousOrdinal := numbered.2 }

def takePendingDeaths (world : World) : World × List DeathRecord :=
  ({ world with pendingDeaths := [] }, orderedDeaths world.pendingDeaths)

end World

def eventContext (kind : EventKind) (source : Option GameEntityId) (targets : List GameEntityId) (controller : PlayerId) :
    EventContext :=
  { kind := kind
    source := source
    targets := targets
    controller := controller
    proposedValue := none
    actualValue := none
    simultaneousOrdinal := 0 }

def recordEvent (context : EventContext) (precheckedTriggers : Option (List TriggerSeed)) : Sim EventId := do
  let event ← allocateEventId
  trace (.eventCreated event context.kind context.source context.targets context.proposedValue context.actualValue)
  .change (·.withWork fun work =>
    { work with events := work.events.insert event ⟨context, precheckedTriggers, none⟩ })
  pure event

def prepareEvent (context : EventContext) : Sim EventId :=
  recordEvent context none

def prepareEventWithSeeds (context : EventContext) (seeds : List TriggerSeed) : Sim EventId :=
  recordEvent context (some seeds)

def takePreparedEvent (event : EventId) : Sim PreparedEvent := do
  let world ← .read
  .change (·.withWork fun work => { work with events := work.events.erase event })
  .ofExcept (okOr world.work.events[event]? (.resolution (.missingEvent event)))

def effectOps (context : EffectContext) (event : Option EventId) (playScope : Option ResolutionId)
    (effects : List Effect) : List ResolutionOp :=
  effects.map fun effect =>
    match playScope with
    | some scope => .runPlayEffect scope context effect
    | none => .runEffect context effect event

def pushScopedEffects (context : EffectContext) (effects : List Effect) (event : Option EventId)
    (playScope : Option ResolutionId) : Sim Unit :=
  pushResolutionOps (effectOps context event playScope effects)

def pushEffects (context : EffectContext) (effects : List Effect) (event : Option EventId) : Sim Unit :=
  pushScopedEffects context effects event none

def EventKind.isProposed : EventKind → Bool
  | .proposedDamage | .proposedHealing => true
  | _ => false

section Triggers

variable [QueryOrder]

def preparePrecheckedEvent (context : EventContext) : Sim EventId := do
  let world ← .read
  recordEvent context (some (world.collectTriggerSeeds context))

/-- The candidates of an event, which are collected when it first resolves and kept from then on. -/
def eventCandidates (event : EventId) (prepared : PreparedEvent) : Sim (List TriggerCandidate) := do
  match prepared.candidates with
  | some candidates => pure candidates
  | none => do
    let world ← .read
    let seeds := prepared.precheckedTriggers.getD (world.collectTriggerSeeds prepared.context)
    let candidates := world.collectTriggerCandidates event prepared.context seeds
    .change (·.withWork fun work =>
      { work with events := work.events.insert event { prepared with candidates := some candidates } })
    trace (.triggerSnapshot event candidates)
    pure candidates

def expandEvent (event : EventId) : Sim Unit := do
  let world ← .read
  let prepared ← .ofExcept (okOr world.work.events[event]? (.resolution (.missingEvent event)))
  let candidates ← eventCandidates event prepared
  pushResolutionOps (candidates.map .attemptTrigger ++
    if prepared.context.kind.isProposed then [] else [.finishEvent event])

def attemptTrigger (attempt : ResolutionId) (candidate : TriggerCandidate) : Sim Unit := do
  let world ← .read
  let event ← .ofExcept (okOr (world.work.events[candidate.event]?.map PreparedEvent.context)
    (.resolution (.missingEvent candidate.event)))
  if world.triggerIsEligible candidate event .resolutionTime then do
    let context : EffectContext :=
      { source := if (world.entities[candidate.source]?).isSome then some candidate.source else none
        controller := candidate.controller
        declaredTarget := event.targets.head?
        drawnCard := none
        origin := .other }
    let _ ← pushResolutionOp (.finishTrigger attempt candidate.source)
    pushEffects context candidate.definition.effectProgram (some candidate.event)
  else
    trace (.triggerAborted attempt candidate.source)

def prepareDeathEvent (record : DeathRecord) : Sim EventId :=
  preparePrecheckedEvent
    { eventContext .death (some record.entity) [record.entity] record.controller with
      simultaneousOrdinal := record.simultaneousOrdinal }

def runPhaseBoundary : Sim Unit := do
  .change (·.resolvePhaseBoundary)
  let deaths ← .changing (·.takePendingDeaths)
  if deaths.isEmpty then
    pure ()
  else do
    trace (.deathPhaseQueued (deaths.map DeathRecord.entity))
    let events ← deaths.mapM prepareDeathEvent
    pushResolutionOps (events.map .resolveEvent ++ [.runPhaseBoundary .forcedDeath])

end Triggers

def finishPlayedSelfTransform (scope : ResolutionId) (subject : GameEntityId) (originalAfterPlay : List TriggerSeed) :
    Sim Unit := do
  validatePlayScope scope subject
  .change (·.withWork fun work => { work with playScopes := work.playScopes.erase scope })
  let world ← .read
  if subject ∈ world.work.pendingPlayedSelfTransforms then do
    .change (·.withWork fun work =>
      { work with pendingPlayedSelfTransforms := work.pendingPlayedSelfTransforms.filter (· ≠ subject) })
    let controller ← .ofExcept (okOr (world.get subject (·.controller)) (.entityNotFound subject))
    let insertedEvent ← prepareEvent (eventContext .afterPlayAndSummon (some subject) [subject] controller)
    let originalAfterPlayEvent ←
      prepareEventWithSeeds (eventContext .afterPlay (some subject) [subject] controller) originalAfterPlay
    pushResolutionOps [.resolveEvent insertedEvent, .runPhaseBoundary .ordinary, .resolveEvent originalAfterPlayEvent]
  else
    pure ()

def resolveEventSlot (slot : EventSlotId) : Sim Unit := do
  let world ← .read
  .change (·.withWork fun work => { work with eventSlots := work.eventSlots.erase slot })
  let prepared ← .ofExcept (okOr world.work.eventSlots[slot]? (.resolution (.missingEventSlot slot)))
  match prepared.event with
  | none => pure ()
  | some event => do
    let _ ← pushResolutionOp (.resolveEvent event)
    pure ()

def requestChoice (request : ChoiceRequest) : Sim Unit := do
  .change (·.withWork fun work => { work with pendingChoice := some ⟨request⟩ })
  .change (·.withStatus .awaitingChoice)
  trace (.choiceRequested request.id request.player)

end HearthstoneSimulator

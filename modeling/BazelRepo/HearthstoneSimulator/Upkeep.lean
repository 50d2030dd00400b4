import BazelRepo.HearthstoneSimulator.BoardPosition
import BazelRepo.HearthstoneSimulator.Simulation

namespace HearthstoneSimulator

open Library

def ResolutionOp.resolvedEvent : ResolutionOp → Option EventId
  | .resolveEvent event => some event
  | _ => none

/-- An operation that brings nothing of its own but its context: no event, scope, weapon, payer or slot. -/
def ResolutionOp.IsEffect : ResolutionOp → Prop
  | .runEffect _ _ event => event = none
  | _ => False

def SequenceStep.Common : SequenceStep → Prop
  | .consumeDurability _ _ | .prepareCombatDamage .. | .attack .. => False
  | _ => True

def ResolutionOp.Common : ResolutionOp → Prop
  | .runSequenceStep step | .runGuardedSequenceStep _ step => step.Common
  | .resolveEventSlot _ | .attemptTrigger _ | .processDamage .. | .applyDamage .. | .processHealing ..
  | .applyHealing .. | .finishPlayedSelfTransform .. => False
  | .requestChoice request => ∀ option ∈ request.options, ∀ operation ∈ option.operations, operation.IsEffect
  | _ => True

/-- What else differs is nothing that entities hold or operations wait for. -/
structure Aside (world other : World) : Prop where
  entities : other.entities = world.entities
  zoneIndex : other.zoneIndex = world.zoneIndex
  ruleset : other.ruleset = world.ruleset
  weaponEquipment : other.weaponEquipment = world.weaponEquipment
  nextGameEntityId : other.nextGameEntityId = world.nextGameEntityId
  nativeEffectRegistry : other.nativeEffectRegistry = world.nativeEffectRegistry
  work : other.work = world.work
  playOrderCounter : world.playOrderCounter ≤ other.playOrderCounter
  defeatedHeroes : world.defeatedHeroes ⊆ other.defeatedHeroes

theorem World.aside_allocatePlayOrder (world : World) : Aside world world.allocatePlayOrder.1 :=
  ⟨rfl, rfl, rfl, rfl, rfl, rfl, rfl, Nat.le_succ _, subset_rfl⟩

/-- Neither the stack, the budget, the slots nor the choice differ, and the events that are left are of the same kind, with the
same triggers. -/
structure Tidy (work other : ResolutionWork) : Prop where
  stack : other.stack = work.stack
  remainingBudget : other.remainingBudget = work.remainingBudget
  nextResolutionId : other.nextResolutionId = work.nextResolutionId
  nextEventId : other.nextEventId = work.nextEventId
  nextEventSlotId : other.nextEventSlotId = work.nextEventSlotId
  eventSlots : other.eventSlots = work.eventSlots
  pendingChoice : other.pendingChoice = work.pendingChoice
  events : ∀ (event : EventId) (prepared : PreparedEvent), other.events[event]? = some prepared →
    ∃ before : PreparedEvent, work.events[event]? = some before ∧ prepared.context.kind = before.context.kind ∧
      prepared.precheckedTriggers = before.precheckedTriggers ∧ prepared.candidates = before.candidates

theorem Tidy.of_events {work other : ResolutionWork} (stack : other.stack = work.stack)
    (remainingBudget : other.remainingBudget = work.remainingBudget)
    (nextResolutionId : other.nextResolutionId = work.nextResolutionId)
    (nextEventId : other.nextEventId = work.nextEventId)
    (nextEventSlotId : other.nextEventSlotId = work.nextEventSlotId)
    (eventSlots : other.eventSlots = work.eventSlots) (pendingChoice : other.pendingChoice = work.pendingChoice)
    (events : other.events = work.events) : Tidy work other := by
  refine ⟨stack, remainingBudget, nextResolutionId, nextEventId, nextEventSlotId, eventSlots, pendingChoice, ?_⟩
  intro event prepared found
  rw [events] at found
  exact ⟨prepared, found, rfl, rfl, rfl⟩

/-- The components that decide where an entity is, what it can do and what its stats are calculated from. -/
def Components.vital (components : Components) : Components :=
  { components with
    playOrder := none
    damage := none
    armor := none
    pendingDestroy := false
    keywords := none
    attackState := none
    heroPowerState := none
    heroClass := none }

def Tweaks (change : Components → Components) : Prop :=
  ∀ components, (change components).vital = components.vital

theorem tweaks_loseShield : Tweaks World.loseShield :=
  fun _ => rfl

theorem tweaks_heroPower (order : Nat) : Tweaks fun components =>
    { components with heroPowerState := some ⟨0, false⟩, playOrder := some order } :=
  fun _ => rfl

theorem tweaks_playOrder (order : Nat) : Tweaks fun components => { components with playOrder := some order } :=
  fun _ => rfl

theorem tweaks_hurt (proposed : Int32) : Tweaks fun components => (components.hurt proposed).1 :=
  fun _ => rfl

theorem tweaks_healed (proposed : Int32) : Tweaks fun components => (components.healed proposed).1 := by
  intro components
  show (components.healed proposed).1.vital = components.vital
  unfold Components.healed
  split
  · rfl
  · rfl

namespace World

theorem damagePassesProtection_cases {world other : World} {request : DamageRequest} {passes : Bool}
    (outcome : world.damagePassesProtection request = some (other, passes)) :
    other = world ∨ other = world.modify request.target loseShield := by
  unfold damagePassesProtection at outcome
  split at outcome
  · cases outcome
    exact .inl rfl
  · split at outcome
    · cases outcome
    · split at outcome
      · cases outcome
        exact .inl rfl
      · split at outcome
        · cases outcome
          exact .inr rfl
        · cases outcome
          exact .inl rfl

def scheduled (world : World) (operations : List ResolutionOp) : World :=
  world.withWork fun work => operations.foldr (fun operation work => work.push operation) work

def recorded (world : World) (context : EventContext) (precheckedTriggers : Option (List TriggerSeed)) : World :=
  ((world.withWork fun work => { work with nextEventId := work.nextEventId + 1 }).trace
    (.eventCreated world.work.nextEventId context.kind context.source context.targets context.proposedValue
      context.actualValue)).withWork fun work =>
        { work with events := work.events.insert world.work.nextEventId ⟨context, precheckedTriggers, none⟩ }

end World

theorem effectOps_common {context : EffectContext} {event : Option EventId} {playScope : Option ResolutionId}
    {effects : List Effect} : ∀ operation ∈ effectOps context event playScope effects, operation.Common := by
  intro operation member
  rcases List.mem_map.mp member with ⟨effect, _, rfl⟩
  cases playScope with
  | none => exact True.intro
  | some scope => exact True.intro

theorem effectOps_eventless {context : EffectContext} {event : Option EventId} {playScope : Option ResolutionId}
    {effects : List Effect} :
    ∀ operation ∈ effectOps context event playScope effects, operation.resolvedEvent = none := by
  intro operation member
  rcases List.mem_map.mp member with ⟨effect, _, rfl⟩
  cases playScope with
  | none => rfl
  | some scope => rfl

theorem deathOps_common (events : List EventId) :
    ∀ operation ∈ events.map ResolutionOp.resolveEvent ++ [ResolutionOp.runPhaseBoundary .forcedDeath], operation.Common := by
  intro operation member
  rcases List.mem_append.mp member with queued | last
  · rcases List.mem_map.mp queued with ⟨event, _, rfl⟩
    exact True.intro
  · rw [List.mem_singleton.mp last]
    exact True.intro

theorem deathOps_events (events : List EventId) :
    (events.map ResolutionOp.resolveEvent ++ [ResolutionOp.runPhaseBoundary .forcedDeath]).filterMap ResolutionOp.resolvedEvent =
      events := by
  rw [List.filterMap_append, List.filterMap_map]
  show events.filterMap some ++ [] = events
  rw [List.filterMap_some, List.append_nil]

theorem validatePlayScope_maintains {I : List EventId → World → Prop} (scope : ResolutionId) (subject : GameEntityId) :
    Procedure.Maintains I (validatePlayScope scope subject) :=
  Procedure.Uses.read_bind fun _ => Procedure.Maintains.ofExcept _

theorem replacing_maintains {I : List EventId → World → Prop} {change : World → Except SimulationError World}
    (kept : ∀ {held world other}, change world = .ok other → I held world → I held other) :
    Procedure.Maintains I (replacing change) := by
  intro world held invariant
  unfold replacing
  cases result : change world with
  | error error => exact invariant
  | ok other => exact kept result invariant

theorem validateReplacementKinds_weapon {hero heroPower : Card} {weapon : Option Card} {health : HeroHealthPolicy}
    (valid : World.validateReplacementKinds hero heroPower weapon health = .ok ()) :
    ∀ card ∈ weapon, card.kind = .weapon := by
  intro card found
  subst found
  unfold World.validateReplacementKinds at valid
  split at valid
  · cases valid
  · split at valid
    · cases valid
    · split at valid
      · cases valid
      · rename_i none
        simpa using none

theorem validateHeroReplacement_weapon {world : World} {replacement : HeroReplacement}
    (valid : World.validateHeroReplacement world replacement = .ok ()) :
    ∀ card ∈ replacement.weapon, card.kind = .weapon := by
  cases replacement
  unfold World.validateHeroReplacement at valid
  rcases bind_eq_ok.mp valid with ⟨_, kinds, _⟩
  exact validateReplacementKinds_weapon kinds

section Admission

variable [QueryOrder]

/-- What keeps an invariant of the simulator: each thing that its operations do to a world, where they may schedule
the operations allowed and change players as granted. The tokens of the invariant are the events that were recorded
and that nothing yet resolves. -/
structure Admits (allowed : World → ResolutionOp → Prop) (granted : (Player → Player) → Prop)
    (I : List EventId → World → Prop) : Prop where
  forgets : Procedure.Forgets I
  aside : ∀ {held world other}, Aside world other → I held world → I held other
  tidy : ∀ {held} {world : World} {change}, Tidy world.work (change world.work) → I held world →
    I held (world.withWork change)
  common : ∀ {world} {operation : ResolutionOp}, operation.Common → allowed world operation
  push : ∀ {held world operations}, (∀ operation ∈ operations, allowed world operation) →
    I (operations.filterMap ResolutionOp.resolvedEvent ++ held) world → I held (world.scheduled operations)
  record : ∀ {held world context}, I held world → I (world.work.nextEventId :: held) (world.recorded context none)
  recordSeeds : ∀ {held world context}, I held world →
    I (world.work.nextEventId :: held) (world.recorded context (some (world.collectTriggerSeeds context)))
  move : ∀ {held world request}, I held world → I held (world.moveEntityWithRequest request).1
  spawn : ∀ {held world player card zone position}, I held world →
    I held (world.spawnCardAt player card zone position).1
  tweak : ∀ {held world id change}, Tweaks change → I held world → I held (world.modify id change)
  resources : ∀ {held world id change}, granted change → I held world →
    I held (world.modify id fun components => { components with player := components.player.map change })
  fatigued : granted fun player => { player with fatigue := player.fatigue + 1 }
  attachStat : ∀ {held world controller target modifier duration attached},
    world.attachStatModifier controller target modifier duration = .ok attached → I held world → I held attached.1
  attachKeyword : ∀ {held world controller target modifier duration attached},
    world.attachKeywordModifier controller target modifier duration = .ok attached → I held world → I held attached.1
  attachCost : ∀ {held world controller target modifier duration attached},
    world.attachCostModifier controller target modifier duration = .ok attached → I held world → I held attached.1
  attachContinuous : ∀ {held world controller target effect duration silenceRemovable attached},
    attachContinuousEffect world controller target effect duration silenceRemovable = .ok attached →
      I held world → I held attached.1
  attachTriggers : ∀ {held world controller target triggers duration silenceRemovable attached},
    attachTriggers world controller target triggers duration silenceRemovable = .ok attached →
      I held world → I held attached.1
  silence : ∀ {held world target other}, world.silenceEntity target = .ok other → I held world → I held other
  detachAll : ∀ {held world target}, I held world → I held (world.detachAllEnchantments target)
  transform : ∀ {held world target card kind other}, world.transformEntity target card kind = .ok other →
    I held world → I held other
  expire : ∀ {held world ending next}, I held world → I held (world.expireTemporaryEffects ending next)
  copy : ∀ {held world request snapshot playState spawned copy other},
    world.prepareCopy request = .ok (some snapshot) → snapshot.playState = some playState →
      world.spawnCardAt request.controller snapshot.card request.destination request.boardIndex = (spawned, .ok copy) →
        spawned.restorePlayCopyState copy request.controller playState = .ok other → I held world → I held other
  hero : ∀ {held} {world spawned : World} {player : PlayerId} {replacement : HeroReplacement} {stats : CurrentStats}
    {components : Components} {hero : GameEntityId},
    world.spawnCard player
      { replacement.hero with health := (replacement.health.resolve stats (components.damage.getD 0)).1 } .play =
        (spawned, .ok hero) → I held world →
          I held (spawned.allocatePlayOrder.1.modify hero
            (components.succeed stats replacement spawned.allocatePlayOrder.2))
  beginEquip : ∀ {held world player weapon}, world.get weapon (·.kind) = some .weapon →
    world.get weapon (·.controller) = some player → I held world → I held (world.beginEquip player weapon).1
  finishEquip : ∀ {held world weapon}, I held world → I held (world.finishEquip weapon).1
  refreshHealthAttack : ∀ {held world}, I held world → I held world.refreshHealthAttackAuras
  createDeaths : ∀ {held world}, I held world → I held world.createDeaths
  refreshPostDeath : ∀ {held world}, I held world → I held world.refreshPostDeathAuras
  refreshAll : ∀ {held world}, I held world → I held world.refreshAllAuras
  refreshPlayed : ∀ {held world provider}, I held world → I held (world.refreshPlayedProvider provider)

namespace Admits

open Procedure

variable {allowed : World → ResolutionOp → Prop} {granted : (Player → Player) → Prop}
  {I : List EventId → World → Prop} {given : List EventId} (admits : Admits allowed granted I)

include admits

theorem trace (entry : TraceEntry) : Maintains I (trace entry) :=
  .change fun _ _ => admits.aside ⟨rfl, rfl, rfl, rfl, rfl, rfl, rfl, le_rfl, subset_rfl⟩

theorem raise {α : Type} (error : SimulationError) : Uses I given (raise error : Sim α) :=
  .fail admits.forgets error

theorem pushResolutionOps_at {operations : List ResolutionOp} {world : World}
    (every : ∀ operation ∈ operations, allowed world operation)
    (events : operations.filterMap ResolutionOp.resolvedEvent = given) :
    UsesAt I given (pushResolutionOps operations) world := by
  subst events
  exact fun _ => admits.push every

theorem pushResolutionOps {operations : List ResolutionOp} (every : ∀ operation ∈ operations, operation.Common)
    (events : operations.filterMap ResolutionOp.resolvedEvent = given) :
    Uses I given (pushResolutionOps operations) :=
  fun _ => admits.pushResolutionOps_at (fun operation member => admits.common (every operation member)) events

theorem pushResolutionOp_at {operation : ResolutionOp} {world : World} (permitted : allowed world operation)
    (event : operation.resolvedEvent.toList = given) : UsesAt I given (pushResolutionOp operation) world := by
  subst event
  intro held invariant
  apply @admits.push held world [operation] (by simpa using permitted)
  cases event : operation.resolvedEvent with
  | none => simpa [event] using invariant
  | some event => simpa [event] using invariant

theorem pushResolutionOp {operation : ResolutionOp} (common : operation.Common)
    (event : operation.resolvedEvent.toList = given) : Uses I given (pushResolutionOp operation) :=
  fun _ => admits.pushResolutionOp_at (admits.common common) event

theorem pushEventless {operations : List ResolutionOp} (every : ∀ operation ∈ operations, operation.Common)
    (eventless : ∀ operation ∈ operations, operation.resolvedEvent = none) :
    Maintains I (HearthstoneSimulator.pushResolutionOps operations) :=
  admits.pushResolutionOps every (List.filterMap_eq_nil_iff.mpr eventless)

theorem pushResolveEvent (event : EventId) :
    Uses I [event] (HearthstoneSimulator.pushResolutionOp (.resolveEvent event) >>= fun _ => pure ()) :=
  Uses.bind_pure (admits.pushResolutionOp (by trivial) rfl)

theorem tidyWork {change : ResolutionWork → ResolutionWork} (tidy : ∀ work, Tidy work (change work)) :
    Maintains I (.change (·.withWork change) : Sim Unit) :=
  .change fun _ _ => admits.tidy (tidy _)

theorem tidyWith {α : Type} {change : ResolutionWork → ResolutionWork} {answer : World → α}
    (tidy : ∀ work, Tidy work (change work)) :
    Maintains I (.changing fun world => (world.withWork change, answer world) : Sim α) :=
  .changing fun _ _ => admits.tidy (tidy _)

theorem allocateDrawResultSlot : Maintains I allocateDrawResultSlot :=
  admits.tidyWith fun _ => .of_events rfl rfl rfl rfl rfl rfl rfl rfl

theorem fillDrawResultSlot (slot : DrawResultSlotId) (outcome : DrawOutcome) :
    Maintains I (fillDrawResultSlot slot outcome) := by
  apply Uses.read_bind
  intro world
  cases world.work.drawResultSlots[slot]? with
  | none => exact admits.raise _
  | some result =>
    dsimp only
    split
    · exact admits.raise _
    · exact admits.tidyWork fun _ => .of_events rfl rfl rfl rfl rfl rfl rfl rfl

theorem takeDrawResult (slot : DrawResultSlotId) : Maintains I (takeDrawResult slot) := by
  apply Uses.read_bind
  intro world
  apply Uses.bind admits.forgets
  · exact admits.tidyWork fun _ => .of_events rfl rfl rfl rfl rfl rfl rfl rfl
  · intro _
    cases world.work.drawResultSlots[slot]? with
    | none => exact admits.raise _
    | some result => exact Maintains.ofExcept _

theorem prepareEvent (context : EventContext) : Yields I (fun event => [event]) (prepareEvent context) :=
  fun _ _ => admits.record

theorem preparePrecheckedEvent (context : EventContext) :
    Yields I (fun event => [event]) (preparePrecheckedEvent context) :=
  fun _ _ => admits.recordSeeds

theorem takePreparedEvent (event : EventId) : Maintains I (takePreparedEvent event) := by
  apply Uses.read_bind
  intro world
  apply Uses.bind admits.forgets
  · apply admits.tidyWork
    intro work
    refine ⟨rfl, rfl, rfl, rfl, rfl, rfl, rfl, ?_⟩
    intro other prepared found
    rw [BTreeMap.getElem?_erase_eq] at found
    split at found
    · cases found
    · exact ⟨prepared, found, rfl, rfl, rfl⟩
  · intro _
    exact Maintains.ofExcept _

theorem pushScopedEffects (context : EffectContext) (effects : List Effect) (event : Option EventId)
    (playScope : Option ResolutionId) : Maintains I (pushScopedEffects context effects event playScope) :=
  admits.pushEventless effectOps_common effectOps_eventless

theorem attemptTrigger (attempt : ResolutionId) (candidate : TriggerCandidate) :
    Maintains I (attemptTrigger attempt candidate) := by
  apply Uses.read_bind
  intro world
  apply Uses.ofExcept_bind admits.forgets
  intro event _
  split
  · apply Uses.bind admits.forgets
    · exact admits.pushResolutionOp (by trivial) rfl
    · intro _
      exact admits.pushScopedEffects _ _ _ _
  · exact admits.trace _

theorem takePendingDeaths : Maintains I (.changing (·.takePendingDeaths) : Sim (List DeathRecord)) :=
  .changing fun _ _ => admits.aside ⟨rfl, rfl, rfl, rfl, rfl, rfl, rfl, le_rfl, subset_rfl⟩

theorem runPhaseBoundary : Maintains I runPhaseBoundary := by
  apply Uses.bind admits.forgets
  · apply Maintains.change
    intro held world invariant
    exact admits.refreshPostDeath (admits.createDeaths (admits.refreshHealthAttack (admits.refreshHealthAttack invariant)))
  intro _
  apply Uses.bind admits.forgets admits.takePendingDeaths
  intro deaths
  split
  · exact Uses.pure admits.forgets _
  · apply Uses.bind admits.forgets (admits.trace _)
    intro _
    apply Yields.bind admits.forgets (Yields.mapM admits.forgets (fun record => admits.preparePrecheckedEvent _) deaths)
    intro events
    rw [id, List.append_nil]
    exact admits.pushResolutionOps (deathOps_common events) (deathOps_events events)

theorem tweakBy {change : Components → Components} (tweaks : Tweaks change) (id : GameEntityId) :
    Maintains I (.change (·.modify id change) : Sim Unit) :=
  .change fun _ _ => admits.tweak tweaks

theorem passesProtection (request : DamageRequest) : Maintains I (passesProtection request) := by
  intro world
  apply UsesAt.read_bind
  cases found : world.damagePassesProtection request with
  | none => exact admits.raise _ world
  | some outcome =>
    apply UsesAt.bind admits.forgets
    · intro held invariant
      rcases World.damagePassesProtection_cases found with same | same
      · show I held outcome.1
        rwa [same]
      · show I held outcome.1
        rw [same]
        exact admits.tweak tweaks_loseShield invariant
    · intro _ _ _
      exact Uses.pure admits.forgets _ _

theorem reduceDamage (request : DamageRequest) (ordinal : Nat) : Maintains I (reduceDamage request ordinal) := by
  apply Uses.read_bind
  intro world
  cases world.entities[request.target]? with
  | none => exact admits.raise _
  | some components =>
    apply Uses.bind admits.forgets (admits.tweakBy (tweaks_hurt _) _)
    intro _
    apply Uses.bind admits.forgets (admits.trace _)
    intro _
    exact Uses.pure admits.forgets _

theorem reduceHealing (request : HealingRequest) (ordinal : Nat) : Maintains I (reduceHealing request ordinal) := by
  apply Uses.read_bind
  intro world
  cases world.entities[request.target]? with
  | none => exact admits.raise _
  | some components =>
    apply Uses.bind admits.forgets (admits.tweakBy (tweaks_healed _) _)
    intro _
    apply Uses.bind admits.forgets (admits.trace _)
    intro _
    exact Uses.pure admits.forgets _

theorem applyDamageNow (request : DamageRequest) (ordinal : Nat) : Maintains I (applyDamageNow request ordinal) := by
  apply Uses.bind admits.forgets (admits.passesProtection _)
  intro passes
  split
  · apply Uses.bind admits.forgets (admits.reduceDamage _ _)
    intro _
    exact Uses.pure admits.forgets _
  · exact admits.trace _

theorem applyDamageBatch (requests : List DamageRequest) (order : SimultaneousEventOrder) :
    Maintains I (applyDamageBatch requests order) := by
  apply Uses.read_bind
  intro world
  apply Uses.ofExcept_bind admits.forgets
  intro _ _
  split
  · apply Uses.bind admits.forgets
    · exact admits.pushResolutionOp (by trivial) rfl
    · intro _
      exact Uses.pure admits.forgets _
  · exact Maintains.forM admits.forgets fun _ _ => admits.applyDamageNow _ _

theorem applyHealingBatch (requests : List HealingRequest) (order : SimultaneousEventOrder) :
    Maintains I (applyHealingBatch requests order) := by
  apply Uses.read_bind
  intro world
  apply Uses.ofExcept_bind admits.forgets
  intro _ _
  split
  · apply Uses.bind admits.forgets
    · exact admits.pushResolutionOp (by trivial) rfl
    · intro _
      exact Uses.pure admits.forgets _
  · apply Maintains.forM admits.forgets
    intro numbered _
    apply Uses.bind admits.forgets (admits.reduceHealing _ _)
    intro _
    exact Uses.pure admits.forgets _

theorem changePlayer {change : Player → Player} (permitted : granted change) (id : PlayerId) :
    Maintains I (changePlayer id change) := by
  apply Uses.read_bind
  intro world
  apply Uses.ofExcept_bind admits.forgets
  intro entity _
  exact Maintains.change fun _ _ => admits.resources permitted

theorem moveEntityRequested (request : ZoneMoveRequest) : Maintains I (moveEntityRequested request) :=
  fun _ _ => admits.move

theorem drawCard (player : PlayerId) (card : GameEntityId) : Maintains I (drawCard player card) := by
  apply Uses.bind admits.forgets (admits.moveEntityRequested _)
  intro outcome
  cases outcome with
  | moved source _ _ | fullZoneRemoval source _ _ =>
    apply Uses.bind admits.forgets (admits.trace _)
    intro _
    exact Uses.pure admits.forgets _
  | preventedByFullZone => exact admits.raise _

theorem drawFatigue (player : PlayerId) : Maintains I (drawFatigue player) := by
  apply Uses.read_bind
  intro world
  apply Uses.ofExcept_bind admits.forgets
  intro found _
  split
  · exact admits.raise _
  · split
    · exact admits.raise _
    · apply Uses.bind admits.forgets (admits.changePlayer admits.fatigued _)
      intro _
      exact Uses.pure admits.forgets _

theorem drawNext (player : PlayerId) : Maintains I (drawNext player) := by
  apply Uses.read_bind
  intro world
  cases (world.zoneIndex player .deck).head? with
  | none => exact admits.drawFatigue _
  | some card => exact admits.drawCard _ _

theorem processDraw (request : DrawRequest) : Maintains I (processDraw request) := by
  apply Uses.bind admits.forgets (admits.drawNext _)
  intro outcome
  apply Uses.bind admits.forgets (admits.fillDrawResultSlot _ _)
  intro _
  apply Uses.bind admits.forgets (admits.trace _)
  intro _
  cases outcome with
  | drawn card =>
    apply Yields.bind admits.forgets (admits.prepareEvent _)
    exact fun event => admits.pushResolveEvent event
  | burned _ => exact Uses.pure admits.forgets _
  | fatigue amount =>
    apply Uses.read_bind
    intro world
    apply Uses.ofExcept_bind admits.forgets
    intro hero _
    exact admits.applyDamageBatch _ _

theorem announceSummoned (source : Option GameEntityId) (summoned : GameEntityId) (player : PlayerId) :
    Maintains I (announceSummoned source summoned player) := by
  apply Uses.read_bind
  intro world
  split
  · apply Yields.bind admits.forgets (admits.prepareEvent _)
    intro event
    exact admits.pushResolutionOps (by simp [ResolutionOp.Common]) rfl
  · exact Uses.pure admits.forgets _

theorem spawnCard (player : PlayerId) (card : Card) (zone : Zone) : Maintains I (spawnCard player card zone) :=
  fun _ _ => admits.spawn

theorem detachAllEnchantments (target : GameEntityId) : Maintains I (detachAllEnchantments target) :=
  .change fun _ _ => admits.detachAll

theorem allocatePlayOrder : Maintains I (.changing (·.allocatePlayOrder) : Sim Nat) :=
  .changing fun _ _ => admits.aside (World.aside_allocatePlayOrder _)

theorem moveOutOfPlay (id : GameEntityId) (player : PlayerId) (destination : Zone) :
    Maintains I (moveOutOfPlay id player destination) := by
  apply Uses.bind admits.forgets (admits.moveEntityRequested _)
  intro outcome
  cases outcome with
  | moved source _ _ => exact admits.trace _
  | fullZoneRemoval source _ _ => exact admits.raise _
  | preventedByFullZone => exact admits.raise _

theorem replacePower (player : PlayerId) (card : Card) : Maintains I (replacePower player card) := by
  apply Uses.read_bind
  intro world
  apply Uses.bind admits.forgets
  · apply Maintains.forM admits.forgets
    intro power _
    apply Uses.bind admits.forgets (admits.detachAllEnchantments _)
    exact fun _ => admits.moveOutOfPlay _ _ _
  · intro _
    apply Uses.bind admits.forgets (admits.spawnCard _ _ _)
    intro heroPower
    apply Uses.bind admits.forgets admits.allocatePlayOrder
    intro order
    apply Uses.bind admits.forgets (admits.tweakBy (tweaks_heroPower order) _)
    intro _
    exact Uses.pure admits.forgets _

theorem finishCopy_at {held : List EventId} {request : CopyRequest} {snapshot : CopySnapshot} {copy : GameEntityId}
    {world spawned : World} (prepared : world.prepareCopy request = .ok (some snapshot))
    (placed : world.spawnCardAt request.controller snapshot.card request.destination request.boardIndex =
      (spawned, .ok copy)) (invariant : I held world) :
    I held (finishCopy request snapshot copy spawned).1 := by
  have spawns : I held spawned := by
    have first := congrArg Prod.fst placed
    dsimp only at first
    rw [← first]
    exact admits.spawn invariant
  unfold finishCopy
  apply Maintains.after
  · cases state : snapshot.playState with
    | none => exact spawns
    | some playState =>
      unfold restoreCopy replacing
      dsimp only
      cases restored : spawned.restorePlayCopyState copy request.controller playState with
      | error error => exact spawns
      | ok other => exact admits.copy prepared state placed restored invariant
  · intro _
    apply Uses.bind admits.forgets (admits.trace _)
    intro _
    split
    · exact admits.announceSummoned _ _ _
    · exact Uses.pure admits.forgets _

theorem copyEntity (request : CopyRequest) : Maintains I (copyEntity request) := by
  intro world
  apply UsesAt.read_bind
  cases prepared : world.prepareCopy request with
  | error error => exact fun _ => admits.forgets.lose
  | ok found =>
    cases found with
    | none => exact fun _ => id
    | some snapshot =>
      intro held invariant
      simp only [Procedure.bind_apply, Procedure.ofExcept, Procedure.attempt]
      rcases placed : world.spawnCardAt request.controller snapshot.card request.destination request.boardIndex with
        ⟨spawned, error | copy⟩
      · have spawns : I held spawned := by
          have first := congrArg Prod.fst placed
          dsimp only at first
          rw [← first]
          exact admits.spawn invariant
        cases error with
        | zone error => cases error <;> exact spawns
        | _ => exact spawns
      · exact admits.finishCopy_at prepared placed invariant

theorem dispatchCopy (request : CopyRequest) : Maintains I (dispatchCopy request) := by
  apply Uses.read_bind
  intro world
  split
  · apply Uses.ofExcept_bind admits.forgets
    exact fun _ _ => admits.copyEntity _
  · exact admits.copyEntity _

theorem beginEquip_at {player : PlayerId} {weapon : GameEntityId} {world : World}
    (armed : world.get weapon (·.kind) = some .weapon) (owned : world.get weapon (·.controller) = some player) :
    UsesAt I [] (HearthstoneSimulator.beginEquip player weapon) world :=
  fun _ => admits.beginEquip armed owned

theorem equipReplacementWeapon (player : PlayerId) {weapon : Option Card}
    (armed : ∀ card ∈ weapon, card.kind = .weapon) : Maintains I (equipReplacementWeapon player weapon) := by
  cases weapon with
  | none => exact Uses.pure admits.forgets _
  | some card =>
    intro world
    apply (admits.spawnCard _ _ _ world).bind admits.forgets
    intro weapon spawned placed
    have kind : spawned.get weapon (·.kind) = some card.kind := World.get_spawnCardAt (fun _ _ => rfl) placed
    have controller : spawned.get weapon (·.controller) = some player := World.get_spawnCardAt (fun _ _ => rfl) placed
    rw [armed card rfl] at kind
    apply (admits.beginEquip_at kind controller).bind admits.forgets
    intro _ equipped _
    apply admits.pushEventless
    · simp [ResolutionOp.Common, SequenceStep.Common]
    · simp [ResolutionOp.resolvedEvent]

theorem succeedHero {β : Type} {player : PlayerId} {replacement : HeroReplacement} {stats : CurrentStats}
    {components : Components} {rest : GameEntityId → Sim β} (every : ∀ hero, Maintains I (rest hero)) :
    Maintains I (do
      let hero ← HearthstoneSimulator.spawnCard player
        { replacement.hero with health := (replacement.health.resolve stats (components.damage.getD 0)).1 } .play
      let order ← .changing (·.allocatePlayOrder)
      .change (·.modify hero (components.succeed stats replacement order))
      rest hero) := by
  intro world held invariant
  rw [Procedure.bind_apply]
  rcases placed : HearthstoneSimulator.spawnCard player
    { replacement.hero with health := (replacement.health.resolve stats (components.damage.getD 0)).1 } .play world with
    ⟨spawned, error | hero⟩
  · have first := congrArg Prod.fst placed
    dsimp only at first ⊢
    rw [← first]
    exact admits.spawn invariant
  · exact every hero _ held (admits.hero placed invariant)

theorem replaceHero (player : PlayerId) (replacement : HeroReplacement) :
    Maintains I (replaceHero player replacement) := by
  apply Uses.read_bind
  intro world
  apply Uses.ofExcept_bind admits.forgets
  intro _ valid
  apply Uses.ofExcept_bind admits.forgets
  intro previous _
  apply Uses.ofExcept_bind admits.forgets
  intro components _
  apply Uses.ofExcept_bind admits.forgets
  intro stats _
  apply Uses.bind admits.forgets (admits.detachAllEnchantments _)
  intro _
  apply Uses.bind admits.forgets (admits.moveOutOfPlay _ _ _)
  intro _
  apply admits.succeedHero
  intro hero
  apply Uses.read_bind
  intro world
  apply Uses.bind admits.forgets (admits.replacePower _ _)
  intro heroPower
  apply Uses.bind admits.forgets (admits.equipReplacementWeapon _ (validateHeroReplacement_weapon valid))
  intro _
  apply Uses.bind admits.forgets (admits.trace _)
  exact fun _ => admits.trace _

end Admits

end Admission

end HearthstoneSimulator

import BazelRepo.HearthstoneSimulator.EffectUpkeep
import BazelRepo.HearthstoneSimulator.LegalActions

namespace HearthstoneSimulator

open Library

def SequenceStep.Special : SequenceStep → Prop
  | .consumeDurability .. | .prepareCombatDamage .. | .attack .. | .playCard .. | .useHeroPower .. | .startTurn .. => True
  | _ => False

def ResolutionOp.step : ResolutionOp → Option SequenceStep
  | .runSequenceStep step | .runGuardedSequenceStep _ step => some step
  | _ => none

def ResolutionOp.gains : ResolutionOp → Option (PlayerId × Int32 × Bool)
  | .runEffect context (.gainResource player amount temporary) _
  | .runPlayEffect _ context (.gainResource player amount temporary) =>
    some (resolvePlayer context.controller player, amount, temporary)
  | _ => none

def ResolutionOp.Own : ResolutionOp → Prop
  | .resolveEvent _ | .resolveEventSlot _ | .processDamageBatch _ | .processDamage .. | .applyDamage ..
  | .processHealingBatch _ | .processHealing .. | .applyHealing .. | .finishPlayedSelfTransform ..
  | .requestChoice _ => True
  | _ => False

def spent (amount : Int32) (player : Player) : Player :=
  { player with
    usedResources := player.usedResources + max amount 0
    resourcesSpent := player.resourcesSpent + max amount 0 }

def refreshed (maximum : Int32) (player : Player) : Player :=
  { player with
    maximumResources := min (player.maximumResources + 1) maximum
    usedResources := 0
    temporaryResources := 0
    lockedOverload := player.pendingOverload
    pendingOverload := 0 }

theorem tweaks_attackState (change : AttackState → AttackState) : Tweaks fun components =>
    { components with attackState := components.attackState.map change } :=
  fun _ => rfl

theorem tweaks_refresh : Tweaks fun components =>
    { components with
      attackState := components.attackState.map fun _ => ⟨0, false⟩
      heroPowerState := components.heroPowerState.map fun _ => ⟨0, false⟩ } :=
  fun _ => rfl

theorem tweaks_heroPowerState (change : HeroPowerState → HeroPowerState) : Tweaks fun components =>
    { components with heroPowerState := components.heroPowerState.map change } :=
  fun _ => rfl

namespace World

theorem get_modify {α : Type} {component : Components → Option α} {change : Components → Components}
    (kept : ∀ components, component (change components) = component components) (world : World) (id a : GameEntityId) :
    (world.modify id change).get a component = world.get a component := by
  unfold World.get
  rw [entities_modify, Option.bind_map]
  congr 1
  funext components
  show component (if a = id then change components else components) = component components
  split
  · exact kept components
  · rfl

end World

def weaponOps (player : PlayerId) (weapon : GameEntityId) (target : Option GameEntityId) (runtime : CardRuntime)
    (after : EventId) : List ResolutionOp :=
  let event := eventContext .afterPlay (some weapon) [weapon] player
  [.prepareEvent { event with kind := .cardPlayed, targets := target.toList }] ++
    effectOps ⟨some weapon, player, target, none, .other⟩ none none runtime.program ++
    [.prepareEvent { event with kind := .weaponEquipped }, .runSequenceStep (.finishEquip weapon),
      .runPhaseBoundary .ordinary, .resolveEvent after]

theorem weaponOps_common (player : PlayerId) (weapon : GameEntityId) (target : Option GameEntityId)
    (runtime : CardRuntime) (after : EventId) :
    ∀ operation ∈ weaponOps player weapon target runtime after, operation.Common := by
  intro operation member
  rcases List.mem_append.mp member with front | back
  · rcases List.mem_append.mp front with first | effect
    · rw [List.mem_singleton.mp first]
      trivial
    · exact effectOps_common operation effect
  · simp only [List.mem_cons, List.not_mem_nil, or_false] at back
    rcases back with rfl | rfl | rfl | rfl <;> trivial

theorem weaponOps_events (player : PlayerId) (weapon : GameEntityId) (target : Option GameEntityId)
    (runtime : CardRuntime) (after : EventId) :
    (weaponOps player weapon target runtime after).filterMap ResolutionOp.resolvedEvent = [after] := by
  unfold weaponOps
  rw [List.filterMap_append, List.filterMap_append, List.filterMap_eq_nil_iff.mpr effectOps_eventless]
  rfl

theorem playOps_common {player : PlayerId} {card : GameEntityId} {target : Option GameEntityId} {kind : EntityKind}
    {playScope : Option ResolutionId} {program : List Effect} :
    ∀ operation ∈ playOps player card target kind playScope program, operation.Common := by
  intro operation member
  rcases List.mem_cons.mp member with rfl | rest
  · trivial
  · rcases List.mem_append.mp rest with summoned | effect
    · split at summoned
      · simp only [List.mem_cons, List.not_mem_nil, or_false] at summoned
        rcases summoned with rfl | rfl <;> trivial
      · cases summoned
    · exact effectOps_common operation effect

theorem playOps_eventless {player : PlayerId} {card : GameEntityId} {target : Option GameEntityId} {kind : EntityKind}
    {playScope : Option ResolutionId} {program : List Effect} :
    ∀ operation ∈ playOps player card target kind playScope program, operation.resolvedEvent = none := by
  intro operation member
  rcases List.mem_cons.mp member with rfl | rest
  · rfl
  · rcases List.mem_append.mp rest with summoned | effect
    · split at summoned
      · simp only [List.mem_cons, List.not_mem_nil, or_false] at summoned
        rcases summoned with rfl | rfl <;> rfl
      · cases summoned
    · exact effectOps_eventless operation effect

def powerOps (context : EffectContext) (power : GameEntityId) (runtime : CardRuntime) (afterUse : EventId) :
    List ResolutionOp :=
  effectOps context none none runtime.program ++
    [.runSequenceStep (.finishHeroPower power), .runPhaseBoundary .ordinary, .resolveEvent afterUse]

theorem powerOps_common (context : EffectContext) (power : GameEntityId) (runtime : CardRuntime) (afterUse : EventId) :
    ∀ operation ∈ powerOps context power runtime afterUse, operation.Common := by
  intro operation member
  rcases List.mem_append.mp member with effect | back
  · exact effectOps_common operation effect
  · simp only [List.mem_cons, List.not_mem_nil, or_false] at back
    rcases back with rfl | rfl | rfl <;> trivial

theorem powerOps_events (context : EffectContext) (power : GameEntityId) (runtime : CardRuntime) (afterUse : EventId) :
    (powerOps context power runtime afterUse).filterMap ResolutionOp.resolvedEvent = [afterUse] := by
  unfold powerOps
  rw [List.filterMap_append, List.filterMap_eq_nil_iff.mpr effectOps_eventless]
  rfl

theorem World.aside_checkOutcome (world : World) : Aside world world.checkOutcome := by
  unfold World.checkOutcome
  split
  · exact .refl world
  · dsimp only
    split
    · exact .refl world
    · exact ⟨rfl, rfl, rfl, rfl, rfl, rfl, rfl, le_rfl, subset_rfl⟩

section Admission

variable [QueryOrder]

theorem changePlayer_ok {player : PlayerId} {change : Player → Player} {world other : World}
    (done : changePlayer player change world = (other, .ok ())) :
    ∃ entity, other = world.modify entity fun components => { components with player := components.player.map change } := by
  unfold changePlayer at done
  rw [Procedure.read_bind] at done
  cases found : world.playerEntity player with
  | none =>
    rw [found] at done
    cases (Prod.ext_iff.mp done).2
  | some entity =>
    rw [found] at done
    exact ⟨entity, (Prod.ext_iff.mp done).1.symm⟩

theorem spendResources_get {α : Type} {component : Components → Option α}
    (kept : ∀ components player, component { components with player := player } = component components)
    {player : PlayerId} {amount : Int32} {world other : World} {answer : Unit}
    (done : spendResources player amount world = (other, .ok answer)) (a : GameEntityId) :
    other.get a component = world.get a component := by
  rcases Procedure.bind_eq_ok_iff.mp done with ⟨paid, _, pays, traced⟩
  rcases changePlayer_ok pays with ⟨entity, same⟩
  have last : other = paid.trace _ := (Prod.ext_iff.mp traced).1.symm
  rw [last]
  show paid.get a component = _
  rw [same]
  exact World.get_modify (fun _ => kept _ _) world entity a

end Admission

section Admission

variable [QueryOrder]

namespace Admits

open Procedure

variable {allowed : World → ResolutionOp → Prop} {granted : (Player → Player) → Prop}
  {I : List EventId → World → Prop} {given : List EventId} (admits : Admits allowed granted I)

include admits

theorem spendResources {amount : Int32} (permitted : granted (spent amount)) (player : PlayerId) :
    Maintains I (spendResources player amount) := by
  apply Uses.bind admits.forgets (admits.changePlayer permitted _)
  exact fun _ => admits.trace _

theorem removeKeyword {held : List EventId} {keyword : Keyword} {controller : PlayerId} {world other : World}
    {target : GameEntityId} (removed : World.removeKeyword keyword controller world target = .ok other)
    (invariant : I held world) : I held other := by
  rcases bind_eq_ok.mp removed with ⟨attached, attaches, same⟩
  rw [← Except.ok.inj same]
  exact admits.attachKeyword attaches invariant

theorem breakAttackStealth (attacker : GameEntityId) : Maintains I (replacing (·.breakAttackStealth attacker)) := by
  apply replacing_maintains
  intro held world other broken invariant
  unfold World.breakAttackStealth at broken
  split at broken
  · cases broken
    exact invariant
  · split at broken
    · cases broken
      exact invariant
    · rcases bind_eq_ok.mp broken with ⟨controller, _, removed⟩
      exact admits.removeKeyword removed invariant

theorem thawCharacters (player : PlayerId) : Maintains I (replacing (·.thawCharacters player)) := by
  apply replacing_maintains
  intro held world other thawed invariant
  unfold World.thawCharacters at thawed
  generalize world.thawing player = targets at thawed
  induction targets generalizing world with
  | nil =>
    cases thawed
    exact invariant
  | cons target rest ih =>
    rw [List.foldlM_cons] at thawed
    rcases bind_eq_ok.mp thawed with ⟨middle, removed, others⟩
    exact ih (admits.removeKeyword removed invariant) others

theorem finishAttack (player : PlayerId) (attacker defender : GameEntityId) :
    Maintains I (finishAttack player attacker defender) := by
  apply Uses.bind admits.forgets (admits.tweakBy (tweaks_attackState _) _)
  intro _
  apply admits.pushEventless
  · simp [ResolutionOp.Common]
  · simp [ResolutionOp.resolvedEvent]

theorem finishHeroPower (power : GameEntityId) : Maintains I (.change (·.finishHeroPower power) : Sim Unit) := by
  apply Maintains.change
  intro held world invariant
  unfold World.finishHeroPower
  split
  · exact admits.tweak (tweaks_heroPowerState _) invariant
  · exact invariant

theorem endTurn (player : PlayerId) : Maintains I (endTurn player) := by
  apply admits.pushEventless
  · simp [ResolutionOp.Common, SequenceStep.Common]
  · simp [ResolutionOp.resolvedEvent]

theorem advanceTurn (ending : PlayerId) : Maintains I (advanceTurn ending) := by
  apply Uses.read_bind
  intro world
  split
  · exact Uses.pure admits.forgets _
  · apply Uses.bind admits.forgets
    · exact .change fun _ _ => admits.aside ⟨rfl, rfl, rfl, rfl, rfl, rfl, rfl, le_rfl, subset_rfl⟩
    · intro _
      apply Uses.bind admits.forgets
      · exact .change fun _ _ => admits.expire
      · intro _
        apply admits.pushEventless
        · simp [ResolutionOp.Common, SequenceStep.Common]
        · simp [ResolutionOp.resolvedEvent]

theorem refreshTurnEntities {held : List EventId} (entities : List GameEntityId) {world : World}
    (invariant : I held world) : I held (entities.foldl World.refreshTurnEntity world) := by
  induction entities generalizing world with
  | nil => exact invariant
  | cons id rest ih => exact ih (admits.tweak tweaks_refresh invariant)

theorem startTurn (permitted : ∀ maximum, granted (refreshed maximum)) (player : PlayerId) (kind : ScheduledTurnKind) :
    Maintains I (startTurn player kind) := by
  apply Uses.read_bind
  intro world
  apply Uses.bind admits.forgets
  · exact .change fun _ _ => admits.aside ⟨rfl, rfl, rfl, rfl, rfl, rfl, rfl, le_rfl, subset_rfl⟩
  intro _
  apply Uses.bind admits.forgets (admits.changePlayer (permitted _) _)
  intro _
  apply Uses.bind admits.forgets
  · exact .change fun _ _ invariant => admits.refreshTurnEntities _ invariant
  intro _
  apply Uses.read_bind
  intro world
  apply Uses.bind admits.forgets (admits.trace _)
  intro _
  apply admits.pushEventless
  · simp [ResolutionOp.Common]
  · simp [ResolutionOp.resolvedEvent]

theorem playWeapon_at {player : PlayerId} {weapon : GameEntityId} {target : Option GameEntityId}
    {runtime : CardRuntime} {world : World} (permitted : granted (spent runtime.cost))
    (armed : world.get weapon (·.kind) = some .weapon) (owned : world.get weapon (·.controller) = some player) :
    UsesAt I [] (playWeapon player weapon target runtime) world := by
  intro held invariant
  let event := eventContext .afterPlay (some weapon) [weapon] player
  let recorded := world.recorded event (some (world.collectTriggerSeeds event))
  have kept : I (world.work.nextEventId :: held) recorded := admits.recordSeeds invariant
  have rest : UsesAt I [world.work.nextEventId] (do
      HearthstoneSimulator.spendResources player runtime.cost
      HearthstoneSimulator.beginEquip player weapon
      HearthstoneSimulator.pushResolutionOps (weaponOps player weapon target runtime world.work.nextEventId)) recorded := by
    apply (admits.spendResources permitted player recorded).bind admits.forgets
    intro _ paid spends
    have kind : paid.get weapon (·.kind) = some .weapon := (spendResources_get (fun _ _ => rfl) spends _).trans armed
    have controller : paid.get weapon (·.controller) = some player :=
      (spendResources_get (fun _ _ => rfl) spends _).trans owned
    apply (admits.beginEquip_at kind controller).bind admits.forgets
    intro _ equipped _
    exact admits.pushResolutionOps (weaponOps_common _ _ _ _ _) (weaponOps_events _ _ _ _ _) equipped
  exact rest held kept

theorem playCard_at {player : PlayerId} {card : GameEntityId} {target : Option GameEntityId} {boardIndex : Option Nat}
    {world : World}
    (permitted : ∀ runtime, world.get card (·.cardRuntime) = some runtime → granted (spent runtime.cost))
    (opens : ∀ world context, UsesAt I [] (openPlayScope card (world.collectTriggerSeeds context)) world) :
    UsesAt I [] (playCard player card target boardIndex) world := by
  apply UsesAt.read_bind
  apply UsesAt.ofExcept_bind admits.forgets
  intro components controlled
  apply UsesAt.ofExcept_bind admits.forgets
  intro kind found
  apply UsesAt.ofExcept_bind admits.forgets
  intro runtime running
  rcases World.controlledEntityInZone_eq_ok.mp controlled with ⟨present, owned, _⟩
  have runs : world.get card (·.cardRuntime) = some runtime := by
    unfold World.get
    rw [present]
    exact okOr_eq_ok.mp running
  split
  · rename_i armed
    apply admits.playWeapon_at (permitted runtime runs)
    · unfold World.get
      rw [present, ← armed]
      exact okOr_eq_ok.mp found
    · unfold World.get
      rw [present]
      exact owned
  · apply (admits.spendResources (permitted runtime runs) player world).bind admits.forgets
    intro _ paid _
    apply (admits.moveEntity _ _ _ paid).bind admits.forgets
    intro outcome moved _
    cases outcome with
    | moved source _ _ =>
      apply (admits.trace _ moved).bind admits.forgets
      intro _ traced _
      apply UsesAt.read_bind
      split
      · apply (opens _ _).bind admits.forgets
        intro scope opened _
        exact admits.pushEventless playOps_common playOps_eventless opened
      · exact admits.pushEventless playOps_common playOps_eventless traced
    | fullZoneRemoval source _ _ => exact admits.raise _ moved
    | preventedByFullZone => exact admits.raise _ moved

theorem useHeroPower_at {player : PlayerId} {power : GameEntityId} {target : Option GameEntityId} {world : World}
    (permitted : ∀ runtime, world.get power (·.cardRuntime) = some runtime → granted (spent runtime.cost)) :
    UsesAt I [] (useHeroPower player power target) world := by
  apply UsesAt.read_bind
  apply UsesAt.ofExcept_bind admits.forgets
  intro components controlled
  apply UsesAt.ofExcept_bind admits.forgets
  intro runtime running
  have runs : world.get power (·.cardRuntime) = some runtime := by
    unfold World.get
    rw [(World.controlledEntityInZone_eq_ok.mp controlled).1]
    exact okOr_eq_ok.mp running
  apply Yields.bind admits.forgets (admits.preparePrecheckedEvent _)
  intro afterUse
  apply Uses.bind admits.forgets (admits.spendResources (permitted runtime runs) player)
  intro _
  exact admits.pushResolutionOps (powerOps_common _ _ _ _) (powerOps_events _ _ _ _)

theorem runSequenceStep_at {step : SequenceStep} {world : World}
    (special : step.Special → UsesAt I [] (runSequenceStep step) world) : UsesAt I [] (runSequenceStep step) world := by
  cases step with
  | consumeDurability _ _ => exact special trivial
  | prepareCombatDamage _ _ _ => exact special trivial
  | attack _ _ _ => exact special trivial
  | playCard _ _ _ _ => exact special trivial
  | useHeroPower _ _ _ => exact special trivial
  | startTurn _ _ => exact special trivial
  | finishEquip weapon => exact fun _ => admits.finishEquip
  | breakAttackStealth attacker => exact admits.breakAttackStealth attacker world
  | finishAttack player attacker defender => exact admits.finishAttack player attacker defender world
  | finishHeroPower power => exact admits.finishHeroPower power world
  | endTurn player => exact admits.endTurn player world
  | thawCharacters player => exact admits.thawCharacters player world
  | advanceTurn ending => exact admits.advanceTurn ending world
  | concede player =>
    exact fun _ => admits.aside ⟨rfl, rfl, rfl, rfl, rfl, rfl, rfl, le_rfl, subset_rfl⟩

theorem runGuardedSequenceStep_at {guards : List SubjectGuard} {step : SequenceStep} {world : World}
    (special : step.Special → UsesAt I [] (runSequenceStep step) world) :
    UsesAt I [] (runGuardedSequenceStep guards step) world := by
  apply UsesAt.read_bind
  cases failedGuard world guards with
  | none => exact admits.runSequenceStep_at special
  | some failed => exact admits.trace _ world

theorem continueDraw (result : DrawResultSlotId) (context : EffectContext) (effects : List Effect)
    (policy : DrawContinuationPolicy) : Maintains I (continueDraw result context effects policy) := by
  apply Uses.bind admits.forgets (admits.takeDrawResult _)
  intro outcome
  have skipped : Maintains I (if policy = .runWithoutCard then
      HearthstoneSimulator.pushEffects { context with drawnCard := none } effects none
    else
      pure () : Sim Unit) := by
    split
    · exact admits.pushScopedEffects _ _ _ _
    · exact Uses.pure admits.forgets _
  cases outcome with
  | drawn card => exact admits.pushScopedEffects _ _ _ _
  | burned _ => exact skipped
  | fatigue _ => exact skipped

theorem refreshAuras (plan : AuraRefreshPlan) : Maintains I (refreshAuras plan) := by
  cases plan with
  | playedProvider provider => exact .change fun _ _ => admits.refreshPlayed
  | summon => exact .change fun _ _ => admits.refreshAll

theorem transformOperation (playScope : Option ResolutionId) (target : GameEntityId) (source : Option GameEntityId)
    (card : Card) (kind : TransformKind) : Maintains I (transformOperation playScope target source card kind) := by
  apply Uses.read_bind
  intro world
  apply Uses.ofExcept_bind admits.forgets
  intro _ _
  apply Uses.bind admits.forgets (replacing_maintains admits.transform)
  intro _
  cases kind with
  | spell => exact Uses.pure admits.forgets _
  | nonSpell =>
    apply Uses.bind_pure
    exact admits.pushResolutionOp (by trivial) rfl
  | playedSelf => exact admits.tidyWork fun _ => .of_events rfl rfl rfl rfl rfl rfl rfl rfl

theorem checkOutcome : Maintains I (.change (·.checkOutcome) : Sim Unit) := by
  apply Maintains.change
  intro held world invariant
  apply admits.aside _ invariant
  exact World.aside_checkOutcome world

variable [NativeEffects]

theorem execute_at {id : ResolutionId} {operation : ResolutionOp} {world : World}
    (own : operation.Own → UsesAt I [] (executeResolutionOp id operation) world)
    (steps : ∀ step, operation.step = some step → step.Special → UsesAt I [] (runSequenceStep step) world)
    (gains : ∀ player amount temporary, operation.gains = some (player, amount, temporary) →
      Maintains I (HearthstoneSimulator.gainResource player amount temporary)) :
    UsesAt I [] (executeResolutionOp id operation) world := by
  cases operation with
  | runSequenceStep step => exact admits.runSequenceStep_at (steps step rfl)
  | runGuardedSequenceStep guards step => exact admits.runGuardedSequenceStep_at (steps step rfl)
  | runPhaseBoundary _ => exact admits.runPhaseBoundary world
  | refreshAuras plan => exact admits.refreshAuras plan world
  | checkOutcome => exact admits.checkOutcome world
  | prepareEvent context =>
    exact Yields.bind admits.forgets (admits.prepareEvent context) (fun event => admits.pushResolveEvent event) world
  | resolveEvent _ => exact own trivial
  | finishEvent event => exact Uses.bind_pure (admits.takePreparedEvent event) world
  | resolveEventSlot _ => exact own trivial
  | attemptTrigger candidate => exact admits.attemptTrigger id candidate world
  | finishTrigger attempt source => exact admits.trace _ world
  | runPlayEffect scope context effect =>
    apply UsesAt.ofExcept_bind admits.forgets
    intro subject _
    apply (validatePlayScope_maintains _ _ world).bind admits.forgets
    intro _ validated _
    apply admits.executeScopedEffect
    rintro player amount temporary rfl
    exact gains _ _ _ rfl
  | runEffect context effect event =>
    apply admits.executeScopedEffect
    rintro player amount temporary rfl
    exact gains _ _ _ rfl
  | processDamageBatch _ => exact own trivial
  | processDamage _ _ _ => exact own trivial
  | applyDamage _ _ _ _ => exact own trivial
  | processHealingBatch _ => exact own trivial
  | processHealing _ _ _ => exact own trivial
  | applyHealing _ _ _ _ => exact own trivial
  | processDraw request => exact admits.processDraw request world
  | finishDraw result => exact Uses.bind_pure (admits.takeDrawResult result) world
  | continueDraw result context effects policy => exact admits.continueDraw _ _ _ _ world
  | transformEntity playScope target source card kind => exact admits.transformOperation _ _ _ _ _ world
  | finishPlayedSelfTransform _ _ => exact own trivial
  | copyEntity request => exact admits.dispatchCopy request world
  | requestChoice _ => exact own trivial

end Admits

end Admission

end HearthstoneSimulator

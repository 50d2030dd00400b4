import BazelRepo.HearthstoneSimulator.PlayerFlow
import BazelRepo.HearthstoneSimulator.Generation

namespace HearthstoneSimulator

open Library

def replacing (change : World → Except SimulationError World) : Sim Unit :=
  fun world =>
    match change world with
    | .ok changed => (changed, .ok ())
    | .error error => (world, .error error)

structure AttachmentCopySnapshot where
  definitionId : String
  displayName : String
  duration : EnchantmentDuration
  silenceRemovable : Bool
  statModifier : Option StatModifier
  keywordModifier : Option KeywordModifier
  costModifier : Option CostModifier
  runtimeTriggers : Option (List TriggerDefinition)
  runtimeContinuousEffects : Option (List ContinuousEffectDefinition)

/-- What the enchantment of a copy has beyond those that are attached anew. -/
def AttachmentCopySnapshot.restore (snapshot : AttachmentCopySnapshot) (components : Components) : Components :=
  { components with
    statModifier := snapshot.statModifier.or components.statModifier
    keywordModifier := snapshot.keywordModifier.or components.keywordModifier
    costModifier := snapshot.costModifier.or components.costModifier
    runtimeTriggers := snapshot.runtimeTriggers.or components.runtimeTriggers
    runtimeContinuousEffects := snapshot.runtimeContinuousEffects.or components.runtimeContinuousEffects }

structure PlayCopySnapshot where
  weaponState : Option WeaponState
  damage : Int32
  silenced : Bool
  pendingDestroy : Bool
  attachments : List AttachmentCopySnapshot

def PlayCopySnapshot.restore (snapshot : PlayCopySnapshot) (playOrder : Nat) (components : Components) : Components :=
  { components with
    damage := some snapshot.damage
    attackState := some ⟨0, true⟩
    playOrder := some playOrder
    weaponState := snapshot.weaponState.or components.weaponState
    silenced := components.silenced || snapshot.silenced
    pendingDestroy := components.pendingDestroy || snapshot.pendingDestroy }

structure CopySnapshot where
  card : Card
  playState : Option PlayCopySnapshot

def Components.currentCard (components : Components) : Option Card := do
  let base ← components.baseStats
  let runtime ← components.cardRuntime
  let definitionId ← components.definitionId
  let name ← components.displayName
  let kind ← components.kind
  some
    { definitionId := definitionId
      name := name
      kind := kind
      manaCost := runtime.baseCost
      attack := base.attack
      health := base.health
      durability := (components.weaponState.map (·.baseDurability)).getD 0
      keywords := components.baseKeywords.getD ∅
      effects := runtime.program
      triggers := components.runtimeTriggers.getD []
      auras := components.runtimeAuras.getD []
      continuousEffects := components.runtimeContinuousEffects.getD []
      targeting := runtime.targeting }

def CopyStatePolicy.debugName : CopyStatePolicy → String
  | .currentForm => "CurrentForm"
  | .inPlayState => "InPlayState"

def copyStatePolicy (source destination : Zone) : CopyStatePolicy :=
  if source = .play ∧ destination = .play then .inPlayState else .currentForm

def validateCopyPolicy (source : Zone) (request : CopyRequest) : Except SimulationError Unit :=
  let expected := copyStatePolicy source request.destination
  if request.policy ≠ expected then
    .error (.invariant s!"copy from {source.debugName} to {request.destination.debugName} requires {expected.debugName} policy, got {request.policy.debugName}")
  else
    .ok ()

def requiredCopyAttachmentComponent {α : Type} (source : GameEntityId) (name : String) (found : Option α) :
    Except SimulationError α :=
  okOr found (.invariant s!"copy source GameEntityId({source}) has an attachment without required {name}")

namespace World

def validateTriggerEnchantment (world : World) (triggers : List TriggerDefinition) : Except SimulationError Unit :=
  if triggers.isEmpty then
    .error (.invalidTriggerEnchantment "at least one trigger is required")
  else
    validateAddedTriggers world triggers

def copySourceZone (world : World) (source : GameEntityId) : Except SimulationError Zone :=
  okOr (world.get source (·.zone)) (.invariant s!"copy source GameEntityId({source}) lacks required Zone component")

def captureCopySnapshot (world : World) (request : CopyRequest) : Except SimulationError (Option CopySnapshot) :=
  match world.entities[request.source]? with
  | none => .ok none
  | some components => do
    let card ← okOr components.currentCard
      (.invariant s!"copy source GameEntityId({request.source}) lacks required current-form components")
    let zone ← world.copySourceZone request.source
    validateCopyPolicy zone request
    .ok (some ⟨card, none⟩)

def captureAttachment (world : World) (source attachment : GameEntityId) :
    Except SimulationError (Nat × GameEntityId × AttachmentCopySnapshot) := do
  let order ← requiredCopyAttachmentComponent source "PlayOrder" (world.get attachment (·.playOrder))
  let kind ← requiredCopyAttachmentComponent source "EntityKind" (world.get attachment (·.kind))
  let controller ← requiredCopyAttachmentComponent source "Controller" (world.get attachment (·.controller))
  let zone ← requiredCopyAttachmentComponent source "Zone" (world.get attachment (·.zone))
  let position ← requiredCopyAttachmentComponent source "ZonePosition" (world.get attachment (·.zonePosition))
  if kind ≠ .enchantment ∨ zone ≠ .play ∨ (world.zoneIndex controller zone)[position]? ≠ some attachment then
    .error (.invariant s!"copy source GameEntityId({source}) has an invalid attached enchantment")
  else do
    let definition ← requiredCopyAttachmentComponent source "DefinitionId" (world.get attachment (·.definitionId))
    let display ← requiredCopyAttachmentComponent source "DisplayName" (world.get attachment (·.displayName))
    let duration ← requiredCopyAttachmentComponent source "EnchantmentDuration" (world.get attachment (·.duration))
    .ok (order, attachment,
      { definitionId := definition
        displayName := display
        duration := duration
        silenceRemovable := world.has attachment (·.silenceRemovable)
        statModifier := world.get attachment (·.statModifier)
        keywordModifier := world.get attachment (·.keywordModifier)
        costModifier := world.get attachment (·.costModifier)
        runtimeTriggers := world.get attachment (·.runtimeTriggers)
        runtimeContinuousEffects := world.get attachment (·.runtimeContinuousEffects) })

section Copies

variable [QueryOrder]

def capturePlayCopySnapshot (world : World) (source : GameEntityId) : Except SimulationError PlayCopySnapshot := do
  let attachments ← (world.attachments source fun _ => true).mapM (world.captureAttachment source)
  let damage ← okOr (world.get source (·.damage))
    (.invariant s!"in-play copy source GameEntityId({source}) lacks required Damage component")
  .ok
    { weaponState := world.get source (·.weaponState)
      damage := damage
      silenced := world.has source (·.silenced)
      pendingDestroy := world.has source (·.pendingDestroy)
      attachments := (sortByKey (fun captured : Nat × GameEntityId × AttachmentCopySnapshot =>
        (toLex (captured.1, captured.2.1) : ℕ ×ₗ ℕ)) attachments).map (·.2.2) }

/-- What is copied, unless the source is gone or the destination is full. -/
def prepareCopy (world : World) (request : CopyRequest) : Except SimulationError (Option CopySnapshot) := do
  match ← world.captureCopySnapshot request with
  | none => .ok none
  | some snapshot =>
    match world.validateCardSpawn request.controller snapshot.card request.destination request.boardIndex with
    | .error (.zone (.full _ _)) => .ok none
    | .error error => .error error
    | .ok _ => do
      validateCardProgram world snapshot.card
      if request.policy = .inPlayState then do
        let playState ← world.capturePlayCopySnapshot request.source
        (playState.attachments.filterMap (·.runtimeTriggers)).forM (validateTriggerEnchantment world)
        .ok (some { snapshot with playState := some playState })
      else
        .ok (some snapshot)

def restoreAttachment (copy : GameEntityId) (controller : PlayerId) (world : World)
    (attachment : AttachmentCopySnapshot) : Except SimulationError World := do
  let (world, id) ← world.spawnAttachedEnchantment controller copy attachment.definitionId attachment.displayName
    attachment.duration attachment.silenceRemovable
  .ok (world.modify id attachment.restore)

/-- The copy exists, so that its attachments find their target. -/
def restorePlayCopyState (world : World) (copy : GameEntityId) (controller : PlayerId) (playState : PlayCopySnapshot) :
    Except SimulationError World := do
  let (world, order) := world.allocatePlayOrder
  let world := world.modify copy (playState.restore order)
  let world ← playState.attachments.foldlM (restoreAttachment copy controller) world
  .ok ((world.recalculate copy).modify copy fun components => { components with damage := some playState.damage })

end Copies

end World

section Summons

variable [QueryOrder]

/-- What follows when an entity has entered Play under an effect of a sequence. -/
def announceSummoned (source : Option GameEntityId) (summoned : GameEntityId) (player : PlayerId) : Sim Unit := do
  let world ← .read
  if world.work.sequenceActive then do
    let event ← prepareEvent (eventContext .summoned source [summoned] player)
    pushResolutionOps [.refreshAuras .summon, .resolveEvent event]
  else
    pure ()

def restoreCopy (copy : GameEntityId) (controller : PlayerId) : Option PlayCopySnapshot → Sim Unit
  | none => pure ()
  | some playState => replacing fun world => world.restorePlayCopyState copy controller playState

def finishCopy (request : CopyRequest) (snapshot : CopySnapshot) (copy : GameEntityId) : Sim Unit := do
  restoreCopy copy request.controller snapshot.playState
  trace (.entityCopied request.source copy request.policy)
  if request.policy = .inPlayState then
    announceSummoned request.originatingSource copy request.controller
  else
    pure ()

def copyEntity (request : CopyRequest) : Sim Unit := do
  let world ← .read
  match ← .ofExcept (world.prepareCopy request) with
  | none => pure ()
  | some snapshot => do
    match ← Procedure.attempt fun world =>
        world.spawnCardAt request.controller snapshot.card request.destination request.boardIndex with
    | .error (.zone (.full _ _)) => pure ()
    | .error error => raise error
    | .ok copy => finishCopy request snapshot copy

/-- Nested work may have moved the source since the copy was scheduled, so that the policy follows its zone now. -/
def dispatchCopy (request : CopyRequest) : Sim Unit := do
  let world ← .read
  if (world.entities[request.source]?).isSome then do
    let zone ← .ofExcept (world.copySourceZone request.source)
    copyEntity { request with policy := copyStatePolicy zone request.destination }
  else
    copyEntity request

end Summons

section Heroes

variable [QueryOrder]

/-- Maximum and current health of a hero that replaces one with the given stats. -/
def HeroHealthPolicy.resolve (previous : CurrentStats) (damage : Int32) : HeroHealthPolicy → Int32 × Int32
  | .preserve => (previous.maximumHealth, saturatingSub previous.maximumHealth damage)
  | .set maximumHealth currentHealth => (maximumHealth, currentHealth)

def HeroClassPolicy.resolve (previous : HeroClass) : HeroClassPolicy → HeroClass
  | .keep => previous
  | .replace heroClass => heroClass

def Components.succeed (previous : Components) (stats : CurrentStats) (replacement : HeroReplacement) (playOrder : Nat)
    (components : Components) : Components :=
  let health := replacement.health.resolve stats (previous.damage.getD 0)
  { components with
    currentStats := some ⟨replacement.hero.attack, health.1⟩
    damage := some (saturatingSub health.1 health.2)
    armor := some (max (saturatingAdd (previous.armor.getD 0) replacement.armorGain) 0)
    attackState := some (previous.attackState.getD ⟨0, false⟩)
    heroClass := some (replacement.heroClass.resolve (previous.heroClass.getD .neutral))
    playOrder := some playOrder }

def spawnCard (player : PlayerId) (card : Card) (zone : Zone) : Sim GameEntityId :=
  fun world => world.spawnCard player card zone

def detachAllEnchantments (target : GameEntityId) : Sim Unit :=
  .change (·.detachAllEnchantments target)

def moveOutOfPlay (id : GameEntityId) (player : PlayerId) (destination : Zone) : Sim Unit := do
  match ← moveEntityRequested ⟨id, player, destination, none, .normal⟩ with
  | .moved source _ _ => trace (.zoneMoved id source destination)
  | _ => raise (.invariant "hero replacement move failed")

def replacePower (player : PlayerId) (card : Card) : Sim GameEntityId := do
  let world ← .read
  ((world.activeKind player .heroPower).filter fun power => world.get power (·.controller) = some player).forM
    fun power => do
      detachAllEnchantments power
      moveOutOfPlay power player .removedFromGame
  let heroPower ← spawnCard player card .play
  let order ← .changing (·.allocatePlayOrder)
  .change (·.modify heroPower fun components =>
    { components with heroPowerState := some ⟨0, false⟩, playOrder := some order })
  pure heroPower

def beginEquip (player : PlayerId) (weapon : GameEntityId) : Sim Unit :=
  fun world => world.beginEquip player weapon

def equipReplacementWeapon (player : PlayerId) : Option Card → Sim Unit
  | none => pure ()
  | some card => do
    let weapon ← spawnCard player card .setAside
    beginEquip player weapon
    pushResolutionOps [.prepareEvent (eventContext .weaponEquipped (some weapon) [weapon] player),
      .runSequenceStep (.finishEquip weapon)]

def replaceHero (player : PlayerId) (replacement : HeroReplacement) : Sim Unit := do
  let world ← .read
  .ofExcept (World.validateHeroReplacement world replacement)
  let previous ← .ofExcept (okOr (world.heroId player) (.playerNotFound player))
  let components ← .ofExcept (okOr world.entities[previous]? (.entityNotFound previous))
  let stats ← .ofExcept (okOr components.currentStats (.entityNotFound previous))
  detachAllEnchantments previous
  moveOutOfPlay previous player .setAside
  let maximumHealth := (replacement.health.resolve stats (components.damage.getD 0)).1
  let hero ← spawnCard player { replacement.hero with health := maximumHealth } .play
  let order ← .changing (·.allocatePlayOrder)
  .change (·.modify hero (components.succeed stats replacement order))
  let world ← .read
  let previousPower := (world.activeKind player .heroPower).find? fun power =>
    world.get power (·.controller) = some player
  let heroPower ← replacePower player replacement.heroPower
  equipReplacementWeapon player replacement.weapon
  trace (.heroReplaced player previous hero)
  trace (.heroPowerReplaced player previousPower heroPower)

end Heroes

end HearthstoneSimulator

import BazelRepo.HearthstoneSimulator.Detachment

namespace HearthstoneSimulator

open Library

def EntityKind.debugName : EntityKind → String
  | .player => "Player"
  | .hero => "Hero"
  | .minion => "Minion"
  | .spell => "Spell"
  | .weapon => "Weapon"
  | .heroCard => "HeroCard"
  | .heroPower => "HeroPower"
  | .location => "Location"
  | .permanent => "Permanent"
  | .dormant => "Dormant"
  | .enchantment => "Enchantment"
  | .secret => "Secret"
  | .quest => "Quest"
  | .sidequest => "Sidequest"

def EnchantmentDuration.expires (ending next : PlayerId) : EnchantmentDuration → Bool
  | .permanent => false
  | .endOfTurn player => player = ending
  | .endOfTurnSeries player => player = ending && next ≠ ending

def Components.removedBySilence (components : Components) : Bool :=
  components.controller.isSome &&
    (components.statModifier.any (·.silenceRemovable) || components.silenceRemovable)

def Components.repaired (components : Components) : Components :=
  { components with
    weaponState := components.weaponState.map fun state => { state with durability := state.baseDurability } }

def Components.muted (components : Components) : Components :=
  { components with keywords := components.keywords.map fun _ => ∅, pendingDestroy := false, silenced := true }

def Components.transformed (card : Card) (components : Components) : Components :=
  { components with
    armor := none
    attackAuraCache := none
    heroPowerState := none
    healthAuraCache := none
    heroClass := none
    keepEnchantments := false
    otherAuraCache := none
    pendingDestroy := false
    player := none
    silenced := false
    attachedTo := none
    costModifier := none
    duration := none
    keywordModifier := none
    silenceRemovable := false
    statModifier := none
    definitionId := some card.definitionId
    displayName := some card.name
    kind := some card.kind
    baseStats := some ⟨card.attack, card.health⟩
    currentStats := some ⟨card.attack, card.health⟩
    damage := some 0
    attackState := some ⟨0, false⟩
    baseKeywords := some card.keywords
    keywords := some card.keywords
    cardRuntime := some ⟨card.manaCost, card.manaCost, card.effects, card.targeting⟩
    runtimeTriggers := some card.triggers
    runtimeAuras := some card.auras
    runtimeContinuousEffects := some card.continuousEffects }

namespace World

def recalculate (world : World) (target : GameEntityId) : World :=
  ((world.recalculateStats target).recalculateKeywords target).recalculateCost target

section Operations

variable [QueryOrder]

def attachments (world : World) (target : GameEntityId) (leaves : Components → Bool) : List GameEntityId :=
  (QueryOrder.iterEntities world).filter fun candidate =>
    world.has candidate fun components => components.attachedTo = some target && leaves components

def silenceEntity (world : World) (target : GameEntityId) : Except SimulationError World := do
  let _ ← okOr world.entities[target]? (.entityNotFound target)
  let world := world.modify target Components.muted
  let enchantments := world.attachments target Components.removedBySilence
  .ok ((enchantments.foldl moveDetached world).recalculate target)

def detachAllEnchantments (world : World) (target : GameEntityId) : World :=
  match world.entities[target]? with
  | none => world
  | some _ => ((world.attachments target (·.controller.isSome)).foldl moveDetached world).recalculate target

def expiring (world : World) (ending next : PlayerId) : List GameEntityId :=
  (QueryOrder.iterEntities world).filter fun id =>
    world.has id fun components =>
      components.attachedTo.isSome && components.zone = some .play &&
        components.duration.any (·.expires ending next) && components.controller.isSome

def expireEnchantment (world : World) (entity : GameEntityId) : World :=
  let detached := world.moveDetached entity
  let traced := { detached with canonicalTrace := detached.canonicalTrace ++ [.temporaryEffectExpired entity] }
  match world.get entity (·.attachedTo) with
  | none => traced
  | some target => traced.recalculate target

def expireTemporaryEffects (world : World) (ending next : PlayerId) : World :=
  (world.expiring ending next).foldl expireEnchantment world

def requiredTransformComponent {α : Type} (target : GameEntityId) (name : String) (found : Option α) :
    Except SimulationError α :=
  okOr found (.invalidTransformation s!"target GameEntityId({target}) lacks required {name} component")

def prepareAttachment (world : World) (target attachment : GameEntityId) :
    Except SimulationError (Nat × GameEntityId) := do
  let controller ← requiredTransformComponent target "attachment Controller" (world.get attachment (·.controller))
  let order ← requiredTransformComponent target "attachment PlayOrder" (world.get attachment (·.playOrder))
  let zone ← requiredTransformComponent target "attachment Zone" (world.get attachment (·.zone))
  let position ← requiredTransformComponent target "attachment ZonePosition" (world.get attachment (·.zonePosition))
  if (world.zoneIndex controller zone)[position]? ≠ some attachment then
    .error (.invalidTransformation
      s!"target GameEntityId({target}) has an attachment with an invalid zone index entry")
  else .ok (order, attachment)

def validateTransformReplacement (world : World) (card : Card) : Except SimulationError Unit :=
  if card.kind ≠ .minion then
    .error (.invalidTransformation s!"replacement must be a Minion, not {card.kind.debugName}")
  else validateCardProgram world card

def prepareTransform (world : World) (target : GameEntityId) (card : Card) :
    Except SimulationError (String × List GameEntityId) := do
  let components ← okOr world.entities[target]? (.entityNotFound target)
  let kind ← requiredTransformComponent target "EntityKind" components.kind
  if kind ≠ .minion then
    .error (.invalidTransformation s!"target GameEntityId({target}) must be a Minion")
  else do
    validateTransformReplacement world card
    let previous ← requiredTransformComponent target "DefinitionId" components.definitionId
    let _ ← requiredTransformComponent target "Controller" components.controller
    let _ ← requiredTransformComponent target "Zone" components.zone
    let _ ← requiredTransformComponent target "ZonePosition" components.zonePosition
    let _ ← requiredTransformComponent target "PlayOrder" components.playOrder
    let keys ← (world.attachments target fun _ => true).mapM (world.prepareAttachment target)
    let ordered := keys.mergeSort fun a b => a.1 < b.1 ∨ a.1 = b.1 ∧ a.2 ≤ b.2
    .ok (previous, ordered.map (·.2))

def transformEntity (world : World) (target : GameEntityId) (card : Card) (kind : TransformKind) :
    Except SimulationError World := do
  let (previous, attachments) ← world.prepareTransform target card
  let world := (attachments.foldl moveDetached world).modify target (Components.transformed card)
  .ok { world with
    canonicalTrace := world.canonicalTrace ++ [.entityTransformed target previous card.definitionId kind] }

end Operations

/-- An operation that calculates the keywords of its target anew, from what its layers then are, and no others. -/
structure Recalculates (world other : World) (target : GameEntityId) (basis : Layers → Layers) : Prop where
  fresh : other.Fresh
  calculated : other.layers target = (world.layers target).map fun layers => (basis layers).recalculated
  others : ∀ id : GameEntityId, id ≠ target → (world.entities[id]?).isSome = true →
    (other.layers id).map Layers.keywords = (world.layers id).map Layers.keywords

section Layers

theorem Fresh.recalculate {world : World} (fresh : world.Fresh) (target : GameEntityId) :
    (world.recalculate target).Fresh :=
  ((fresh.quiet (quiet_recalculateStats world target)).recalculateKeywords target).quiet
    (quiet_recalculateCost _ target)

theorem modify_isSome (world : World) (target id : GameEntityId) (change : Components → Components) :
    ((world.modify target change).entities[id]?).isSome = (world.entities[id]?).isSome := by
  rw [entities_modify, Option.isSome_map]

theorem Fresh.modify {world : World} (fresh : world.Fresh) {target : GameEntityId}
    {change : Components → Components}
    (kept : ∀ components attachment, (change components).attachment = some attachment →
      components.attachment = some attachment) :
    (world.modify target change).Fresh := by
  constructor
  · intro id present
    rw [modify_isSome] at present
    exact fresh.identified id present
  · intro id host order modifier found
    apply fresh.ordered id host order modifier
    unfold World.get at found ⊢
    rw [entities_modify] at found
    cases entity : world.entities[id]? with
    | none =>
      rw [entity] at found
      cases found
    | some components =>
      rw [entity, Option.map_some, Option.bind_some] at found
      show components.attachment = some (host, order, modifier)
      split at found
      · exact kept components _ found
      · exact found

variable [QueryOrder]

def resetAttachments (world : World) (id : GameEntityId) : List GameEntityId :=
  if world.has id (·.keepEnchantments) then [] else world.attachments id fun _ => true

end Layers

end World

end HearthstoneSimulator

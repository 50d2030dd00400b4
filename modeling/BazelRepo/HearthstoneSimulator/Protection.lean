import BazelRepo.HearthstoneSimulator.Lifecycle
import BazelRepo.HearthstoneSimulator.Thaw
import BazelRepo.HearthstoneSimulator.ZoneRuns

namespace HearthstoneSimulator

open Library

namespace World

def loseShield (components : Components) : Components :=
  { components with keywords := components.keywords.map fun keywords => keywords.erase .divineShield }

/-- Whether damage passes; a shield that stops it is gone. A target that is not there is `none`. -/
def damagePassesProtection (world : World) (request : DamageRequest) : Option (World × Bool) :=
  if request.proposed ≤ 0 then some (world, false)
  else
    match world.entities[request.target]? with
    | none => none
    | some components =>
      if world.hasKeyword request.target .immune then some (world, false)
      else if components.keywords.any (.divineShield ∈ ·) then some (world.modify request.target loseShield, false)
      else some (world, true)

end World

inductive KeywordOperation where
  | absorb (request : DamageRequest)
  | attach (controller : PlayerId) (target : GameEntityId) (modifier : KeywordModifier) (duration : EnchantmentDuration)
  | silence (target : GameEntityId)
  | detachAll (target : GameEntityId)
  | expire (enchantment : GameEntityId)
  | transform (target : GameEntityId) (card : Card) (kind : TransformKind)
  | reset (target : GameEntityId)

namespace KeywordOperation

section Runs

variable [QueryOrder]

def run (world : World) : KeywordOperation → Option World
  | absorb request => (world.damagePassesProtection request).map (·.1)
  | attach controller target modifier duration =>
    (world.attachKeywordModifier controller target modifier duration).toOption.map (·.1)
  | silence target => (world.silenceEntity target).toOption
  | detachAll target => some (world.detachAllEnchantments target)
  | expire enchantment => some (world.expireEnchantment enchantment)
  | transform target card kind => (world.transformEntity target card kind).toOption
  | reset target => some (world.resetRuntimeState target)

/-- The entity whose keywords an operation calculates anew, and the layers it calculates them from. -/
def basis (world : World) : KeywordOperation → Option (GameEntityId × (Layers → Layers))
  | absorb _ | transform .. => none
  | attach _ target modifier _ => some (target, (·.attach modifier))
  | silence target => some (target, fun layers =>
    { layers with
      silenced := true
      modifiers := world.keptModifiers target (world.attachments target Components.removedBySilence) })
  | detachAll target => some (target, fun layers =>
    { layers with modifiers := world.keptModifiers target (world.attachments target (·.controller.isSome)) })
  | expire enchantment => (world.get enchantment (·.attachedTo)).map fun target =>
    (target, fun layers => { layers with modifiers := world.keptModifiers target [enchantment] })
  | reset target => some (target, fun layers =>
    { layers with silenced := false, modifiers := world.keptModifiers target (world.resetAttachments target) })

end Runs

end KeywordOperation

namespace World

section Operations

variable [QueryOrder]

end Operations

end World

namespace KeywordOperation

open World

variable [QueryOrder] {world other : World} {operation : KeywordOperation} {id : GameEntityId}

end KeywordOperation

namespace Course

variable [QueryOrder] {id : GameEntityId}

end Course

namespace World

section Steps

variable [QueryOrder]

end Steps

end World

section Examples

def field : World :=
  { entities := (∅ : BTreeMap GameEntityId Components)
      |>.insert 1 { kind := some .minion, controller := some .one, zone := some .play, zonePosition := some 0,
                    damage := some 0, baseKeywords := some {.divineShield}, keywords := some {.divineShield} }
    zoneIndex := fun player zone => if player = .one ∧ zone = .play then [1] else []
    ruleset := ⟨7, 10, 60, 5, 1, 1, 1, 1, 10, 100000⟩
    gameState := ⟨.one, 1, none, .awaitingAction⟩
    weaponEquipment := ⟨fun _ => none, ∅⟩
    playOrderCounter := 0
    nextGameEntityId := 2
    pendingDeaths := []
    deathEventCache := []
    canonicalTrace := []
    nativeEffectRegistry := [] }

def taunt : KeywordOperation := .attach .one 1 ⟨.taunt, true, true⟩ .permanent

end Examples

end HearthstoneSimulator

import BazelRepo.HearthstoneSimulator.World
import BazelRepo.Library.Ranking

namespace HearthstoneSimulator

open Library

namespace World

def orderOfPlay (components : Components) : Nat :=
  components.playOrder.getD 0

def attachedModifiers {α : Type} (world : World) (target : GameEntityId) (modifier : Components → Option α) : List α :=
  let modifiers := (world.attachedEnchantments target).filterMap fun entry =>
    (modifier entry.2).map fun found => (orderOfPlay entry.2, entry.1, found)
  (modifiers.mergeSort fun a b => a.1 < b.1 ∨ a.1 = b.1 ∧ a.2.1 ≤ b.2.1).map (·.2.2)

def applyKeyword (silenced : Bool) (keywords : Finset Keyword) (modifier : KeywordModifier) : Finset Keyword :=
  if silenced ∧ modifier.silenceRemovable then
    keywords
  else if modifier.granted then
    insert modifier.keyword keywords
  else
    keywords.erase modifier.keyword

def recalculateKeywords (world : World) (target : GameEntityId) : World :=
  let modifiers := world.attachedModifiers target (·.keywordModifier)
  world.modify target fun components =>
    let base := if components.silenced then ∅ else components.baseKeywords.getD ∅
    { components with keywords := some (modifiers.foldl (applyKeyword components.silenced) base) }

def applyCost (silenced : Bool) (cost : Int32) (modifier : CostModifier) : Int32 :=
  if silenced ∧ modifier.silenceRemovable then cost else modifier.apply cost

def recalculateCost (world : World) (target : GameEntityId) : World :=
  let modifiers := world.attachedModifiers target (·.costModifier)
  world.modify target fun components =>
    { components with
      cardRuntime := components.cardRuntime.map fun runtime =>
        { runtime with cost := modifiers.foldl (applyCost components.silenced) runtime.baseCost } }

def attackBonus (application : AuraApplication) : Int32 :=
  match application.modifier with
  | .attack amount => amount
  | _ => 0

def healthBonus (application : AuraApplication) : Int32 :=
  match application.modifier with
  | .maximumHealth amount => amount
  | _ => 0

/-- The damage after the maximum health fell: current health is lost only where it exceeds the new maximum. -/
def adjustedDamage (maximumHealth : Int32) (previous : Option CurrentStats) (damage : Option Int32) : Option Int32 :=
  match previous, damage with
  | some stats, some damage =>
    if maximumHealth < stats.maximumHealth then
      some (max (saturatingSub maximumHealth (saturatingSub stats.maximumHealth damage)) 0)
    else
      some damage
  | _, damage => damage

def recalculateStats (world : World) (target : GameEntityId) : World :=
  let modifiers := world.attachedModifiers target (·.statModifier)
  world.modify target fun components =>
    match components.baseStats with
    | none => components
    | some base =>
      let attack := modifiers.foldl (fun attack modifier => attack + modifier.attack) base.attack
      let attack := (components.attackAuraCache.getD []).foldl (fun attack aura => attack + attackBonus aura) attack
      let health := modifiers.foldl (fun health modifier => health + modifier.health) base.health
      let health := (components.healthAuraCache.getD []).foldl (fun health aura => health + healthBonus aura) health
      let maximumHealth := max health 0
      { components with
        currentStats := some ⟨attack, maximumHealth⟩
        damage := adjustedDamage maximumHealth components.currentStats components.damage }

end World

def auraMatches (selector : AuraTarget) (provider : GameEntityId) (controller : PlayerId) (target : GameEntityId)
    (targetController : PlayerId) (targetKind : EntityKind) : Bool :=
  let friendly : Bool := controller = targetController
  let minion : Bool := targetKind = .minion
  let character : Bool := targetKind = .hero ∨ targetKind = .minion
  let player : Bool := targetKind = .player
  let other : Bool := provider ≠ target
  match selector with
  | .friendlyMinions => friendly && minion
  | .otherFriendlyMinions => friendly && minion && other
  | .enemyMinions => !friendly && minion
  | .allMinions => minion
  | .friendlyCharacters => friendly && character
  | .otherFriendlyCharacters => friendly && character && other
  | .enemyCharacters => !friendly && character
  | .allCharacters => character
  | .controllerPlayer => friendly && player
  | .opponentPlayer => !friendly && player
  | .bothPlayers => player

def OtherAuraModifier.applied : OtherAuraModifier → AuraModifier
  | .immune => .immune
  | .heroPowerDamage amount => .heroPowerDamage amount

def AuraDefinition.modifiers (definition : AuraDefinition) : List (AuraCategory × AuraModifier) :=
  (if definition.health ≠ 0 then [(.health, .maximumHealth definition.health)] else []) ++
    (if definition.attack ≠ 0 then [(.attack, .attack definition.attack)] else []) ++
      definition.other.map fun modifier => (.other, modifier.applied)

structure AuraProvider where
  playOrder : Nat
  id : GameEntityId
  controller : PlayerId
  definitions : List AuraDefinition

structure AuraRecipient where
  id : GameEntityId
  controller : PlayerId
  kind : EntityKind

structure DiscoveredAura where
  category : AuraCategory
  target : GameEntityId
  application : AuraApplication

def Components.provides (id : GameEntityId) (components : Components) : Option AuraProvider :=
  if components.zone = some .play ∧ components.silenced = false then
    match components.controller, components.runtimeAuras with
    | some controller, some definitions => some ⟨components.playOrder.getD 0, id, controller, definitions⟩
    | _, _ => none
  else
    none

def Components.receives (id : GameEntityId) (components : Components) : Option AuraRecipient :=
  match components.kind with
  | none => none
  | some kind =>
    if kind = .player ∨ components.zone = some .play ∧ components.baseStats.isSome then
      components.controller.map fun controller => ⟨id, controller, kind⟩
    else
      none

def Components.auraCache (category : AuraCategory) (components : Components) : Option (List AuraApplication) :=
  match category with
  | .health => components.healthAuraCache
  | .attack => components.attackAuraCache
  | .other => components.otherAuraCache

def Components.withAuraCache (category : AuraCategory) (applications : List AuraApplication)
    (components : Components) : Components :=
  match category with
  | .health => { components with healthAuraCache := some applications }
  | .attack => { components with attackAuraCache := some applications }
  | .other => { components with otherAuraCache := some applications }

/-- The applications of a category to a target, in the order in which they were discovered. -/
def applicationsOf (discovered : List DiscoveredAura) (category : AuraCategory) (target : GameEntityId) :
    List AuraApplication :=
  discovered.filterMap fun found =>
    if found.category = category ∧ found.target = target then some found.application else none

def discoveredTargets (discovered : List DiscoveredAura) (category : AuraCategory) : List GameEntityId :=
  discovered.filterMap fun found => if found.category = category then some found.target else none

def AuraProvider.applications (provider : AuraProvider) (recipients : List AuraRecipient) : List DiscoveredAura :=
  provider.definitions.zipIdx.flatMap fun indexed =>
    (recipients.filter fun target =>
      auraMatches indexed.1.targets provider.id provider.controller target.id target.controller target.kind).flatMap
      fun target => indexed.1.modifiers.map fun modifier =>
        ⟨modifier.1, target.id, ⟨provider.id, indexed.2, modifier.2⟩⟩

namespace World

section Auras

variable [QueryOrder]

def auraProviders (world : World) (only : Option GameEntityId) : List AuraProvider :=
  sortByKey (fun provider => toLex (provider.playOrder, provider.id))
    ((QueryOrder.iterEntities world).filterMap fun id =>
      if only.all (· = id) then world.get id (·.provides id) else none)

def auraRecipients (world : World) : List AuraRecipient :=
  sortByKey AuraRecipient.id ((QueryOrder.iterEntities world).filterMap fun id => world.get id (·.receives id))

def discoverAuraApplications (world : World) (only : Option GameEntityId) : List DiscoveredAura :=
  (world.auraProviders only).flatMap fun provider => provider.applications world.auraRecipients

end Auras

def setCache (world : World) (category : AuraCategory) (target : GameEntityId) (applications : List AuraApplication) :
    World :=
  match world.entities[target]? with
  | none => world
  | some components =>
    if (components.auraCache category).getD [] = applications then
      world
    else
      let updated := world.modify target (·.withAuraCache category applications)
      let updated := if category = .health ∨ category = .attack then updated.recalculateStats target else updated
      if (components.auraCache category).isSome || !applications.isEmpty then
        { updated with canonicalTrace := updated.canonicalTrace ++ [.auraUpdated target category applications] }
      else
        updated

section Refresh

variable [QueryOrder]

/-- The targets of a category and the entities that a condition names, as an ordered set. -/
def auraTargets (world : World) (category : AuraCategory) (discovered : List DiscoveredAura)
    (listed : Components → Bool) : List GameEntityId :=
  sortByKey id (discoveredTargets discovered category ++
    (QueryOrder.iterEntities world).filter fun id => world.has id listed).dedup

def replaceCategory (world : World) (category : AuraCategory) (discovered : List DiscoveredAura) : World :=
  (world.auraTargets category discovered fun components => (components.auraCache category).isSome).foldl
    (fun world target => world.setCache category target (applicationsOf discovered category target)) world

def mergeProviderCategory (world : World) (category : AuraCategory) (provider : GameEntityId)
    (discovered : List DiscoveredAura) : World :=
  (world.auraTargets category discovered fun components =>
    (components.auraCache category).any fun cache => cache.any (·.provider = provider)).foldl
    (fun world target =>
      match world.entities[target]? with
      | none => world
      | some components =>
        let kept := ((components.auraCache category).getD []).filter (·.provider ≠ provider)
        world.setCache category target (kept ++ applicationsOf discovered category target)) world

def refreshHealthAttackAuras (world : World) : World :=
  let discovered := world.discoverAuraApplications none
  (world.replaceCategory .health discovered).replaceCategory .attack discovered

/-- Health is not refreshed once the deaths were created; attack and other effects of removed providers cease. -/
def refreshPostDeathAuras (world : World) : World :=
  let discovered := world.discoverAuraApplications none
  (world.replaceCategory .attack discovered).replaceCategory .other discovered

def refreshAllAuras (world : World) : World :=
  let discovered := world.discoverAuraApplications none
  ((world.replaceCategory .health discovered).replaceCategory .attack discovered).replaceCategory .other discovered

def refreshPlayedProvider (world : World) (provider : GameEntityId) : World :=
  let discovered := world.discoverAuraApplications (some provider)
  [AuraCategory.health, .attack, .other].foldl
    (fun world category => world.mergeProviderCategory category provider discovered) world

end Refresh

end World

end HearthstoneSimulator

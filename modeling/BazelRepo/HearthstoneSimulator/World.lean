import BazelRepo.HearthstoneSimulator.Resolution
import BazelRepo.Library.Checked

namespace HearthstoneSimulator

open Library

structure BaseStats where
  attack : Int32
  health : Int32
  deriving DecidableEq

structure CurrentStats where
  attack : Int32
  maximumHealth : Int32
  deriving DecidableEq

structure AttackState where
  attacksThisTurn : UInt8
  readinessBlocked : Bool
  deriving DecidableEq

structure WeaponState where
  baseDurability : Int32
  durability : Int32
  deriving DecidableEq

structure HeroPowerState where
  usesThisTurn : UInt32
  exhausted : Bool
  deriving DecidableEq

structure Player where
  id : PlayerId
  maximumResources : Int32
  usedResources : Int32
  temporaryResources : Int32
  pendingOverload : Int32
  lockedOverload : Int32
  resourcesSpent : Int32
  fatigue : UInt32
  deriving DecidableEq

def Player.availableResources (player : Player) : Int32 :=
  player.maximumResources + player.temporaryResources - player.usedResources - player.lockedOverload

structure CardRuntime where
  baseCost : Int32
  cost : Int32
  program : List Effect
  targeting : TargetRequirement

/-- The components of one entity; a field without a value is a component the entity lacks. -/
structure Components where
  kind : Option EntityKind := none
  definitionId : Option String := none
  displayName : Option String := none
  controller : Option PlayerId := none
  zone : Option Zone := none
  zonePosition : Option Nat := none
  playOrder : Option Nat := none
  player : Option Player := none
  baseStats : Option BaseStats := none
  currentStats : Option CurrentStats := none
  damage : Option Int32 := none
  armor : Option Int32 := none
  pendingDestroy : Bool := false
  silenced : Bool := false
  keepEnchantments : Bool := false
  baseKeywords : Option (Finset Keyword) := none
  keywords : Option (Finset Keyword) := none
  attackState : Option AttackState := none
  weaponState : Option WeaponState := none
  heroPowerState : Option HeroPowerState := none
  heroClass : Option HeroClass := none
  cardRuntime : Option CardRuntime := none
  runtimeTriggers : Option (List TriggerDefinition) := none
  runtimeAuras : Option (List AuraDefinition) := none
  runtimeContinuousEffects : Option (List ContinuousEffectDefinition) := none
  attachedTo : Option GameEntityId := none
  statModifier : Option StatModifier := none
  keywordModifier : Option KeywordModifier := none
  costModifier : Option CostModifier := none
  duration : Option EnchantmentDuration := none
  silenceRemovable : Bool := false
  healthAuraCache : Option (List AuraApplication) := none
  attackAuraCache : Option (List AuraApplication) := none
  otherAuraCache : Option (List AuraApplication) := none

/-- Which weapon each player wields, and for each weapon being equipped the one it replaces. -/
structure WeaponEquipment where
  active : PlayerId → Option GameEntityId
  pending : BTreeMap GameEntityId (Option GameEntityId)

structure DeathRecord where
  entity : GameEntityId
  controller : PlayerId
  kind : EntityKind
  playOrder : Nat
  rememberedZonePosition : Nat
  simultaneousOrdinal : Nat
  turnOfDeath : UInt32
  deriving DecidableEq

inductive TraceEntry where
  | actionAccepted (player : PlayerId) (action : String)
  | actionRejected (player : PlayerId) (reason : String)
  | operationPopped (id : ResolutionId) (kind : String)
  | sequenceStepSkipped (step : SequenceStep) (subject : GameEntityId) (expectedZone : Zone) (actualZone : Option Zone)
  | eventCreated (id : EventId) (kind : EventKind) (source : Option GameEntityId) (targets : List GameEntityId)
      (proposed actual : Option Int32)
  | triggerSnapshot (event : EventId) (candidates : List TriggerCandidate)
  | eventValueChanged (event : EventId) (operation : EventValueOperation) (previous current : Int32)
  | triggerAborted (id : ResolutionId) (source : GameEntityId)
  | triggerResolved (id : ResolutionId) (source : GameEntityId)
  | zoneMoved (entity : GameEntityId) (source destination : Zone)
  | drawResolved (player : PlayerId) (source : Option GameEntityId) (outcome : DrawOutcome)
  | entityTransformed (entity : GameEntityId) (previousDefinition replacementDefinition : String) (kind : TransformKind)
  | entityCopied (source copy : GameEntityId) (policy : CopyStatePolicy)
  | auraUpdated (target : GameEntityId) (category : AuraCategory) (applications : List AuraApplication)
  | resourceSpent (player : PlayerId) (amount : Int32)
  | damage (source : Option GameEntityId) (target : GameEntityId) (proposed actual : Int32)
  | healing (source : Option GameEntityId) (target : GameEntityId) (proposed actual : Int32)
  | weaponDurability (weapon : GameEntityId) (previous current : Int32)
  | entityDied (entity : GameEntityId)
  | heroDefeated (entity : GameEntityId) (controller : PlayerId)
  | heroReplaced (player : PlayerId) (previous replacement : GameEntityId)
  | heroPowerReplaced (player : PlayerId) (previous : Option GameEntityId) (replacement : GameEntityId)
  | deathPhaseQueued (deaths : List GameEntityId)
  | choiceRequested (choice : ChoiceId) (player : PlayerId)
  | choiceAnswered (choice option : ChoiceId)
  | extraTurnsScheduled (player : PlayerId) (count : UInt32) (timing : ExtraTurnTiming)
  | temporaryEffectExpired (entity : GameEntityId)
  | turnChanged (activePlayer : PlayerId) (turn : UInt32) (kind : ScheduledTurnKind)
  | outcome (winner : Option PlayerId)
  | rngChoice (position : UInt64) (candidates : List GameEntityId) (selected : GameEntityId)

structure DeterministicRng where
  state : UInt64
  position : UInt64
  deriving DecidableEq

structure World where
  entities : BTreeMap GameEntityId Components
  /-- The index of each player's zones; a zone without an entry is empty. -/
  zoneIndex : PlayerId → Zone → List GameEntityId
  ruleset : Ruleset
  gameState : GameState
  weaponEquipment : WeaponEquipment
  playOrderCounter : Nat
  nextGameEntityId : GameEntityId := 0
  pendingDeaths : List DeathRecord
  deathEventCache : List DeathRecord
  canonicalTrace : List TraceEntry
  nativeEffectRegistry : List NativeEffectId
  turnSchedule : TurnSchedule := {}
  dominantPlayer : PlayerId := .one
  /-- The players whose heroes were found mortally wounded. -/
  defeatedHeroes : Finset PlayerId := ∅
  rng : DeterministicRng := ⟨0, 0⟩
  work : ResolutionWork := {}

/-- The order in which a query visits the entities of a world. The engine promises none. -/
class QueryOrder where
  iterEntities : World → List GameEntityId
  perm : ∀ world, (iterEntities world).Perm world.entities.keys

namespace World

theorem nodup_iterEntities [QueryOrder] (world : World) : (QueryOrder.iterEntities world).Nodup := by
  rw [(QueryOrder.perm world).nodup_iff]
  exact Std.ExtTreeMap.nodup_keys

def get {α : Type} (world : World) (id : GameEntityId) (component : Components → Option α) : Option α :=
  world.entities[id]?.bind component

def has (world : World) (id : GameEntityId) (component : Components → Bool) : Bool :=
  world.entities[id]?.any component

def modify (world : World) (id : GameEntityId) (change : Components → Components) : World :=
  { world with
    entities := match world.entities[id]? with
      | none => world.entities
      | some components => world.entities.insert id (change components) }

theorem entities_modify (world : World) (id a : GameEntityId) (change : Components → Components) :
    (world.modify id change).entities[a]? =
      (world.entities[a]?).map fun components => if a = id then change components else components := by
  show (match world.entities[id]? with
    | none => world.entities
    | some components => world.entities.insert id (change components))[a]? = _
  cases found : world.entities[id]? with
  | none =>
    by_cases same : a = id
    · subst same
      simp [found]
    · simp [same]
  | some components =>
    dsimp only
    rw [BTreeMap.getElem?_insert_eq]
    by_cases same : a = id
    · subst same
      simp [found]
    · simp [same]

/-- The entities attached to one, in the order they were attached: an enchantment is attached when it is
created, and its number is then the largest. -/
def attachedEnchantments (world : World) (id : GameEntityId) : List (GameEntityId × Components) :=
  world.entities.toList.filter fun entry => entry.2.attachedTo = some id

def allocateGameId (world : World) : World × GameEntityId :=
  ({ world with nextGameEntityId := world.nextGameEntityId + 1 }, world.nextGameEntityId)

def allocatePlayOrder (world : World) : World × Nat :=
  ({ world with playOrderCounter := world.playOrderCounter + 1 }, world.playOrderCounter)

end World

end HearthstoneSimulator

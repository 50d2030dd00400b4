import BazelRepo.Library.TreeMap
import Mathlib.Data.Finset.Basic

namespace HearthstoneSimulator

open Library

inductive PlayerId where
  | one
  | two
  deriving DecidableEq

def PlayerId.opponent : PlayerId → PlayerId
  | .one => .two
  | .two => .one

abbrev GameEntityId := Nat

abbrev ChoiceId := Nat

abbrev ResolutionId := Nat

abbrev EventId := Nat

abbrev EventSlotId := Nat

abbrev DrawResultSlotId := Nat

abbrev NativeEffectId := String

inductive Zone where
  | deck
  | hand
  | play
  | secret
  | graveyard
  | setAside
  | removedFromGame
  deriving DecidableEq

inductive ZoneMovementKind where
  | normal
  | draw
  | burn
  | forcePlay
  | death
  | discard
  | detachEnchantment
  deriving DecidableEq

structure ZoneMoveRequest where
  entity : GameEntityId
  destinationController : PlayerId
  destination : Zone
  position : Option Nat
  kind : ZoneMovementKind

inductive ZoneMoveOutcome where
  | moved (source : Zone) (sourceController : PlayerId) (sourcePosition : Nat)
  | preventedByFullZone
  | fullZoneRemoval (source : Zone) (sourceController : PlayerId) (sourcePosition : Nat)
  deriving DecidableEq

inductive ZoneError where
  | entityNotFound (entity : GameEntityId)
  | missingIndexEntry (entity : GameEntityId) (zone : Zone)
  | full (player : PlayerId) (zone : Zone)
  | invalidPosition (zone : Zone) (position length : Nat)
  deriving DecidableEq

inductive EntityKind where
  | player
  | hero
  | minion
  | spell
  | weapon
  | heroCard
  | heroPower
  | location
  | permanent
  | dormant
  | enchantment
  | secret
  | quest
  | sidequest
  deriving DecidableEq

inductive Keyword where
  | charge
  | divineShield
  | frozen
  | immune
  | lifesteal
  | poisonous
  | rush
  | stealth
  | taunt
  | windfury
  deriving DecidableEq

inductive HeroClass where
  | deathKnight
  | demonHunter
  | druid
  | hunter
  | mage
  | paladin
  | priest
  | rogue
  | shaman
  | warlock
  | warrior
  | neutral
  deriving DecidableEq

inductive EventKind where
  | sequenceStarted
  | cardPlayed
  | cardDrawn
  | summoned
  | afterPlayAndSummon
  | afterPlay
  | proposedDamage
  | damage
  | proposedHealing
  | healing
  | attack
  | afterAttack
  | afterHeroPower
  | weaponEquipped
  | death
  | turnStarted
  | turnEnded
  deriving DecidableEq

inductive TargetAudience where
  | friendly
  | enemy
  | either
  deriving DecidableEq

inductive TargetKind where
  | minion
  | hero
  | character
  deriving DecidableEq

structure TargetFilter where
  audience : TargetAudience
  kind : TargetKind
  deriving DecidableEq

inductive TargetRequirement where
  | none
  | required (filter : TargetFilter)
  | optional (filter : TargetFilter)
  | requiredIfAvailable (filter : TargetFilter)
  deriving DecidableEq

inductive CostOperation where
  | set
  | add
  | multiply
  deriving DecidableEq

structure CostModifier where
  operation : CostOperation
  value : Int32
  silenceRemovable : Bool
  deriving DecidableEq

/-- Addition that stops at the bounds of the type, as `saturating_add`. -/
def saturatingAdd (a b : Int32) : Int32 :=
  Int32.ofIntClamp (a.toInt + b.toInt)

def saturatingSub (a b : Int32) : Int32 :=
  Int32.ofIntClamp (a.toInt - b.toInt)

def saturatingMul (a b : Int32) : Int32 :=
  Int32.ofIntClamp (a.toInt * b.toInt)

def CostModifier.apply (modifier : CostModifier) (cost : Int32) : Int32 :=
  match modifier.operation with
  | .set => modifier.value
  | .add => saturatingAdd cost modifier.value
  | .multiply => saturatingMul cost modifier.value

structure KeywordModifier where
  keyword : Keyword
  granted : Bool
  silenceRemovable : Bool
  deriving DecidableEq

structure StatModifier where
  attack : Int32
  health : Int32
  silenceRemovable : Bool
  deriving DecidableEq

inductive EnchantmentDuration where
  | permanent
  | endOfTurn (player : PlayerId)
  | endOfTurnSeries (player : PlayerId)
  deriving DecidableEq

inductive AuraTarget where
  | friendlyMinions
  | otherFriendlyMinions
  | enemyMinions
  | allMinions
  | friendlyCharacters
  | otherFriendlyCharacters
  | enemyCharacters
  | allCharacters
  | controllerPlayer
  | opponentPlayer
  | bothPlayers
  deriving DecidableEq

inductive OtherAuraModifier where
  | immune
  | heroPowerDamage (amount : Int32)
  deriving DecidableEq

structure AuraDefinition where
  targets : AuraTarget
  attack : Int32
  health : Int32
  other : List OtherAuraModifier
  deriving DecidableEq

inductive AuraModifier where
  | attack (amount : Int32)
  | maximumHealth (amount : Int32)
  | immune
  | heroPowerDamage (amount : Int32)
  deriving DecidableEq

structure AuraApplication where
  provider : GameEntityId
  definitionIndex : Nat
  modifier : AuraModifier
  deriving DecidableEq

inductive PlayerAudience where
  | controller
  | opponent
  | both
  deriving DecidableEq

inductive ContinuousModifier where
  | spellDamage (amount : Int32)
  deriving DecidableEq

structure ContinuousEffectDefinition where
  recipients : PlayerAudience
  modifier : ContinuousModifier
  deriving DecidableEq

inductive PlayerSelector where
  | controller
  | opponent
  | player (player : PlayerId)
  deriving DecidableEq

inductive Selector where
  | source
  | drawnCard
  | attachedEntity
  | declaredTarget
  | entity (entity : GameEntityId)
  | friendlyMinions
  | enemyMinions
  | allMinions
  | friendlyCharacters
  | enemyCharacters
  | allCharacters
  | inZone (player : PlayerSelector) (zone : Zone)
  | random (selector : Selector)
  deriving DecidableEq

inductive EventValueOperation where
  | replace
  | add
  | multiply
  deriving DecidableEq

inductive ValueExpression where
  | constant (value : Int32)
  | sourceAttack
  | targetCount
  | drawnCardCost
  deriving DecidableEq

inductive ExtraTurnTiming where
  | afterCurrentTurn
  | duringNextTurnSeries
  deriving DecidableEq

inductive HeroClassPolicy where
  | keep
  | replace (heroClass : HeroClass)
  deriving DecidableEq

inductive HeroHealthPolicy where
  | preserve
  | set (maximumHealth currentHealth : Int32)
  deriving DecidableEq

inductive DrawContinuationPolicy where
  | requireCard
  | runWithoutCard
  deriving DecidableEq

inductive TransformKind where
  | spell
  | nonSpell
  | playedSelf
  deriving DecidableEq

inductive ConditionTiming where
  | preCheck
  | queueTime
  | resolutionTime
  deriving DecidableEq

inductive TriggerCondition where
  | always
  | sourceInPlay
  | sourceInZone (zone : Zone)
  | eventValueAtLeast (value : Int32)
  | eventSourceIsSelf
  | eventTargetsSelf
  | eventTargetsAttachedEntity
  | eventControllerIs (player : PlayerSelector)
  | controllerIs (player : PlayerId)
  | minimumEntityCount (selector : Selector) (count : Nat)
  deriving DecidableEq

structure TimedCondition where
  timing : ConditionTiming
  condition : TriggerCondition
  deriving DecidableEq

inductive SourceEligibilityPolicy where
  | mustExist
  | mustRemainInEligibleZone
  | rememberedSource
  deriving DecidableEq

inductive WoundedTargetPolicy where
  | excludeMortallyWounded
  | includeMortallyWounded
  | includePendingDestroy
  deriving DecidableEq

mutual

inductive Effect where
  | choose (id : ChoiceId) (player : PlayerSelector) (options : List EffectChoiceOption)
  | dealDamage (targets : Selector) (amount : ValueExpression)
  | heal (targets : Selector) (amount : ValueExpression)
  | modifyEventValue (operation : EventValueOperation) (value : ValueExpression)
  | destroy (targets : Selector)
  | draw (player : PlayerSelector) (count : UInt32)
  | drawThen (player : PlayerSelector) (effects : List Effect) (policy : DrawContinuationPolicy)
  | move (targets : Selector) (player : PlayerSelector) (zone : Zone) (kind : ZoneMovementKind)
  | gainResource (player : PlayerSelector) (amount : Int32) (temporary : Bool)
  | scheduleExtraTurns (player : PlayerSelector) (count : UInt32) (timing : ExtraTurnTiming)
  | replaceHero (player : PlayerSelector) (replacement : HeroReplacement)
  | summon (player : PlayerSelector) (card : Card) (boardIndex : Option Nat)
  | attachStatModifier (targets : Selector) (modifier : StatModifier) (duration : EnchantmentDuration)
  | attachKeywordModifier (targets : Selector) (modifier : KeywordModifier) (duration : EnchantmentDuration)
  | attachCostModifier (targets : Selector) (modifier : CostModifier) (duration : EnchantmentDuration)
  | attachContinuousEffect (targets : Selector) (effect : ContinuousEffectDefinition) (silenceRemovable : Bool)
      (duration : EnchantmentDuration)
  | attachTriggerEnchantment (targets : Selector) (triggers : List TriggerDefinition)
      (duration : EnchantmentDuration) (silenceRemovable : Bool)
  | silence (targets : Selector)
  | transform (targets : Selector) (card : Card) (kind : TransformKind)
  | copy (targets : Selector) (player : PlayerSelector) (zone : Zone) (boardIndex : Option Nat)
  | native (id : NativeEffectId)
  | sequence (nested : List Effect)

structure EffectChoiceOption where
  id : ChoiceId
  effects : List Effect

structure TriggerDefinition where
  event : EventKind
  eligibleZones : List Zone
  conditions : List TimedCondition
  sourceEligibility : SourceEligibilityPolicy
  priority : Int16
  woundedTargetPolicy : WoundedTargetPolicy
  effectProgram : List Effect

structure Card where
  definitionId : String
  name : String
  kind : EntityKind
  manaCost : Int32
  attack : Int32
  health : Int32
  durability : Int32
  keywords : Finset Keyword
  effects : List Effect
  triggers : List TriggerDefinition
  auras : List AuraDefinition
  continuousEffects : List ContinuousEffectDefinition
  targeting : TargetRequirement

structure HeroReplacement where
  hero : Card
  heroPower : Card
  armorGain : Int32
  health : HeroHealthPolicy
  heroClass : HeroClassPolicy
  weapon : Option Card

end

inductive GameAction where
  | playCard (player : PlayerId) (card : GameEntityId) (target : Option GameEntityId) (boardIndex : Option Nat)
      (choice : Option ChoiceId)
  | useHeroPower (player : PlayerId) (power : GameEntityId) (target : Option GameEntityId)
  | attack (player : PlayerId) (attacker defender : GameEntityId)
  | endTurn (player : PlayerId)
  | concede (player : PlayerId)
  deriving DecidableEq

def GameAction.player : GameAction → PlayerId
  | .playCard player .. | .useHeroPower player .. | .attack player .. | .endTurn player | .concede player => player

inductive SimulationStatus where
  | settingUp
  | awaitingAction
  | resolving
  | awaitingChoice
  | complete
  deriving DecidableEq

inductive GameOutcome where
  | winner (player : PlayerId)
  | draw
  deriving DecidableEq

structure GameState where
  activePlayer : PlayerId
  turnNumber : UInt32
  outcome : Option GameOutcome
  status : SimulationStatus

structure Ruleset where
  boardLimit : Nat
  handLimit : Nat
  deckLimit : Nat
  secretLimit : Nat
  heroLimit : Nat
  weaponLimit : Nat
  heroPowerLimit : Nat
  questLimit : Nat
  maximumMana : Int32
  resolutionBudget : Nat

inductive ResolutionError where
  | budgetExhausted (operation : Option ResolutionId)
  | alreadyResolving
  | missingEvent (event : EventId)
  | missingEventSlot (slot : EventSlotId)
  | missingDrawResultSlot (slot : DrawResultSlotId)
  | drawResultSlotAlreadyFilled (slot : DrawResultSlotId)
  | emptyDrawResultSlot (slot : DrawResultSlotId)
  | noPendingChoice
  | invalidChoice (choice : ChoiceId)
  deriving DecidableEq

inductive SimulationError where
  | gameOver
  | notAwaitingAction
  | notPlayersTurn (player : PlayerId)
  | playerNotFound (player : PlayerId)
  | entityNotFound (entity : GameEntityId)
  | notControlled (entity : GameEntityId)
  | wrongZone (entity : GameEntityId) (expected : Zone)
  | notPlayable (entity : GameEntityId)
  | notActiveHeroPower (entity : GameEntityId)
  | heroPowerExhausted (entity : GameEntityId)
  | missingTarget (card : GameEntityId)
  | unexpectedTarget (card : GameEntityId)
  | invalidTarget (card target : GameEntityId)
  | unsupportedActionChoice (choice : ChoiceId)
  | unexpectedBoardPosition (card : GameEntityId)
  | invalidHeroReplacement (reason : String)
  | invalidTriggerEnchantment (reason : String)
  | invalidTransformation (reason : String)
  | notEnoughMana (player : PlayerId) (required available : Int32)
  | boardFull (player : PlayerId)
  | cannotAttack (attacker : GameEntityId)
  | invalidDefender (defender : GameEntityId)
  | missingActionResult
  | resolution (error : ResolutionError)
  | zone (error : ZoneError)
  | nativeEffectNotRegistered (id : NativeEffectId)
  | nativeEffectFailed (id : NativeEffectId) (reason : String)
  | noModifiableEventValue
  | checkpoint (reason : String)
  | invariant (reason : String)
  deriving DecidableEq

def zoneRank : Zone → Option Nat
  | .deck => some 0
  | .hand => some 1
  | .play => some 2
  | .graveyard => some 3
  | .secret | .setAside | .removedFromGame => none

/-- Whether a move takes the runtime state of the entity away: every death, and every move to an earlier zone. -/
def resetsRuntimeState (kind : ZoneMovementKind) (source destination : Zone) : Bool :=
  if kind = .death then
    true
  else
    match zoneRank source, zoneRank destination with
    | some source, some destination => destination < source
    | _, _ => false

end HearthstoneSimulator

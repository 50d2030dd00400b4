import BazelRepo.HearthstoneSimulator.TurnSchedule

namespace HearthstoneSimulator

open Library

inductive EffectOrigin where
  | other
  | spell
  | heroPower
  deriving DecidableEq

structure EffectContext where
  source : Option GameEntityId
  controller : PlayerId
  declaredTarget : Option GameEntityId
  drawnCard : Option GameEntityId
  origin : EffectOrigin
  deriving DecidableEq

structure EventContext where
  kind : EventKind
  source : Option GameEntityId
  targets : List GameEntityId
  controller : PlayerId
  proposedValue : Option Int32
  actualValue : Option Int32
  simultaneousOrdinal : Nat
  deriving DecidableEq

structure TriggerOrderKey where
  playerBucket : Nat
  zoneBucket : Nat
  priority : Int16
  playOrder : Nat
  source : GameEntityId
  tieBreaker : Nat
  deriving DecidableEq

structure TriggerSeed where
  source : GameEntityId
  definitionIndex : Nat
  definition : TriggerDefinition
  controller : PlayerId
  zone : Zone
  playOrder : Nat

structure TriggerCandidate where
  source : GameEntityId
  event : EventId
  definitionIndex : Nat
  definition : TriggerDefinition
  controller : PlayerId
  order : TriggerOrderKey

inductive AuraCategory where
  | health
  | attack
  | other
  deriving DecidableEq

inductive AuraRefreshPlan where
  | playedProvider (provider : GameEntityId)
  | summon
  deriving DecidableEq

inductive CopyStatePolicy where
  | currentForm
  | inPlayState
  deriving DecidableEq

inductive PhaseBoundaryPlan where
  | ordinary
  | forcedDeath
  deriving DecidableEq

inductive SequenceStep where
  | playCard (player : PlayerId) (card : GameEntityId) (target : Option GameEntityId) (boardIndex : Option Nat)
  | useHeroPower (player : PlayerId) (power : GameEntityId) (target : Option GameEntityId)
  | finishHeroPower (power : GameEntityId)
  | attack (player : PlayerId) (attacker defender : GameEntityId)
  | prepareCombatDamage (player : PlayerId) (attacker defender : GameEntityId)
  | finishEquip (weapon : GameEntityId)
  | consumeDurability (player : PlayerId) (weapon : GameEntityId)
  | breakAttackStealth (attacker : GameEntityId)
  | finishAttack (player : PlayerId) (attacker defender : GameEntityId)
  | endTurn (player : PlayerId)
  | thawCharacters (player : PlayerId)
  | advanceTurn (endingPlayer : PlayerId)
  | startTurn (player : PlayerId) (kind : ScheduledTurnKind)
  | concede (player : PlayerId)
  deriving DecidableEq

structure SubjectGuard where
  subject : GameEntityId
  requiredZone : Zone
  deriving DecidableEq

structure DamageRequest where
  source : Option GameEntityId
  target : GameEntityId
  proposed : Int32
  deriving DecidableEq

structure HealingRequest where
  source : Option GameEntityId
  target : GameEntityId
  proposed : Int32
  deriving DecidableEq

structure DrawRequest where
  player : PlayerId
  source : Option GameEntityId
  result : DrawResultSlotId
  deriving DecidableEq

inductive DrawOutcome where
  | drawn (card : GameEntityId)
  | burned (card : GameEntityId)
  | fatigue (amount : Int32)
  deriving DecidableEq

structure DrawResultSlot where
  outcome : Option DrawOutcome := none
  deriving DecidableEq

structure CopyRequest where
  source : GameEntityId
  originatingSource : Option GameEntityId
  controller : PlayerId
  destination : Zone
  boardIndex : Option Nat
  policy : CopyStatePolicy
  deriving DecidableEq

mutual

inductive ResolutionOp where
  | runSequenceStep (step : SequenceStep)
  | runGuardedSequenceStep (guards : List SubjectGuard) (step : SequenceStep)
  | runPhaseBoundary (plan : PhaseBoundaryPlan)
  | refreshAuras (plan : AuraRefreshPlan)
  | checkOutcome
  | prepareEvent (context : EventContext)
  | resolveEvent (event : EventId)
  | finishEvent (event : EventId)
  | resolveEventSlot (slot : EventSlotId)
  | attemptTrigger (candidate : TriggerCandidate)
  | finishTrigger (attempt : ResolutionId) (source : GameEntityId)
  | runPlayEffect (scope : ResolutionId) (context : EffectContext) (effect : Effect)
  | runEffect (context : EffectContext) (effect : Effect) (event : Option EventId)
  | processDamageBatch (requests : List DamageRequest)
  | processDamage (request : DamageRequest) (actualEvent : EventSlotId) (ordinal : Nat)
  | applyDamage (request : DamageRequest) (proposedEvent : EventId) (actualEvent : EventSlotId) (ordinal : Nat)
  | processHealingBatch (requests : List HealingRequest)
  | processHealing (request : HealingRequest) (actualEvent : EventSlotId) (ordinal : Nat)
  | applyHealing (request : HealingRequest) (proposedEvent : EventId) (actualEvent : EventSlotId) (ordinal : Nat)
  | processDraw (request : DrawRequest)
  | finishDraw (result : DrawResultSlotId)
  | continueDraw (result : DrawResultSlotId) (context : EffectContext) (effects : List Effect)
      (policy : DrawContinuationPolicy)
  | transformEntity (playScope : Option ResolutionId) (target : GameEntityId) (source : Option GameEntityId)
      (card : Card) (kind : TransformKind)
  | finishPlayedSelfTransform (subject : GameEntityId) (originalAfterPlay : List TriggerSeed)
  | copyEntity (request : CopyRequest)
  | requestChoice (request : ChoiceRequest)

structure ChoiceRequest where
  id : ChoiceId
  player : PlayerId
  options : List ChoiceOption

structure ChoiceOption where
  id : ChoiceId
  operations : List ResolutionOp

end

def ResolutionOp.kind : ResolutionOp → String
  | .runSequenceStep _ => "RunSequenceStep"
  | .runGuardedSequenceStep .. => "RunGuardedSequenceStep"
  | .runPhaseBoundary _ => "RunPhaseBoundary"
  | .refreshAuras _ => "RefreshAuras"
  | .checkOutcome => "CheckOutcome"
  | .prepareEvent _ => "PrepareEvent"
  | .resolveEvent _ => "ResolveEvent"
  | .finishEvent _ => "FinishEvent"
  | .resolveEventSlot _ => "ResolveEventSlot"
  | .attemptTrigger _ => "AttemptTrigger"
  | .finishTrigger .. => "FinishTrigger"
  | .runPlayEffect .. => "RunPlayEffect"
  | .runEffect .. => "RunEffect"
  | .processDamageBatch _ => "ProcessDamageBatch"
  | .processDamage .. => "ProcessDamage"
  | .applyDamage .. => "ApplyDamage"
  | .processHealingBatch _ => "ProcessHealingBatch"
  | .processHealing .. => "ProcessHealing"
  | .applyHealing .. => "ApplyHealing"
  | .processDraw _ => "ProcessDraw"
  | .finishDraw _ => "FinishDraw"
  | .continueDraw .. => "ContinueDraw"
  | .transformEntity .. => "TransformEntity"
  | .finishPlayedSelfTransform .. => "FinishPlayedSelfTransform"
  | .copyEntity _ => "CopyEntity"
  | .requestChoice _ => "RequestChoice"

structure StackedResolutionOp where
  id : ResolutionId
  operation : ResolutionOp

structure PreparedEventSlot where
  event : Option EventId := none
  deriving DecidableEq

structure PreparedEvent where
  context : EventContext
  precheckedTriggers : Option (List TriggerSeed)
  candidates : Option (List TriggerCandidate)

structure PendingChoice where
  request : ChoiceRequest

structure ResolutionWork where
  stack : List StackedResolutionOp := []
  remainingBudget : Nat := 0
  nextResolutionId : ResolutionId := 0
  nextEventId : EventId := 0
  nextEventSlotId : EventSlotId := 0
  nextDrawResultSlotId : DrawResultSlotId := 0
  events : BTreeMap EventId PreparedEvent := ∅
  eventSlots : BTreeMap EventSlotId PreparedEventSlot := ∅
  drawResultSlots : BTreeMap DrawResultSlotId DrawResultSlot := ∅
  playScopes : BTreeMap ResolutionId GameEntityId := ∅
  durabilityPayers : BTreeMap ResolutionId (PlayerId × GameEntityId) := ∅
  pendingPlayedSelfTransforms : List GameEntityId := []
  pendingChoice : Option PendingChoice := none
  sequenceActive : Bool := false

end HearthstoneSimulator

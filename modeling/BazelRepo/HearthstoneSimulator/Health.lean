import BazelRepo.HearthstoneSimulator.Events
import BazelRepo.HearthstoneSimulator.Protection

namespace HearthstoneSimulator

open Library

inductive SimultaneousEventOrder where
  | orderOfPlay
  | given
  deriving DecidableEq

namespace World

def validateHealthChangeTargets (world : World) (targets : List GameEntityId) : Except SimulationError Unit :=
  targets.forM fun target => if (world.entities[target]?).isSome then .ok () else .error (.entityNotFound target)

def orderHealthChangeRequests {α : Type} (world : World) (requests : List α) (order : SimultaneousEventOrder)
    (target : α → GameEntityId) : List α :=
  match order with
  | .given => requests
  | .orderOfPlay =>
    sortByKey (fun request => (toLex ((world.get (target request) (·.playOrder)).getD 0, target request) : ℕ ×ₗ ℕ))
      requests

def eventController (world : World) (source : Option GameEntityId) (target : GameEntityId) : PlayerId :=
  let entity := (source.filter fun source => (world.entities[source]?).isSome).getD target
  (world.get entity (·.controller)).getD .one

end World

def DamageRequest.context (request : DamageRequest) (kind : EventKind) (controller : PlayerId)
    (proposed actual : Option Int32) (ordinal : Nat) : EventContext :=
  { eventContext kind request.source [request.target] controller with
    proposedValue := proposed
    actualValue := actual
    simultaneousOrdinal := ordinal }

def HealingRequest.context (request : HealingRequest) (kind : EventKind) (controller : PlayerId)
    (proposed actual : Option Int32) (ordinal : Nat) : EventContext :=
  { eventContext kind request.source [request.target] controller with
    proposedValue := proposed
    actualValue := actual
    simultaneousOrdinal := ordinal }

def traceDamage (request : DamageRequest) (actual : Int32) : Sim Unit :=
  trace (.damage request.source request.target request.proposed actual)

/-- Whether damage passes the target's protection. A target that is gone stops the simulator. -/
def passesProtection (request : DamageRequest) : Sim Bool := do
  let world ← .read
  match world.damagePassesProtection request with
  | none => raise (.invariant "validated damage target remains indexed during damage prevention")
  | some (world, passes) => do
    .change fun _ => world
    pure passes

/-- The damage of an entity after armor took its part, and how much there was in all. -/
def Components.hurt (components : Components) (proposed : Int32) : Components × Int32 :=
  let absorbed := min (components.armor.getD 0) proposed
  let healthDamage := proposed - absorbed
  ({ components with
      armor := if 0 < absorbed then components.armor.map fun armor => armor - absorbed else components.armor
      damage :=
        if 0 < healthDamage then some (saturatingAdd (components.damage.getD 0) healthDamage) else components.damage },
    saturatingAdd absorbed healthDamage)

def reduceDamage (request : DamageRequest) (simultaneousOrdinal : Nat) : Sim EventContext := do
  let world ← .read
  match world.entities[request.target]? with
  | none => raise (.invariant "validated damage target remains indexed during damage mutation")
  | some components => do
    let proposed := max request.proposed 0
    let actual := (components.hurt proposed).2
    .change (·.modify request.target fun components => (components.hurt proposed).1)
    traceDamage request actual
    pure (request.context .damage (world.eventController request.source request.target) (some proposed) (some actual)
      simultaneousOrdinal)

def Components.healed (components : Components) (proposed : Int32) : Components × Int32 :=
  match components.damage with
  | none => (components, 0)
  | some damage => ({ components with damage := some (damage - min damage proposed) }, min damage proposed)

def reduceHealing (request : HealingRequest) (simultaneousOrdinal : Nat) : Sim EventContext := do
  let world ← .read
  match world.entities[request.target]? with
  | none => raise (.invariant "validated healing target remains indexed during simultaneous mutation")
  | some components => do
    let proposed := max request.proposed 0
    let actual := (components.healed proposed).2
    .change (·.modify request.target fun components => (components.healed proposed).1)
    trace (.healing request.source request.target proposed actual)
    pure (request.context .healing (world.eventController request.source request.target) (some proposed) (some actual)
      simultaneousOrdinal)

def applyDamageNow (request : DamageRequest) (ordinal : Nat) : Sim Unit := do
  let request := { request with proposed := max request.proposed 0 }
  if ← passesProtection request then do
    let _ ← reduceDamage request ordinal
    pure ()
  else
    traceDamage request 0

def applyDamageBatch (requests : List DamageRequest) (order : SimultaneousEventOrder) : Sim Unit := do
  let world ← .read
  .ofExcept (world.validateHealthChangeTargets (requests.map DamageRequest.target))
  let requests := world.orderHealthChangeRequests requests order DamageRequest.target
  if world.work.sequenceActive then do
    let _ ← pushResolutionOp (.processDamageBatch requests)
    pure ()
  else
    requests.zipIdx.forM fun numbered => applyDamageNow numbered.1 numbered.2

def applyDamage (source : Option GameEntityId) (target : GameEntityId) (proposed : Int32) : Sim Unit :=
  applyDamageBatch [⟨source, target, proposed⟩] .given

def applyHealingBatch (requests : List HealingRequest) (order : SimultaneousEventOrder) : Sim Unit := do
  let world ← .read
  .ofExcept (world.validateHealthChangeTargets (requests.map HealingRequest.target))
  let requests := world.orderHealthChangeRequests requests order HealingRequest.target
  if world.work.sequenceActive then do
    let _ ← pushResolutionOp (.processHealingBatch requests)
    pure ()
  else
    requests.zipIdx.forM fun numbered => do
      let _ ← reduceHealing numbered.1 numbered.2
      pure ()

def allocateEventSlots (count : Nat) : Sim (List EventSlotId) :=
  (List.range count).mapM fun _ => allocateEventSlot

/-- Every request has its slot, and the slots resolve after all requests. -/
def expandBatch {α : Type} (process : α → EventSlotId → Nat → ResolutionOp) (requests : List α) : Sim Unit := do
  let slots ← allocateEventSlots requests.length
  pushResolutionOps (((requests.zip slots).zipIdx.map fun numbered =>
    process numbered.1.1 numbered.1.2 numbered.2) ++ slots.map .resolveEventSlot)

def expandDamageBatch (requests : List DamageRequest) : Sim Unit :=
  if requests.isEmpty then pure () else expandBatch .processDamage requests

def expandHealingBatch (requests : List HealingRequest) : Sim Unit :=
  if requests.isEmpty then pure () else expandBatch .processHealing requests

def processDamage (request : DamageRequest) (actualEvent : EventSlotId) (ordinal : Nat) : Sim Unit := do
  let request := { request with proposed := max request.proposed 0 }
  if ← passesProtection request then do
    let world ← .read
    let proposedEvent ← prepareEvent (request.context .proposedDamage
      (world.eventController request.source request.target) (some request.proposed) none ordinal)
    pushResolutionOps [.resolveEvent proposedEvent, .applyDamage request proposedEvent actualEvent ordinal]
  else
    traceDamage request 0

def processHealing (request : HealingRequest) (actualEvent : EventSlotId) (ordinal : Nat) : Sim Unit := do
  let request := { request with proposed := max request.proposed 0 }
  if request.proposed = 0 then do
    let _ ← reduceHealing request ordinal
    pure ()
  else do
    let world ← .read
    let proposedEvent ← prepareEvent (request.context .proposedHealing
      (world.eventController request.source request.target) (some request.proposed) none ordinal)
    pushResolutionOps [.resolveEvent proposedEvent, .applyHealing request proposedEvent actualEvent ordinal]

def fillEventSlot (slot : EventSlotId) (context : EventContext) : Sim Unit := do
  let event ← prepareEvent context
  let world ← .read
  if world.work.eventSlots.contains slot then
    .change (·.withWork fun work => { work with eventSlots := work.eventSlots.insert slot ⟨some event⟩ })
  else
    raise (.resolution (.missingEventSlot slot))

def fillActual (slot : EventSlotId) (event : EventContext) : Sim Unit :=
  if event.actualValue.any fun actual => 0 < actual then fillEventSlot slot event else pure ()

def takeProposed (event : EventId) : Sim Int32 := do
  let prepared ← takePreparedEvent event
  pure (max (prepared.context.proposedValue.getD 0) 0)

def applyPreparedDamage (request : DamageRequest) (proposedEvent : EventId) (actualEvent : EventSlotId) (ordinal : Nat) :
    Sim Unit := do
  let proposed ← takeProposed proposedEvent
  let event ← reduceDamage { request with proposed := proposed } ordinal
  fillActual actualEvent event

def applyPreparedHealing (request : HealingRequest) (proposedEvent : EventId) (actualEvent : EventSlotId)
    (ordinal : Nat) : Sim Unit := do
  let proposed ← takeProposed proposedEvent
  let event ← reduceHealing { request with proposed := proposed } ordinal
  fillActual actualEvent event

end HearthstoneSimulator

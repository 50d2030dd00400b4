import BazelRepo.HearthstoneSimulator.OperationUpkeep

namespace HearthstoneSimulator

open Library

namespace World

def withSlot (world : World) (slot : EventSlotId) (prepared : PreparedEventSlot) : World :=
  world.withWork fun work => { work with eventSlots := work.eventSlots.insert slot prepared }

def withoutSlot (world : World) (slot : EventSlotId) : World :=
  world.withWork fun work => { work with eventSlots := work.eventSlots.erase slot }

def allotted (world : World) : World :=
  world.withWork fun work =>
    { work with
      nextEventSlotId := work.nextEventSlotId + 1
      eventSlots := work.eventSlots.insert work.nextEventSlotId {} }

end World

section Admission

variable [QueryOrder]

namespace Admits

open Procedure

variable {allowed : World → ResolutionOp → Prop} {granted : (Player → Player) → Prop}
  {I : List EventId → World → Prop} {given : List EventId} (admits : Admits allowed granted I)

include admits

theorem processDamage {request : DamageRequest} {slot : EventSlotId} {ordinal : Nat}
    (permitted : ∀ world request event, allowed world (.applyDamage request event slot ordinal)) :
    Maintains I (processDamage request slot ordinal) := by
  apply Uses.bind admits.forgets (admits.passesProtection _)
  intro passes
  split
  · apply Uses.read_bind
    intro world
    apply Yields.bind admits.forgets (admits.prepareEvent _)
    intro event other
    refine admits.pushResolutionOps_at ?_ rfl
    intro operation member
    simp only [List.mem_cons, List.not_mem_nil, or_false] at member
    rcases member with rfl | rfl
    · exact admits.common True.intro
    · exact permitted _ _ _
  · exact admits.trace _

theorem processHealing {request : HealingRequest} {slot : EventSlotId} {ordinal : Nat}
    (permitted : ∀ world request event, allowed world (.applyHealing request event slot ordinal)) :
    Maintains I (processHealing request slot ordinal) := by
  unfold HearthstoneSimulator.processHealing
  dsimp only
  split
  · exact Uses.bind_pure (admits.reduceHealing _ _)
  · apply Uses.read_bind
    intro world
    apply Yields.bind admits.forgets (admits.prepareEvent _)
    intro event other
    refine admits.pushResolutionOps_at ?_ rfl
    intro operation member
    simp only [List.mem_cons, List.not_mem_nil, or_false] at member
    rcases member with rfl | rfl
    · exact admits.common True.intro
    · exact permitted _ _ _

theorem takeProposed (event : EventId) : Maintains I (takeProposed event) := by
  apply Uses.bind admits.forgets (admits.takePreparedEvent _)
  exact fun _ => Uses.pure admits.forgets _

theorem fillActual {slot : EventSlotId}
    (fills : ∀ {held world event}, world.work.eventSlots.contains slot = true → I (event :: held) world →
      I held (world.withSlot slot ⟨some event⟩)) (context : EventContext) : Maintains I (fillActual slot context) := by
  unfold HearthstoneSimulator.fillActual
  split
  · apply Yields.bind admits.forgets (admits.prepareEvent _)
    intro event world
    apply UsesAt.read_bind
    split
    · rename_i present
      intro held invariant
      exact fills present invariant
    · exact admits.raise _ world
  · exact Uses.pure admits.forgets _

theorem applyPreparedDamage {slot : EventSlotId}
    (fills : ∀ {held world event}, world.work.eventSlots.contains slot = true → I (event :: held) world →
      I held (world.withSlot slot ⟨some event⟩)) (request : DamageRequest) (proposedEvent : EventId) (ordinal : Nat) :
    Maintains I (applyPreparedDamage request proposedEvent slot ordinal) := by
  apply Uses.bind admits.forgets (admits.takeProposed _)
  intro proposed
  apply Uses.bind admits.forgets (admits.reduceDamage _ _)
  exact fun event => admits.fillActual fills event

theorem applyPreparedHealing {slot : EventSlotId}
    (fills : ∀ {held world event}, world.work.eventSlots.contains slot = true → I (event :: held) world →
      I held (world.withSlot slot ⟨some event⟩)) (request : HealingRequest) (proposedEvent : EventId) (ordinal : Nat) :
    Maintains I (applyPreparedHealing request proposedEvent slot ordinal) := by
  apply Uses.bind admits.forgets (admits.takeProposed _)
  intro proposed
  apply Uses.bind admits.forgets (admits.reduceHealing _ _)
  exact fun event => admits.fillActual fills event

theorem resolveEventSlot_at {slot : EventSlotId} {world : World}
    (takes : ∀ held, I held world →
      I (((world.work.eventSlots[slot]?).bind PreparedEventSlot.event).toList ++ held) (world.withoutSlot slot)) :
    UsesAt I [] (resolveEventSlot slot) world := by
  intro held invariant
  have taken := takes held invariant
  show I held ((_ >>= _ : Sim Unit) world).1
  rw [Procedure.read_bind, Procedure.change_bind]
  show I held ((_ >>= _ : Sim Unit) (world.withoutSlot slot)).1
  cases found : world.work.eventSlots[slot]? with
  | none =>
    rw [found] at taken
    exact taken
  | some prepared =>
    rw [found] at taken
    rcases prepared with ⟨event⟩
    cases event with
    | none => exact taken
    | some event => exact admits.pushResolveEvent event _ held taken

theorem allocateEventSlots (allots : ∀ {held world}, I held world → I held (World.allotted world)) (count : Nat) :
    Maintains I (allocateEventSlots count) :=
  Maintains.mapM admits.forgets fun _ _ => .changing fun _ _ => allots

theorem expandBatch {α : Type} {process : α → EventSlotId → Nat → ResolutionOp}
    (allots : ∀ {held world}, I held world → I held (World.allotted world))
    (processes : ∀ world request slot ordinal, allowed world (process request slot ordinal))
    (unresolving : ∀ request slot ordinal, (process request slot ordinal).resolvedEvent = none)
    (resolves : ∀ world slot, allowed world (.resolveEventSlot slot)) (requests : List α) :
    Maintains I (expandBatch process requests) := by
  apply Uses.bind admits.forgets (admits.allocateEventSlots allots _)
  intro slots world
  apply admits.pushResolutionOps_at
  · intro operation member
    rcases List.mem_append.mp member with processed | resolved
    · rcases List.mem_map.mp processed with ⟨numbered, _, rfl⟩
      exact processes _ _ _ _
    · rcases List.mem_map.mp resolved with ⟨slot, _, rfl⟩
      exact resolves _ _
  · rw [List.filterMap_eq_nil_iff]
    intro operation member
    rcases List.mem_append.mp member with processed | resolved
    · rcases List.mem_map.mp processed with ⟨numbered, _, rfl⟩
      exact unresolving _ _ _
    · rcases List.mem_map.mp resolved with ⟨slot, _, rfl⟩
      rfl

theorem finishPlayedSelfTransform {originalAfterPlay : List TriggerSeed}
    (seeds : ∀ {held world context}, I held world →
      I (world.work.nextEventId :: held) (world.recorded context (some originalAfterPlay)))
    (scope : ResolutionId) (subject : GameEntityId) :
    Maintains I (finishPlayedSelfTransform scope subject originalAfterPlay) := by
  apply Uses.bind admits.forgets (validatePlayScope_maintains _ _)
  intro _
  apply Uses.bind admits.forgets
  · exact admits.tidyWork fun _ => .of_events rfl rfl rfl rfl rfl rfl rfl rfl
  intro _
  apply Uses.read_bind
  intro world
  split
  · apply Uses.bind admits.forgets
    · exact admits.tidyWork fun _ => .of_events rfl rfl rfl rfl rfl rfl rfl rfl
    intro _
    apply Uses.ofExcept_bind admits.forgets
    intro controller _
    apply Yields.bind admits.forgets (admits.prepareEvent _)
    intro insertedEvent
    have prepares : ∀ context, Yields I (fun event => [event]) (prepareEventWithSeeds context originalAfterPlay) :=
      fun _ _ _ => seeds
    apply Yields.bind admits.forgets (prepares _)
    intro originalAfterPlayEvent world
    apply UsesAt.reorder admits.forgets (List.Perm.swap insertedEvent originalAfterPlayEvent [])
    refine admits.pushResolutionOps_at ?_ rfl
    intro operation member
    simp only [List.mem_cons, List.not_mem_nil, or_false] at member
    rcases member with rfl | rfl | rfl <;> exact admits.common True.intro
  · exact Uses.pure admits.forgets _

theorem requestChoice {request : ChoiceRequest}
    (pends : ∀ {held world}, I held world →
      I held (world.withWork fun work => { work with pendingChoice := some ⟨request⟩ })) :
    Maintains I (requestChoice request) := by
  apply Uses.bind admits.forgets (Maintains.change fun _ _ => pends)
  intro _
  apply Uses.bind admits.forgets
  · exact .change fun _ _ => admits.aside ⟨rfl, rfl, rfl, rfl, rfl, rfl, rfl, le_rfl, subset_rfl⟩
  · exact fun _ => admits.trace _

theorem attack {player : PlayerId} {attacker defender : GameEntityId}
    (prepares : ∀ world guards, allowed world
      (.runGuardedSequenceStep guards (.prepareCombatDamage player attacker defender))) :
    Maintains I (attack player attacker defender) := by
  intro world
  refine admits.pushResolutionOps_at ?_ rfl
  intro operation member
  simp only [List.mem_cons, List.not_mem_nil, or_false] at member
  rcases member with rfl | rfl | rfl | rfl | rfl
  · exact admits.common True.intro
  · exact admits.common True.intro
  · exact admits.common True.intro
  · exact admits.common True.intro
  · exact prepares _ _

theorem capturePayer {payer : Option (PlayerId × GameEntityId)}
    (consumes : ∀ world player weapon, payer = some (player, weapon) →
      allowed world (.runSequenceStep (.consumeDurability player weapon))) : Maintains I (capturePayer payer) := by
  cases payer with
  | none => exact Uses.pure admits.forgets _
  | some payer =>
    apply Uses.bind admits.forgets
    · exact fun world => admits.pushResolutionOp_at (consumes world payer.1 payer.2 rfl) rfl
    · exact fun _ => admits.tidyWork fun _ => .of_events rfl rfl rfl rfl rfl rfl rfl rfl

theorem prepareCombatDamage {player : PlayerId} {attacker defender : GameEntityId}
    (consumes : ∀ world player weapon, allowed world (.runSequenceStep (.consumeDurability player weapon))) :
    Maintains I (prepareCombatDamage player attacker defender) := by
  apply Uses.read_bind
  intro world
  split
  · exact Uses.pure admits.forgets _
  · apply Uses.bind admits.forgets
    · exact admits.pushResolutionOp (by trivial) rfl
    intro _
    apply Uses.bind admits.forgets (admits.capturePayer fun _ _ _ _ => consumes _ _ _)
    intro _
    apply Uses.bind_pure
    exact admits.pushResolutionOp (by trivial) rfl

theorem openPlayScope_at {subject : GameEntityId} {seeds : List TriggerSeed} {world : World}
    (permitted : allowed world (.finishPlayedSelfTransform subject seeds)) :
    UsesAt I [] (openPlayScope subject seeds) world := by
  apply UsesAt.bind admits.forgets
  · exact admits.pushResolutionOp_at permitted rfl
  · intro scope opened _
    apply Uses.bind admits.forgets
    · exact admits.tidyWork fun _ => .of_events rfl rfl rfl rfl rfl rfl rfl rfl
    · exact fun _ => Uses.pure admits.forgets _

theorem expandEvent {event : EventId}
    (attempts : ∀ world candidate, allowed world (.attemptTrigger candidate))
    (collects : ∀ {held} {world : World} {prepared : PreparedEvent} {found : List TriggerCandidate}, I held world →
      I held (world.withWork fun work =>
        { work with events := work.events.insert event { prepared with candidates := some found } })) :
    Maintains I (expandEvent event) := by
  apply Uses.read_bind
  intro world
  apply Uses.ofExcept_bind admits.forgets
  intro prepared _
  apply Uses.bind admits.forgets
  · unfold eventCandidates
    split
    · exact Uses.pure admits.forgets _
    · apply Uses.read_bind
      intro world
      apply Uses.bind admits.forgets (Maintains.change fun _ _ => collects)
      intro _
      apply Uses.bind admits.forgets (admits.trace _)
      exact fun _ => Uses.pure admits.forgets _
  · intro found world
    apply admits.pushResolutionOps_at
    · intro operation member
      rcases List.mem_append.mp member with attempted | last
      · rcases List.mem_map.mp attempted with ⟨candidate, _, rfl⟩
        exact attempts _ _
      · split at last
        · cases last
        · rw [List.mem_singleton.mp last]
          exact admits.common True.intro
    · rw [List.filterMap_eq_nil_iff]
      intro operation member
      rcases List.mem_append.mp member with attempted | last
      · rcases List.mem_map.mp attempted with ⟨candidate, _, rfl⟩
        rfl
      · split at last
        · cases last
        · rw [List.mem_singleton.mp last]
          rfl

/-- What else operations do that bring something of their own, where all of them may be scheduled. -/
structure Serves (I : List EventId → World → Prop) : Prop where
  fills : ∀ {held} {world : World} {slot event}, I (event :: held) world → I held (world.withSlot slot ⟨some event⟩)
  takes : ∀ {held} {world : World} {slot}, I held world →
    I (((world.work.eventSlots[slot]?).bind PreparedEventSlot.event).toList ++ held) (world.withoutSlot slot)
  allots : ∀ {held} {world : World}, I held world → I held world.allotted
  collects : ∀ {held} {world : World} {event : EventId} {prepared : PreparedEvent} {found : List TriggerCandidate},
    I held world → I held (world.withWork fun work =>
      { work with events := work.events.insert event { prepared with candidates := some found } })
  seeds : ∀ {held} {world : World} {context originalAfterPlay}, I held world →
    I (world.work.nextEventId :: held) (world.recorded context (some originalAfterPlay))
  pends : ∀ {held} {world : World} {request : ChoiceRequest}, I held world →
    I held (world.withWork fun work => { work with pendingChoice := some ⟨request⟩ })
  wears : ∀ {held} {world : World} {player weapon}, I held world → I held (world.consumeDurability player weapon)

omit admits in
theorem special_open (admits : Admits (fun _ _ => True) (fun _ => True) I) (serves : Serves I) {step : SequenceStep}
    (special : step.Special) : Maintains I (runSequenceStep step) := by
  cases step with
  | consumeDurability player weapon => exact .change fun _ _ => serves.wears
  | prepareCombatDamage player attacker defender => exact admits.prepareCombatDamage fun _ _ _ => trivial
  | attack player attacker defender => exact admits.attack fun _ _ => trivial
  | playCard player card target boardIndex =>
    exact fun _ => admits.playCard_at (fun _ _ => trivial) fun _ _ => admits.openPlayScope_at trivial
  | useHeroPower player power target => exact fun _ => admits.useHeroPower_at fun _ _ => trivial
  | startTurn player kind => exact admits.startTurn (fun _ => trivial) player kind
  | _ => exact special.elim

omit admits in
theorem own_open [NativeEffects] (admits : Admits (fun _ _ => True) (fun _ => True) I) (serves : Serves I)
    (id : ResolutionId) {operation : ResolutionOp} (own : operation.Own) :
    Maintains I (executeResolutionOp id operation) := by
  cases operation with
  | resolveEvent event => exact admits.expandEvent (fun _ _ => trivial) serves.collects
  | resolveEventSlot slot => exact fun _ => admits.resolveEventSlot_at fun _ => serves.takes
  | processDamageBatch requests =>
    change Maintains I (if requests.isEmpty then pure () else HearthstoneSimulator.expandBatch .processDamage requests)
    split
    · exact Uses.pure admits.forgets _
    · exact admits.expandBatch serves.allots (fun _ _ _ _ => trivial) (fun _ _ _ => rfl) (fun _ _ => trivial) _
  | processDamage request slot ordinal => exact admits.processDamage fun _ _ _ => trivial
  | applyDamage request proposed slot ordinal => exact admits.applyPreparedDamage (fun _ => serves.fills) _ _ _
  | processHealingBatch requests =>
    change Maintains I (if requests.isEmpty then pure () else HearthstoneSimulator.expandBatch .processHealing requests)
    split
    · exact Uses.pure admits.forgets _
    · exact admits.expandBatch serves.allots (fun _ _ _ _ => trivial) (fun _ _ _ => rfl) (fun _ _ => trivial) _
  | processHealing request slot ordinal => exact admits.processHealing fun _ _ _ => trivial
  | applyHealing request proposed slot ordinal => exact admits.applyPreparedHealing (fun _ => serves.fills) _ _ _
  | finishPlayedSelfTransform subject seeds => exact admits.finishPlayedSelfTransform serves.seeds _ _
  | requestChoice request =>
    apply Uses.read_bind
    intro world
    apply Uses.ofExcept_bind admits.forgets
    intro _ _
    split
    · exact admits.raise _
    · exact admits.requestChoice serves.pends
  | _ => exact own.elim

omit admits in
/-- Where everything may be scheduled, every operation keeps the invariant. -/
theorem execute_open [NativeEffects] (admits : Admits (fun _ _ => True) (fun _ => True) I) (serves : Serves I)
    (id : ResolutionId) (operation : ResolutionOp) : Maintains I (executeResolutionOp id operation) := by
  intro world
  apply admits.execute_at
  · exact fun own => admits.own_open serves id own world
  · exact fun step _ special => admits.special_open serves special world
  · exact fun _ _ _ _ => admits.gainResource fun _ => trivial

end Admits

end Admission

end HearthstoneSimulator

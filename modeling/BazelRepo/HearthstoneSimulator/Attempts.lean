import BazelRepo.HearthstoneSimulator.DepthFirst

namespace HearthstoneSimulator

open Library

/-- An attempt of a trigger at an event: the event, the source and which of its definitions it is. -/
def TriggerCandidate.attempt (candidate : TriggerCandidate) : EventId × GameEntityId × Nat :=
  (candidate.event, candidate.mark)

def ResolutionOp.attempted : ResolutionOp → Option TriggerCandidate
  | .attemptTrigger candidate => some candidate
  | _ => none

def attempts (history : List Executed) : List TriggerCandidate :=
  history.filterMap fun executed => executed.stacked.operation.attempted

def stackAttempts (work : ResolutionWork) : List TriggerCandidate :=
  work.stack.filterMap fun stacked => stacked.operation.attempted

/-- The events that will resolve: those at hand, on the stack and in slots. -/
def waits (held : List EventId) (work : ResolutionWork) : List EventId :=
  held ++ (work.stack.filterMap (fun stacked => stacked.operation.resolvedEvent) ++
    work.eventSlots.toList.filterMap fun slot => slot.2.event)

/-- Seeds of different triggers, whose sources have numbers below a bound. -/
def Frozen (seeds : List TriggerSeed) (bound : GameEntityId) : Prop :=
  (seeds.map TriggerSeed.mark).Nodup ∧ ∀ seed ∈ seeds, seed.source < bound

def ResolutionOp.Sound (bound : GameEntityId) : ResolutionOp → Prop
  | .finishPlayedSelfTransform _ seeds => Frozen seeds bound
  | .requestChoice request => ∀ option ∈ request.options, ∀ operation ∈ option.operations, operation.IsEffect
  | _ => True

def World.Numbered (world : World) : Prop := ∀ id, (world.entities[id]?).isSome = true → id < world.nextGameEntityId

/-- Seeds and candidates of an event that were collected stay as they are. -/
structure PreparedEvent.Stays (before prepared : PreparedEvent) : Prop where
  precheckedTriggers : prepared.precheckedTriggers = before.precheckedTriggers
  candidates : ∀ candidates ∈ before.candidates, prepared.candidates = some candidates

/-- The events with what was collected for them, as far as they are there before. -/
def EventsFrom (work other : ResolutionWork) : Prop :=
  ∀ (event : EventId) (prepared : PreparedEvent), other.events[event]? = some prepared → ∃ before : PreparedEvent, work.events[event]? = some before ∧
    prepared.precheckedTriggers = before.precheckedTriggers ∧ prepared.candidates = before.candidates

theorem EventsFrom.of_same {work other : ResolutionWork} (same : other.events = work.events) : EventsFrom work other := by
  intro event prepared found
  rw [same] at found
  exact ⟨prepared, found, rfl, rfl⟩

theorem Frozen.mono {seeds : List TriggerSeed} {bound larger : GameEntityId} (frozen : Frozen seeds bound)
    (le : bound ≤ larger) : Frozen seeds larger :=
  ⟨frozen.1, fun seed member => (frozen.2 seed member).trans_le le⟩

theorem ResolutionOp.Sound.mono {operation : ResolutionOp} {bound larger : GameEntityId} (sound : operation.Sound bound)
    (le : bound ≤ larger) : operation.Sound larger := by
  cases operation with
  | finishPlayedSelfTransform subject seeds => exact Frozen.mono sound le
  | requestChoice request => exact sound
  | _ => trivial

theorem waits_subperm {held kept : List EventId} (part : kept.Subperm held) (work : ResolutionWork) :
    (waits kept work).Subperm (waits held work) :=
  part.append (List.Subperm.refl _)

section Runs

variable [QueryOrder]

/-- The candidates of an event, collected in a world if they are not yet. -/
def World.candidatesOf (world : World) (event : EventId) : List TriggerCandidate :=
  match world.work.events[event]? with
  | none => []
  | some prepared => prepared.candidates.getD (world.collectTriggerCandidates event prepared.context
      (prepared.precheckedTriggers.getD (world.collectTriggerSeeds prepared.context)))

def Executed.during (executed : Executed) : World :=
  charged executed.stacked (popped executed.world executed.world.work.stack.tail)

/-- An event waits to be resolved at one place, and not again when that is done, and has no candidates until then. Attempts
are made, once each, for events that were resolved, from the candidates that were collected then. What is collected for an
event stays with it. -/
structure Attempting (done : List EventId) (history : List Executed) (held : List EventId) (world : World) : Prop where
  numbered : world.Numbered
  pending : (done ++ waits held world.work).Nodup
  fresh : ∀ event ∈ done ++ waits held world.work, event < world.work.nextEventId
  recorded : ∀ event : EventId, (world.work.events[event]?).isSome = true → event < world.work.nextEventId
  unopened : ∀ event ∈ waits held world.work, ∀ prepared : PreparedEvent, world.work.events[event]? = some prepared →
    prepared.candidates = none
  seeds : ∀ (event : EventId) (prepared : PreparedEvent), world.work.events[event]? = some prepared → ∀ seeds ∈ prepared.precheckedTriggers,
    Frozen seeds world.nextGameEntityId
  sound : ∀ stacked ∈ world.work.stack, stacked.operation.Sound world.nextGameEntityId
  offered : ∀ pending, world.work.pendingChoice = some pending → ∀ option ∈ pending.request.options,
    ∀ operation ∈ option.operations, operation.IsEffect
  once : ((attempts history ++ stackAttempts world.work).map TriggerCandidate.attempt).Nodup
  spent : ∀ candidate ∈ attempts history ++ stackAttempts world.work,
    candidate.event < world.work.nextEventId ∧ candidate.event ∉ waits held world.work
  expanded : ∀ candidate ∈ attempts history ++ stackAttempts world.work, ∃ executed ∈ history,
    executed.stacked.operation = .resolveEvent candidate.event ∧ candidate ∈ executed.during.candidatesOf candidate.event
  known : ∀ executed ∈ history, ∀ event : EventId, (executed.world.work.events[event]?).isSome = true →
    event < world.work.nextEventId
  frozen : ∀ executed ∈ history, ∀ (event : EventId) (before prepared : PreparedEvent),
    executed.world.work.events[event]? = some before → world.work.events[event]? = some prepared → before.Stays prepared

variable {done : List EventId} {history : List Executed} {held : List EventId} {world other : World}

theorem Attempting.transfer {kept : List EventId} (attempting : Attempting done history held world) (numbered : other.Numbered)
    (bound : world.nextGameEntityId ≤ other.nextGameEntityId)
    (waiting : (waits kept other.work).Subperm (waits held world.work))
    (nextEventId : other.work.nextEventId = world.work.nextEventId) (stack : other.work.stack.Sublist world.work.stack)
    (offered : ∀ pending, other.work.pendingChoice = some pending → ∀ option ∈ pending.request.options,
      ∀ operation ∈ option.operations, operation.IsEffect)
    (events : EventsFrom world.work other.work) : Attempting done history kept other := by
  have fewer : (attempts history ++ stackAttempts other.work).Sublist (attempts history ++ stackAttempts world.work) :=
    (stack.filterMap _).append_left _
  have whole : (done ++ waits kept other.work).Subperm (done ++ waits held world.work) :=
    (List.Subperm.refl done).append waiting
  refine ⟨numbered, ?_, ?_, ?_, ?_, ?_, ?_, offered, ?_, ?_, ?_, ?_, ?_⟩
  · rcases whole with ⟨part, perm, sublist⟩
    exact perm.nodup_iff.mp (attempting.pending.sublist sublist)
  · intro event member
    rw [nextEventId]
    exact attempting.fresh event (whole.subset member)
  · intro event present
    rw [nextEventId]
    rcases Option.isSome_iff_exists.mp present with ⟨prepared, found⟩
    rcases events event prepared found with ⟨before, earlier, _⟩
    exact attempting.recorded event (Option.isSome_iff_exists.mpr ⟨before, earlier⟩)
  · intro event member prepared found
    rcases events event prepared found with ⟨before, present, _, candidates⟩
    rw [candidates]
    exact attempting.unopened event (waiting.subset member) before present
  · intro event prepared found seeds listed
    rcases events event prepared found with ⟨before, present, prechecked, _⟩
    rw [prechecked] at listed
    exact (attempting.seeds event before present seeds listed).mono bound
  · intro stacked member
    exact (attempting.sound stacked (stack.subset member)).mono bound
  · exact attempting.once.sublist (fewer.map _)
  · intro candidate member
    rw [nextEventId]
    rcases attempting.spent candidate (fewer.subset member) with ⟨known, apart⟩
    exact ⟨known, fun again => apart (waiting.subset again)⟩
  · intro candidate member
    exact attempting.expanded candidate (fewer.subset member)
  · intro executed member event present
    rw [nextEventId]
    exact attempting.known executed member event present
  · intro executed member event before prepared earlier found
    rcases events event prepared found with ⟨middle, present, prechecked, candidates⟩
    rcases attempting.frozen executed member event before middle earlier present with ⟨seeds, collected⟩
    refine ⟨prechecked.trans seeds, ?_⟩
    intro list listed
    rw [candidates]
    exact collected list listed

theorem Attempting.withWork {kept : List EventId} {change : ResolutionWork → ResolutionWork}
    (attempting : Attempting done history held world)
    (waiting : (waits kept (change world.work)).Subperm (waits held world.work))
    (nextEventId : (change world.work).nextEventId = world.work.nextEventId)
    (stack : (change world.work).stack = world.work.stack)
    (offered : ∀ pending, (change world.work).pendingChoice = some pending → ∀ option ∈ pending.request.options,
      ∀ operation ∈ option.operations, operation.IsEffect)
    (events : EventsFrom world.work (change world.work)) : Attempting done history kept (world.withWork change) := by
  have numbered : (world.withWork change).Numbered := attempting.numbered
  have same : (world.withWork change).work.stack = world.work.stack := stack
  exact attempting.transfer numbered le_rfl waiting nextEventId (by rw [same]) offered events

theorem Attempting.record (attempting : Attempting done history held world) (context : EventContext)
    {precheckedTriggers : Option (List TriggerSeed)}
    (seeds : ∀ seeds ∈ precheckedTriggers, Frozen seeds world.nextGameEntityId) :
    Attempting done history (world.work.nextEventId :: held) (world.recorded context precheckedTriggers) := by
  have work : (world.recorded context precheckedTriggers).work = { world.work with
      nextEventId := world.work.nextEventId + 1
      events := world.work.events.insert world.work.nextEventId ⟨context, precheckedTriggers, none⟩ } := rfl
  have waiting : waits (world.work.nextEventId :: held) (world.recorded context precheckedTriggers).work =
      world.work.nextEventId :: waits held world.work := rfl
  have added : (done ++ world.work.nextEventId :: waits held world.work).Perm
      (world.work.nextEventId :: (done ++ waits held world.work)) := List.perm_middle
  -- The event is one of before, or the new one.
  have split : ∀ (event : EventId) (prepared : PreparedEvent),
      (world.recorded context precheckedTriggers).work.events[event]? = some prepared →
        event = world.work.nextEventId ∧ prepared = ⟨context, precheckedTriggers, none⟩ ∨
          event ≠ world.work.nextEventId ∧ world.work.events[event]? = some prepared := by
    intro event prepared found
    rw [work] at found
    dsimp only at found
    rw [BTreeMap.getElem?_insert_eq] at found
    split at found
    · rename_i same
      cases found
      exact .inl ⟨same, rfl⟩
    · rename_i apart
      exact .inr ⟨apart, found⟩
  refine ⟨attempting.numbered, ?_, ?_, ?_, ?_, ?_, attempting.sound, attempting.offered, attempting.once, ?_,
    attempting.expanded, ?_, ?_⟩
  · rw [waiting, added.nodup_iff, List.nodup_cons]
    refine ⟨?_, attempting.pending⟩
    intro member
    exact lt_irrefl _ (attempting.fresh _ member)
  · intro event member
    rw [waiting, added.mem_iff] at member
    rcases List.mem_cons.mp member with rfl | before
    · exact Nat.lt_succ_self _
    · exact (attempting.fresh event before).trans (Nat.lt_succ_self _)
  · intro event present
    rcases Option.isSome_iff_exists.mp present with ⟨prepared, found⟩
    rcases split event prepared found with ⟨rfl, _⟩ | ⟨_, old⟩
    · exact Nat.lt_succ_self _
    · exact (attempting.recorded event (Option.isSome_iff_exists.mpr ⟨prepared, old⟩)).trans (Nat.lt_succ_self _)
  · intro event member prepared found
    rcases split event prepared found with ⟨_, rfl⟩ | ⟨apart, old⟩
    · rfl
    · rw [waiting] at member
      rcases List.mem_cons.mp member with same | before
      · exact absurd same apart
      · exact attempting.unopened event before prepared old
  · intro event prepared found
    rcases split event prepared found with ⟨_, rfl⟩ | ⟨_, old⟩
    · exact seeds
    · exact attempting.seeds event prepared old
  · intro candidate member
    rcases attempting.spent candidate member with ⟨known, apart⟩
    refine ⟨known.trans (Nat.lt_succ_self _), ?_⟩
    rw [waiting]
    intro again
    rcases List.mem_cons.mp again with same | before
    · exact absurd known (by rw [same]; exact lt_irrefl _)
    · exact apart before
  · intro executed member event present
    exact (attempting.known executed member event present).trans (Nat.lt_succ_self _)
  · intro executed member event before prepared earlier found
    rcases split event prepared found with ⟨rfl, _⟩ | ⟨_, old⟩
    · exact absurd (attempting.known executed member _ (Option.isSome_iff_exists.mpr ⟨before, earlier⟩)) (lt_irrefl _)
    · exact attempting.frozen executed member event before prepared earlier old

omit [QueryOrder] in
theorem stack_foldr (work : ResolutionWork) (operations : List ResolutionOp) :
    ∃ newer : List StackedResolutionOp, newer.map StackedResolutionOp.operation = operations ∧
      operations.foldr (fun operation work => work.push operation) work = { work with
        stack := newer ++ work.stack
        nextResolutionId := work.nextResolutionId + operations.length } := by
  induction operations with
  | nil => exact ⟨[], rfl, rfl⟩
  | cons operation rest ih =>
    rcases ih with ⟨newer, operations, pushed⟩
    refine ⟨⟨work.nextResolutionId + rest.length, operation⟩ :: newer, ?_, ?_⟩
    · rw [List.map_cons, operations]
    · rw [List.foldr_cons, pushed]
      rfl

theorem Attempting.push {given : List EventId} {operations : List ResolutionOp}
    (events : operations.filterMap ResolutionOp.resolvedEvent = given)
    (attempting : Attempting done history (given ++ held) world)
    (sound : ∀ operation ∈ operations, operation.Sound world.nextGameEntityId)
    (once : ((operations.filterMap ResolutionOp.attempted).map TriggerCandidate.attempt).Nodup)
    (spent : ∀ candidate ∈ operations.filterMap ResolutionOp.attempted, candidate.event < world.work.nextEventId ∧
      candidate.event ∉ waits (given ++ held) world.work ∧
      ∀ before ∈ attempts history ++ stackAttempts world.work, before.event ≠ candidate.event)
    (expanded : ∀ candidate ∈ operations.filterMap ResolutionOp.attempted, ∃ executed ∈ history,
      executed.stacked.operation = .resolveEvent candidate.event ∧
        candidate ∈ executed.during.candidatesOf candidate.event) :
    Attempting done history held (world.scheduled operations) := by
  rcases stack_foldr world.work operations with ⟨newer, made, pushed⟩
  have work : (world.scheduled operations).work = { world.work with
      stack := newer ++ world.work.stack
      nextResolutionId := world.work.nextResolutionId + operations.length } := pushed
  have next : (world.scheduled operations).work.nextEventId = world.work.nextEventId := by
    rw [work]
  have resolved : newer.filterMap (fun stacked => stacked.operation.resolvedEvent) = given := by
    rw [← events, ← made, List.filterMap_map]
    rfl
  have newAttempts : newer.filterMap (fun stacked => stacked.operation.attempted) =
      operations.filterMap ResolutionOp.attempted := by
    rw [← made, List.filterMap_map]
    rfl
  have waiting : (waits held (world.scheduled operations).work).Perm (waits (given ++ held) world.work) := by
    unfold waits
    rw [work]
    dsimp only
    rw [List.filterMap_append, resolved, ← List.append_assoc, ← List.append_assoc, ← List.append_assoc]
    exact (List.perm_append_comm.append_right _).append_right _
  have all : stackAttempts (world.scheduled operations).work =
      operations.filterMap ResolutionOp.attempted ++ stackAttempts world.work := by
    unfold stackAttempts
    rw [work, List.filterMap_append, newAttempts]
  have split : ∀ candidate, candidate ∈ attempts history ++ stackAttempts (world.scheduled operations).work →
      candidate ∈ operations.filterMap ResolutionOp.attempted ∨
        candidate ∈ attempts history ++ stackAttempts world.work := by
    intro candidate member
    rw [all] at member
    rcases List.mem_append.mp member with early | late
    · exact .inr (List.mem_append_left _ early)
    · rcases List.mem_append.mp late with new | old
      · exact .inl new
      · exact .inr (List.mem_append_right _ old)
  have whole := waiting.append_left done
  refine ⟨attempting.numbered, ?_, ?_, ?_, ?_, ?_, ?_, ?_, ?_, ?_, ?_, ?_, ?_⟩
  · exact whole.nodup_iff.mpr attempting.pending
  · intro event member
    rw [work]
    exact attempting.fresh event (whole.mem_iff.mp member)
  · intro event present
    rw [work] at present ⊢
    exact attempting.recorded event present
  · intro event member prepared found
    rw [work] at found
    exact attempting.unopened event (waiting.mem_iff.mp member) prepared found
  · intro event prepared found
    rw [work] at found
    exact attempting.seeds event prepared found
  · intro stacked member
    rw [work] at member
    rcases List.mem_append.mp member with new | old
    · apply sound
      rw [← made]
      exact List.mem_map_of_mem new
    · exact attempting.sound stacked old
  · intro pending found
    rw [work] at found
    exact attempting.offered pending found
  · rw [all]
    have perm : (attempts history ++ (operations.filterMap ResolutionOp.attempted ++ stackAttempts world.work)).Perm
        (operations.filterMap ResolutionOp.attempted ++ (attempts history ++ stackAttempts world.work)) := by
      rw [← List.append_assoc, ← List.append_assoc]
      exact List.perm_append_comm.append_right _
    rw [(perm.map TriggerCandidate.attempt).nodup_iff, List.map_append, List.nodup_append]
    refine ⟨once, attempting.once, ?_⟩
    intro attempt new attempt' old same
    rcases List.mem_map.mp new with ⟨candidate, listed, rfl⟩
    rcases List.mem_map.mp old with ⟨before, listed', rfl⟩
    exact (spent candidate listed).2.2 before listed' (congrArg Prod.fst same).symm
  · intro candidate member
    rcases split candidate member with new | old
    · rcases spent candidate new with ⟨known, apart, _⟩
      rw [next]
      exact ⟨known, fun again => apart (waiting.mem_iff.mp again)⟩
    · rcases attempting.spent candidate old with ⟨known, apart⟩
      rw [next]
      exact ⟨known, fun again => apart (waiting.mem_iff.mp again)⟩
  · intro candidate member
    rcases split candidate member with new | old
    · exact expanded candidate new
    · exact attempting.expanded candidate old
  · intro executed member event present
    rw [work]
    exact attempting.known executed member event present
  · intro executed member event before prepared earlier found
    rw [work] at found
    exact attempting.frozen executed member event before prepared earlier found

/-- The operations that any operation may schedule, and more, but no attempt. -/
def Schedulable (world : World) (operation : ResolutionOp) : Prop :=
  operation.attempted = none ∧ operation.Sound world.nextGameEntityId

omit [QueryOrder] in
theorem ResolutionOp.IsEffect.schedulable {operation : ResolutionOp} (effect : operation.IsEffect) (world : World) :
    operation.resolvedEvent = none ∧ Schedulable world operation := by
  cases operation with
  | runEffect context effect event => exact ⟨rfl, rfl, trivial⟩
  | _ => exact effect.elim

omit [QueryOrder] in
theorem ResolutionOp.Common.schedulable {operation : ResolutionOp} (common : operation.Common) (world : World) :
    Schedulable world operation := by
  cases operation with
  | attemptTrigger candidate => exact common.elim
  | finishPlayedSelfTransform subject seeds => exact common.elim
  | requestChoice request => exact ⟨rfl, common⟩
  | _ => exact ⟨rfl, trivial⟩

theorem Attempting.schedule {given : List EventId} {operations : List ResolutionOp}
    (events : operations.filterMap ResolutionOp.resolvedEvent = given)
    (attempting : Attempting done history (given ++ held) world)
    (schedulable : ∀ operation ∈ operations, Schedulable world operation) :
    Attempting done history held (world.scheduled operations) := by
  have none : operations.filterMap ResolutionOp.attempted = [] := by
    rw [List.filterMap_eq_nil_iff]
    exact fun operation member => (schedulable operation member).1
  apply Attempting.push events attempting fun operation member => (schedulable operation member).2
  · rw [none]
    exact List.nodup_nil
  · intro candidate member
    rw [none] at member
    cases member
  · intro candidate member
    rw [none] at member
    cases member

theorem Attempting.scheduleEventless {operations : List ResolutionOp}
    (eventless : ∀ operation ∈ operations, operation.resolvedEvent = none) (attempting : Attempting done history held world)
    (schedulable : ∀ operation ∈ operations, Schedulable world operation) :
    Attempting done history held (world.scheduled operations) :=
  Attempting.schedule (List.filterMap_eq_nil_iff.mpr eventless) attempting schedulable

theorem Attempting.kept (kept : World.Keeps anyAlteration world other) (attempting : Attempting done history held world) :
    Attempting done history held other := by
  have numbered : other.Numbered := by
    intro id present
    rcases kept.born id present with old | ⟨_, new⟩
    · exact (attempting.numbered id old).trans_le kept.nextGameEntityId
    · exact new
  apply attempting.transfer numbered kept.nextGameEntityId
  · rw [kept.work]
  · rw [kept.work]
  · rw [kept.work]
  · rw [kept.work]
    exact attempting.offered
  · exact .of_same (by rw [kept.work])

theorem Attempting.trace (attempting : Attempting done history held world) (entry : TraceEntry) :
    Attempting done history held (world.trace entry) := by
  have aside : Aside world (world.trace entry) := ⟨rfl, rfl, rfl, rfl, rfl, rfl, rfl, le_rfl, subset_rfl⟩
  exact attempting.kept aside.keeps

theorem frozen_collectTriggerSeeds (numbered : world.Numbered) (context : EventContext) :
    Frozen (world.collectTriggerSeeds context) world.nextGameEntityId :=
  ⟨world.nodup_collectTriggerSeeds context, fun _ member => numbered _ (World.source_collectTriggerSeeds member)⟩

theorem attempting_flow (done : List EventId) (history : List Executed) : Flow Schedulable (Attempting done history) where
  forgets := by
    refine ⟨?_⟩
    intro held kept world part attempting
    exact attempting.transfer attempting.numbered le_rfl (waits_subperm part _) rfl (List.Sublist.refl _)
      attempting.offered (.of_same rfl)
  kept kept attempting := attempting.kept kept
  tidy := by
    intro held world change tidy attempting
    apply attempting.withWork
    · unfold waits
      rw [tidy.stack, tidy.eventSlots]
    · exact tidy.nextEventId
    · exact tidy.stack
    · intro pending found
      rw [tidy.pendingChoice] at found
      exact attempting.offered pending found
    · intro event prepared found
      rcases tidy.events event prepared found with ⟨before, present, _, prechecked, candidates⟩
      exact ⟨before, present, prechecked, candidates⟩
  common common := common.schedulable _
  push schedulable attempting := attempting.schedule rfl schedulable
  record attempting := attempting.record _ nofun
  recordSeeds attempting := by
    apply attempting.record
    rintro seeds ⟨⟩
    exact frozen_collectTriggerSeeds attempting.numbered _

theorem attempting_fills {slot : EventSlotId} {event : EventId} (attempting : Attempting done history (event :: held) world) :
    Attempting done history held (world.withSlot slot ⟨some event⟩) := by
  refine attempting.withWork ?_ rfl rfl attempting.offered (.of_same rfl)
  have inserted := BTreeMap.filterMap_insert_subperm (fun entry : EventSlotId × PreparedEventSlot => entry.2.event)
    world.work.eventSlots slot ⟨some event⟩
  rw [List.subperm_iff_count] at inserted ⊢
  intro other
  have counts := inserted other
  simp only [waits, Option.toList_some, List.count_append, List.count_cons, List.count_nil] at counts ⊢
  omega

theorem attempting_allots (attempting : Attempting done history held world) : Attempting done history held world.allotted := by
  refine attempting.withWork ?_ rfl rfl attempting.offered (.of_same rfl)
  have inserted := BTreeMap.filterMap_insert_subperm (fun entry : EventSlotId × PreparedEventSlot => entry.2.event)
    world.work.eventSlots world.work.nextEventSlotId {}
  exact (List.Subperm.refl held).append ((List.Subperm.refl _).append inserted)

theorem attempting_takes {slot : EventSlotId} (attempting : Attempting done history held world) :
    Attempting done history (((world.work.eventSlots[slot]?).bind PreparedEventSlot.event).toList ++ held)
      (world.withoutSlot slot) := by
  refine attempting.withWork ?_ rfl rfl attempting.offered (.of_same rfl)
  have erased := BTreeMap.filterMap_erase_perm (fun entry : EventSlotId × PreparedEventSlot => entry.2.event)
    world.work.eventSlots slot
  apply List.Perm.subperm
  rw [List.perm_iff_count] at erased ⊢
  intro event
  have counts : List.count event (((world.work.eventSlots[slot]?).bind PreparedEventSlot.event).toList ++ _) = _ :=
    erased event
  simp only [waits, List.count_append] at counts ⊢
  omega

theorem Attempting.settle {given : List EventId} (attempting : Attempting done history (given ++ held) world) :
    Attempting (done ++ given) history held world := by
  have same : done ++ given ++ waits held world.work = done ++ waits (given ++ held) world.work := by
    unfold waits
    rw [List.append_assoc, List.append_assoc]
  have fewer : ∀ event ∈ waits held world.work, event ∈ waits (given ++ held) world.work := by
    unfold waits
    rw [List.append_assoc]
    exact fun event member => List.mem_append_right _ member
  refine ⟨attempting.numbered, ?_, ?_, attempting.recorded, ?_, attempting.seeds, attempting.sound, attempting.offered,
    attempting.once, ?_, attempting.expanded, attempting.known, attempting.frozen⟩
  · rw [same]
    exact attempting.pending
  · rw [same]
    exact attempting.fresh
  · exact fun event member => attempting.unopened event (fewer event member)
  · intro candidate member
    rcases attempting.spent candidate member with ⟨known, apart⟩
    exact ⟨known, fun again => apart (fewer _ again)⟩

theorem Attempting.collect {event : EventId} {prepared : PreparedEvent} (attempting : Attempting done history held world)
    (found : world.work.events[event]? = some prepared) (resolved : event ∉ waits held world.work)
    (uncollected : prepared.candidates = none) (candidates : List TriggerCandidate) :
    Attempting done history held (world.withWork fun work =>
      { work with events := work.events.insert event { prepared with candidates := some candidates } }) := by
  have split : ∀ (other : EventId) (after : PreparedEvent),
      (world.work.events.insert event { prepared with candidates := some candidates })[other]? = some after →
        other = event ∧ after = { prepared with candidates := some candidates } ∨
          world.work.events[other]? = some after := by
    intro other after inserted
    rw [BTreeMap.getElem?_insert_eq] at inserted
    split at inserted
    · rename_i same
      cases inserted
      exact .inl ⟨same, rfl⟩
    · exact .inr inserted
  refine ⟨attempting.numbered, attempting.pending, attempting.fresh, ?_, ?_, ?_, attempting.sound, attempting.offered,
    attempting.once, attempting.spent, attempting.expanded, attempting.known, ?_⟩
  · intro other present
    rcases Option.isSome_iff_exists.mp present with ⟨after, inserted⟩
    rcases split other after inserted with ⟨rfl, _⟩ | old
    · exact attempting.recorded other (Option.isSome_iff_exists.mpr ⟨prepared, found⟩)
    · exact attempting.recorded other (Option.isSome_iff_exists.mpr ⟨after, old⟩)
  · intro other member after inserted
    rcases split other after inserted with ⟨rfl, _⟩ | old
    · exact absurd member resolved
    · exact attempting.unopened other member after old
  · intro other after inserted
    rcases split other after inserted with ⟨rfl, rfl⟩ | old
    · exact attempting.seeds other prepared found
    · exact attempting.seeds other after old
  · intro executed member other before after earlier inserted
    rcases split other after inserted with ⟨rfl, rfl⟩ | old
    · rcases attempting.frozen executed member other before prepared earlier found with ⟨seeds, collected⟩
      refine ⟨seeds, ?_⟩
      intro list listed
      have again := collected list listed
      rw [uncollected] at again
      cases again
    · exact attempting.frozen executed member other before after earlier old

def World.seedsOf (world : World) (prepared : PreparedEvent) : List TriggerSeed :=
  prepared.precheckedTriggers.getD (world.collectTriggerSeeds prepared.context)

theorem eventCandidates_of_none {event : EventId} {prepared : PreparedEvent} (none : prepared.candidates = none)
    (world : World) : eventCandidates event prepared world =
      ((world.withWork fun work => { work with
          events := work.events.insert event { prepared with
            candidates := some (world.collectTriggerCandidates event prepared.context (world.seedsOf prepared)) } }).trace
        (.triggerSnapshot event (world.collectTriggerCandidates event prepared.context (world.seedsOf prepared))),
        .ok (world.collectTriggerCandidates event prepared.context (world.seedsOf prepared))) := by
  unfold eventCandidates
  rw [none]
  rfl

theorem candidatesOf_of_none {event : EventId} {prepared : PreparedEvent} (none : prepared.candidates = none)
    (found : world.work.events[event]? = some prepared) :
    world.candidatesOf event = world.collectTriggerCandidates event prepared.context (world.seedsOf prepared) := by
  unfold World.candidatesOf
  rw [found]
  dsimp only
  rw [none]
  rfl

def eventOps (candidates : List TriggerCandidate) (event : EventId) (context : EventContext) : List ResolutionOp :=
  candidates.map .attemptTrigger ++ if context.kind.isProposed then [] else [.finishEvent event]

omit [QueryOrder] in
theorem attempted_eventOps (candidates : List TriggerCandidate) (event : EventId) (context : EventContext) :
    (eventOps candidates event context).filterMap ResolutionOp.attempted = candidates := by
  unfold eventOps
  rw [List.filterMap_append, List.filterMap_map]
  have front : candidates.filterMap (ResolutionOp.attempted ∘ ResolutionOp.attemptTrigger) = candidates :=
    List.filterMap_some
  rw [front]
  split
  · exact List.append_nil _
  · exact List.append_nil _

omit [QueryOrder] in
theorem resolved_eventOps (candidates : List TriggerCandidate) (event : EventId) (context : EventContext) :
    (eventOps candidates event context).filterMap ResolutionOp.resolvedEvent = [] := by
  unfold eventOps
  rw [List.filterMap_append, List.filterMap_map]
  have front : candidates.filterMap (ResolutionOp.resolvedEvent ∘ ResolutionOp.attemptTrigger) = [] :=
    List.filterMap_eq_nil_iff.mpr fun _ _ => rfl
  rw [front]
  split <;> rfl

theorem frozen_seedsOf {event : EventId} {prepared : PreparedEvent} (attempting : Attempting done history held world)
    (found : world.work.events[event]? = some prepared) : Frozen (world.seedsOf prepared) world.nextGameEntityId := by
  unfold World.seedsOf
  cases prechecked : prepared.precheckedTriggers with
  | none => exact frozen_collectTriggerSeeds attempting.numbered _
  | some seeds => exact attempting.seeds event prepared found seeds prechecked

theorem expandEvent_attempting {event : EventId} {executed : Executed} (member : executed ∈ history)
    (operation : executed.stacked.operation = .resolveEvent event)
    (during : executed.during = world)
    (attempting : Attempting done history (event :: held) world) :
    Attempting (done ++ [event]) history held (expandEvent event world).1 := by
  have here : event ∈ waits (event :: held) world.work := List.mem_cons_self
  have resolved : event ∉ waits held world.work := by
    have pending := attempting.pending.of_append_right
    exact (List.nodup_cons.mp pending).1
  have left : Attempting (done ++ [event]) history held world := Attempting.settle attempting
  unfold expandEvent
  rw [Procedure.read_bind]
  cases found : world.work.events[event]? with
  | none => exact left
  | some prepared =>
    have none := attempting.unopened event here prepared found
    have all := candidatesOf_of_none none found
    show Attempting (done ++ [event]) history held ((eventCandidates event prepared >>= fun candidates =>
      pushResolutionOps (eventOps candidates event prepared.context)) world).1
    rw [Procedure.bind_eq_of_ok (eventCandidates_of_none none world), ← all]
    have noted := (left.collect found resolved none (world.candidatesOf event)).trace
      (.triggerSnapshot event (world.candidatesOf event))
    have frozen := frozen_seedsOf left found
    have marks := World.nodup_collectTriggerCandidates frozen.1 world event prepared.context
    rw [← all] at marks
    have own : ∀ candidate ∈ world.candidatesOf event, candidate.event = event := by
      intro candidate listed
      rw [all] at listed
      exact (World.mem_collectTriggerCandidates listed).1
    show Attempting (done ++ [event]) history held
      (World.scheduled (World.trace _ _) (eventOps (world.candidatesOf event) event prepared.context))
    apply Attempting.push (resolved_eventOps (world.candidatesOf event) event prepared.context) noted
    · intro pushed listed
      rcases List.mem_append.mp listed with attempt | last
      · rcases List.mem_map.mp attempt with ⟨candidate, _, rfl⟩
        trivial
      · split at last
        · cases last
        · rw [List.mem_singleton.mp last]
          trivial
    · rw [attempted_eventOps]
      apply List.Nodup.of_map Prod.snd
      rw [List.map_map]
      exact marks
    · rw [attempted_eventOps]
      intro candidate listed
      rw [own candidate listed]
      refine ⟨attempting.fresh event (List.mem_append_right _ here), resolved, ?_⟩
      intro before earlier same
      exact (attempting.spent before earlier).2 (same ▸ here)
    · rw [attempted_eventOps]
      intro candidate listed
      refine ⟨executed, member, ?_, ?_⟩
      · rw [own candidate listed]
        exact operation
      · rw [own candidate listed, during]
        exact listed

end Runs

end HearthstoneSimulator

import BazelRepo.HearthstoneSimulator.Attempts

namespace HearthstoneSimulator

open Library

def resolutions (history : List Executed) : List EventId :=
  history.filterMap fun executed => executed.stacked.operation.resolvedEvent

theorem resolutions_concat (history : List Executed) (executed : Executed) :
    resolutions (history ++ [executed]) = resolutions history ++ executed.stacked.operation.resolvedEvent.toList := by
  unfold resolutions
  rw [List.filterMap_append]
  cases resolved : executed.stacked.operation.resolvedEvent <;> simp [resolved]

section Steps

open Procedure

variable [QueryOrder] {done : List EventId} {history : List Executed} {held : List EventId} {world : World}

theorem special_attempting {step : SequenceStep} (special : step.Special) :
    UsesAt (Attempting done history) [] (runSequenceStep step) world := by
  have admits := (attempting_flow done history).admits
  cases step with
  | consumeDurability player weapon =>
    intro held attempting
    exact attempting.kept (keeps_consumeDurability world player weapon)
  | prepareCombatDamage player attacker defender =>
    exact admits.prepareCombatDamage (fun _ _ _ => ⟨rfl, trivial⟩) world
  | attack player attacker defender => exact admits.attack (fun _ _ => ⟨rfl, trivial⟩) world
  | playCard player card target boardIndex =>
    apply admits.playCard_at fun _ _ => trivial
    intro other context held attempting
    exact admits.openPlayScope_at ⟨rfl, frozen_collectTriggerSeeds attempting.numbered context⟩ held attempting
  | useHeroPower player power target => exact admits.useHeroPower_at fun _ _ => trivial
  | startTurn player kind => exact admits.startTurn (fun _ => trivial) player kind world
  | _ => exact special.elim

variable [NativeEffects]

theorem own_attempting (id : ResolutionId) {operation : ResolutionOp} (own : operation.Own)
    (unresolving : operation.resolvedEvent = none) (sound : operation.Sound world.nextGameEntityId) :
    UsesAt (Attempting done history) [] (executeResolutionOp id operation) world := by
  have flow := attempting_flow done history
  have admits := flow.admits
  have fills : ∀ {slot : EventSlotId} {held : List EventId} {world : World} {event : EventId},
      world.work.eventSlots.contains slot = true → Attempting done history (event :: held) world →
        Attempting done history held (world.withSlot slot ⟨some event⟩) := fun _ => attempting_fills
  cases operation with
  | resolveEvent event => cases unresolving
  | resolveEventSlot slot => exact admits.resolveEventSlot_at fun _ => attempting_takes
  | processDamageBatch requests =>
    change UsesAt _ _ (if requests.isEmpty then pure () else expandBatch .processDamage requests) _
    have permitted : ∀ other request slot ordinal, Schedulable other (.processDamage request slot ordinal) :=
      fun _ _ _ _ => ⟨rfl, trivial⟩
    split
    · exact Uses.pure admits.forgets _ world
    · exact admits.expandBatch attempting_allots permitted (fun _ _ _ => rfl) (fun _ _ => ⟨rfl, trivial⟩) _ world
  | processDamage request slot ordinal => exact admits.processDamage (fun _ _ _ => ⟨rfl, trivial⟩) world
  | applyDamage request proposed slot ordinal => exact admits.applyPreparedDamage fills _ _ _ world
  | processHealingBatch requests =>
    change UsesAt _ _ (if requests.isEmpty then pure () else expandBatch .processHealing requests) _
    have permitted : ∀ other request slot ordinal, Schedulable other (.processHealing request slot ordinal) :=
      fun _ _ _ _ => ⟨rfl, trivial⟩
    split
    · exact Uses.pure admits.forgets _ world
    · exact admits.expandBatch attempting_allots permitted (fun _ _ _ => rfl) (fun _ _ => ⟨rfl, trivial⟩) _ world
  | processHealing request slot ordinal => exact admits.processHealing (fun _ _ _ => ⟨rfl, trivial⟩) world
  | applyHealing request proposed slot ordinal => exact admits.applyPreparedHealing fills _ _ _ world
  | finishPlayedSelfTransform subject seeds =>
    have above := (flow.above world.nextGameEntityId).admits
    intro held attempting
    refine (above.finishPlayedSelfTransform ?_ id subject world held ⟨attempting, le_rfl⟩).1
    intro held other context invariant
    refine ⟨invariant.1.record context ?_, invariant.2⟩
    rintro _ ⟨⟩
    exact Frozen.mono sound invariant.2
  | requestChoice request =>
    apply UsesAt.read_bind
    apply UsesAt.ofExcept_bind admits.forgets
    intro _ _
    split
    · exact admits.raise _ world
    · refine admits.requestChoice ?_ world
      intro held other attempting
      refine attempting.withWork (List.Subperm.refl _) rfl rfl ?_ (.of_same rfl)
      rintro pending ⟨⟩
      exact sound
  | _ => exact own.elim

theorem execute_attempting (executed : Executed) (member : executed ∈ history)
    (during : executed.during = world)
    (sound : executed.stacked.operation.Sound world.nextGameEntityId)
    (attempting : Attempting done history executed.stacked.operation.resolvedEvent.toList world) :
    Attempting (done ++ executed.stacked.operation.resolvedEvent.toList) history []
      (executeResolutionOp executed.stacked.id executed.stacked.operation world).1 := by
  have admits := (attempting_flow done history).admits
  cases resolved : executed.stacked.operation.resolvedEvent with
  | none =>
    rw [resolved] at attempting
    rw [Option.toList_none, List.append_nil]
    have uses : UsesAt (Attempting done history) []
        (executeResolutionOp executed.stacked.id executed.stacked.operation) world := by
      apply admits.execute_at
      · exact fun own => own_attempting _ own resolved sound
      · exact fun _ _ special => special_attempting special
      · exact fun _ _ _ _ => admits.gainResource fun _ => trivial
    exact uses [] attempting
  | some event =>
    rw [resolved] at attempting
    have operation : executed.stacked.operation = .resolveEvent event := by
      cases same : executed.stacked.operation with
      | resolveEvent other =>
        rw [same] at resolved
        cases resolved
        rfl
      | _ =>
        rw [same] at resolved
        cases resolved
    rw [operation]
    exact expandEvent_attempting member operation during attempting

omit [NativeEffects] in
theorem Attempting.take {stacked : StackedResolutionOp} {rest : List StackedResolutionOp}
    (attempting : Attempting done history [] world) (top : world.work.stack = stacked :: rest) :
    Attempting done (history ++ [⟨world, stacked⟩]) stacked.operation.resolvedEvent.toList (popped world rest) := by
  have waiting : (waits stacked.operation.resolvedEvent.toList (popped world rest).work).Perm (waits [] world.work) := by
    unfold waits
    rw [top, List.filterMap_cons]
    cases stacked.operation.resolvedEvent with
    | none => exact .refl _
    | some event => exact .refl _
  have same : attempts (history ++ [⟨world, stacked⟩]) ++ stackAttempts (popped world rest).work =
      attempts history ++ stackAttempts world.work := by
    unfold attempts stackAttempts
    rw [top, List.filterMap_append, List.filterMap_cons, List.filterMap_cons, List.append_assoc]
    cases stacked.operation.attempted with
    | none => rfl
    | some candidate => rfl
  have whole := waiting.append_left done
  refine ⟨attempting.numbered, ?_, ?_, attempting.recorded, ?_, attempting.seeds, ?_, attempting.offered, ?_, ?_, ?_, ?_, ?_⟩
  · exact whole.nodup_iff.mpr attempting.pending
  · exact fun event member => attempting.fresh event (whole.mem_iff.mp member)
  · exact fun event member => attempting.unopened event (waiting.mem_iff.mp member)
  · intro other member
    apply attempting.sound other
    rw [top]
    exact List.mem_cons_of_mem _ member
  · rw [same]
    exact attempting.once
  · intro candidate member
    rw [same] at member
    rcases attempting.spent candidate member with ⟨known, apart⟩
    exact ⟨known, fun again => apart (waiting.mem_iff.mp again)⟩
  · intro candidate member
    rw [same] at member
    rcases attempting.expanded candidate member with ⟨executed, earlier, operation, listed⟩
    exact ⟨executed, List.mem_append_left _ earlier, operation, listed⟩
  · intro executed member
    rcases List.mem_append.mp member with early | last
    · exact attempting.known executed early
    · rw [List.mem_singleton.mp last]
      exact attempting.recorded
  · intro executed member event before prepared earlier found
    rcases List.mem_append.mp member with early | last
    · exact attempting.frozen executed early event before prepared earlier found
    · rw [List.mem_singleton.mp last] at earlier
      have unchanged : before = prepared := Option.some.inj (earlier.symm.trans found)
      rw [unchanged]
      exact ⟨rfl, fun _ listed => listed⟩

def Tracked (history : List Executed) (world : World) : Prop :=
  Attempting (resolutions history) history [] world

omit [NativeEffects] in
theorem Attempting.charge (attempting : Attempting done history held world) (stacked : StackedResolutionOp)
    (budget : Nat) : Attempting done history held (world.withWork fun work =>
      { work with
        remainingBudget := budget
        durabilityPayers := stacked.operation.released stacked.id work.durabilityPayers }) :=
  attempting.withWork (List.Subperm.refl _) rfl rfl attempting.offered (.of_same rfl)

theorem Tracked.resolve {stacked : StackedResolutionOp} {rest : List StackedResolutionOp}
    (tracked : Tracked history world) (top : world.work.stack = stacked :: rest) :
    Tracked (history ++ [⟨world, stacked⟩]) (resolveOperation stacked (popped world rest)).1 := by
  have taken := Attempting.take tracked top
  have given : resolutions (history ++ [⟨world, stacked⟩]) =
      resolutions history ++ stacked.operation.resolvedEvent.toList := resolutions_concat _ _
  have settle : ∀ {other}, Attempting (resolutions history) (history ++ [⟨world, stacked⟩])
      stacked.operation.resolvedEvent.toList other → Tracked (history ++ [⟨world, stacked⟩]) other := by
    intro other attempting
    unfold Tracked
    rw [given]
    apply Attempting.settle
    rwa [List.append_nil]
  rcases resolveOperation_cases stacked (popped world rest) with ⟨_, executes⟩ | ⟨_, fails⟩ | ⟨_, _, fails⟩
  · rw [executes]
    have working := (taken.charge stacked ((popped world rest).work.remainingBudget - 1)).trace
      (.operationPopped stacked.id stacked.operation.kind)
    have during : (⟨world, stacked⟩ : Executed).during = charged stacked (popped world rest) := by
      unfold Executed.during
      rw [top, List.tail_cons]
    have sound : stacked.operation.Sound world.nextGameEntityId := by
      apply tracked.sound stacked
      rw [top]
      exact List.mem_cons_self
    unfold Tracked
    rw [given]
    exact execute_attempting ⟨world, stacked⟩ (List.mem_append_right _ List.mem_cons_self) during sound working
  · rw [fails]
    exact settle taken
  · rw [fails]
    exact settle (taken.charge stacked _)

omit [NativeEffects] in
theorem Attempting.abandon (attempting : Attempting done history [] world) :
    Attempting done history [] (abandon world) := by
  have kept := World.keeps_abandonEquips pliant_anyAlteration world
  have calm := attempting.kept kept
  apply calm.transfer
  · exact calm.numbered
  · exact le_rfl
  · exact List.nil_subperm
  · rfl
  · exact List.nil_sublist _
  · nofun
  · intro event prepared found
    cases found

omit [NativeEffects] in
theorem Attempting.withStatus (attempting : Attempting done history held world) (status : SimulationStatus) :
    Attempting done history held (world.withStatus status) := by
  have aside : Aside world (world.withStatus status) := ⟨rfl, rfl, rfl, rfl, rfl, rfl, rfl, le_rfl, subset_rfl⟩
  exact attempting.kept aside.keeps

omit [NativeEffects] in
theorem Attempting.beginSequence (attempting : Attempting done history held world) :
    Attempting done history held (HearthstoneSimulator.beginSequence world).1 := by
  have active : Attempting done history held (world.withWork fun work =>
      { work with remainingBudget := world.ruleset.resolutionBudget, sequenceActive := true }) :=
    attempting.withWork (List.Subperm.refl _) rfl rfl attempting.offered (.of_same rfl)
  unfold HearthstoneSimulator.beginSequence
  rw [Procedure.read_bind]
  split
  · exact attempting
  · exact active

omit [NativeEffects] in
theorem Attempting.begun (attempting : Attempting done history held world) (action : GameAction) :
    Attempting done history held (begun world action) := by
  have begins := (attempting.withStatus .resolving).beginSequence
  apply Attempting.scheduleEventless _ begins
  · intro operation member
    simp only [List.mem_cons, List.not_mem_nil, or_false] at member
    rcases member with rfl | rfl | rfl
    · cases action <;> exact ⟨rfl, trivial⟩
    · exact ⟨rfl, trivial⟩
    · exact ⟨rfl, trivial⟩
  · intro operation member
    simp only [List.mem_cons, List.not_mem_nil, or_false] at member
    rcases member with rfl | rfl | rfl
    · cases action <;> rfl
    · rfl
    · rfl

omit [NativeEffects] in
theorem Attempting.answered {pending : PendingChoice} {selected : ChoiceOption}
    (attempting : Attempting done history held world) (found : world.work.pendingChoice = some pending)
    (offered : selected ∈ pending.request.options) : Attempting done history held (answered world pending selected) := by
  have effects := attempting.offered pending found selected offered
  have cleared : Attempting done history held (world.withWork fun work => { work with pendingChoice := none }) :=
    attempting.withWork (List.Subperm.refl _) rfl rfl nofun (.of_same rfl)
  have resumed := (cleared.withStatus .resolving).trace (.choiceAnswered pending.request.id selected.id)
  apply Attempting.scheduleEventless _ resumed
  · exact fun operation member => ((effects operation member).schedulable _).2
  · exact fun operation member => ((effects operation member).schedulable world).1

omit [NativeEffects] in
theorem Attempting.finish (attempting : Attempting done history held world) :
    Attempting done history held (finishResolutionIfIdle world).1 := by
  have finished : Attempting done history held (finishSequence world) :=
    attempting.withWork (List.Subperm.refl _) rfl rfl attempting.offered (.of_same rfl)
  unfold finishResolutionIfIdle
  rw [Procedure.read_bind]
  split
  · exact attempting
  · rw [Procedure.change_bind, Procedure.read_bind]
    cases resolutionInvariants (finishSequence world) with
    | error message => exact finished
    | ok => exact finished.withStatus _

omit [NativeEffects] in
theorem Tracked.between {other : World} (tracked : Tracked history world) (step : Between world other) :
    Tracked history other := by
  cases step with
  | register id =>
    unfold registerNativeEffect
    split
    · exact tracked
    · exact Attempting.transfer tracked tracked.numbered le_rfl (List.Subperm.refl _) rfl (List.Sublist.refl _)
        tracked.offered (.of_same rfl)
  | begin accepted idle => exact Attempting.begun tracked _
  | refuse accepted busy => exact Attempting.withStatus tracked _
  | answer found offered => exact Attempting.answered tracked found offered
  | finish done => exact Attempting.finish tracked
  | abandon failed => exact (Attempting.finish tracked).abandon
  | accepted player action => exact Attempting.trace tracked _
  | rejected player reason => exact Attempting.trace tracked _

theorem Playthrough.tracked {start : World} (played : Playthrough start history world) (fresh : Tracked [] start) :
    Tracked history world := by
  induction played with
  | start => exact fresh
  | operation before top resolving done ih =>
    have resolved := ih.resolve top
    rwa [done] at resolved
  | failure before top resolving failed ih =>
    have resolved := ih.resolve top
    rw [failed] at resolved
    exact resolved.abandon
  | between before step ih => exact ih.between step

theorem Playthrough.of_append {start : World} {late : List Executed} {executed : Executed} :
    ∀ {early : List Executed}, Playthrough start (early ++ executed :: late) world →
      Playthrough start early executed.world ∧ ∃ rest, executed.world.work.stack = executed.stacked :: rest := by
  intro early played
  have taken : ∀ {history : List Executed} {other : World} {stacked : StackedResolutionOp}
      {rest : List StackedResolutionOp} {late : List Executed}, early ++ executed :: late = history ++ [⟨other, stacked⟩] →
      Playthrough start history other → other.work.stack = stacked :: rest →
      (∀ {late}, early ++ executed :: late = history →
        Playthrough start early executed.world ∧ ∃ rest, executed.world.work.stack = executed.stacked :: rest) →
      Playthrough start early executed.world ∧ ∃ rest, executed.world.work.stack = executed.stacked :: rest := by
    intro history other stacked rest late split reached top before
    rcases List.eq_nil_or_concat late with rfl | ⟨others, last, rfl⟩
    · rcases List.append_inj' split rfl with ⟨same, last⟩
      cases last
      rw [same]
      exact ⟨reached, rest, top⟩
    · rw [List.concat_eq_append, ← List.cons_append, ← List.append_assoc] at split
      exact before (List.append_inj' split rfl).1
  generalize split : early ++ executed :: late = history at played
  induction played generalizing late with
  | start => simp at split
  | operation before top resolving done ih => exact taken split before top ih
  | failure before top resolving failed ih => exact taken split before top ih
  | between before step ih => exact ih split

end Steps

/-- Of the entities of a world, those that were not there before have later numbers. -/
structure Populated (start world : World) : Prop where
  born : ∀ id, (world.entities[id]?).isSome = true → (start.entities[id]?).isSome = true ∨ start.nextGameEntityId ≤ id
  nextGameEntityId : start.nextGameEntityId ≤ world.nextGameEntityId

theorem Populated.refl (world : World) : Populated world world := ⟨fun _ => .inl, le_rfl⟩

theorem Populated.trans {start middle world : World} (first : Populated start middle) (second : Populated middle world) :
    Populated start world := by
  refine ⟨?_, first.nextGameEntityId.trans second.nextGameEntityId⟩
  intro id present
  rcases second.born id present with earlier | later
  · exact first.born id earlier
  · exact .inr (first.nextGameEntityId.trans later)

theorem Populated.of_keeps {start world : World} (kept : World.Keeps anyAlteration start world) : Populated start world := by
  refine ⟨?_, kept.nextGameEntityId⟩
  intro id present
  exact (kept.born id present).imp_right And.left

theorem Populated.of_same {start world other : World} (populated : Populated start world)
    (entities : other.entities = world.entities) (nextGameEntityId : other.nextGameEntityId = world.nextGameEntityId) :
    Populated start other := by
  refine ⟨?_, ?_⟩
  · rw [entities]
    exact populated.born
  · rw [nextGameEntityId]
    exact populated.nextGameEntityId

section Populations

variable [QueryOrder] {start world : World} {history : List Executed}

theorem populated_flow (start : World) : Flow (fun _ _ => True) fun _ world => Populated start world where
  forgets := ⟨fun _ populated => populated⟩
  kept kept populated := populated.trans (.of_keeps kept)
  tidy _ populated := populated.of_same rfl rfl
  common _ := trivial
  push _ populated := populated.of_same rfl rfl
  record populated := populated.of_same rfl rfl
  recordSeeds populated := populated.of_same rfl rfl

omit [QueryOrder] in
theorem populated_serves (start : World) : Admits.Serves fun _ world => Populated start world where
  fills populated := populated.of_same rfl rfl
  takes populated := populated.of_same rfl rfl
  allots populated := populated.of_same rfl rfl
  collects populated := populated.of_same rfl rfl
  seeds populated := populated.of_same rfl rfl
  pends populated := populated.of_same rfl rfl
  wears populated := populated.trans (.of_keeps (keeps_consumeDurability _ _ _))

theorem Populated.abandon (populated : Populated start world) : Populated start (abandon world) := by
  have gone := populated.trans (.of_keeps (World.keeps_abandonEquips pliant_anyAlteration world))
  exact gone.of_same rfl rfl

theorem populated_finish (world : World) : Populated world (finishResolutionIfIdle world).1 := by
  unfold finishResolutionIfIdle
  rw [Procedure.read_bind]
  split
  · exact .refl world
  · rw [Procedure.change_bind, Procedure.read_bind]
    cases resolutionInvariants (finishSequence world) with
    | error message => exact (Populated.refl world).of_same rfl rfl
    | ok => exact (Populated.refl world).of_same rfl rfl

theorem populated_between {other : World} (step : Between world other) : Populated world other := by
  have here := Populated.refl world
  cases step with
  | register id =>
    unfold registerNativeEffect
    split
    · exact here
    · exact here.of_same rfl rfl
  | begin accepted idle =>
    rcases beginSequence_of_ok idle with ⟨_, begins⟩
    unfold begun
    rw [begins]
    exact here.of_same rfl rfl
  | refuse accepted busy => exact here.of_same rfl rfl
  | answer found offered => exact here.of_same rfl rfl
  | finish done => exact populated_finish world
  | abandon failed => exact (populated_finish world).abandon
  | accepted player action => exact here.of_same rfl rfl
  | rejected player reason => exact here.of_same rfl rfl

variable [NativeEffects]

theorem populated_resolveOperation (stacked : StackedResolutionOp) (world : World) :
    Populated world (resolveOperation stacked world).1 := by
  have here := Populated.refl world
  rcases resolveOperation_cases stacked world with ⟨_, executes⟩ | ⟨_, fails⟩ | ⟨_, _, fails⟩
  · rw [executes]
    exact (populated_flow world).admits.execute_open (populated_serves world) _ _ _ [] (here.of_same rfl rfl)
  · rw [fails]
    exact here
  · rw [fails]
    exact here.of_same rfl rfl

theorem Playthrough.populated (played : Playthrough start history world) :
    ∀ executed ∈ history, Populated executed.world world := by
  have grown : ∀ {history : List Executed} {world after : World} {stacked : StackedResolutionOp},
      (∀ executed ∈ history, Populated executed.world world) → Populated world after →
        ∀ executed ∈ history ++ [⟨world, stacked⟩], Populated executed.world after := by
    intro history world after stacked before grows executed member
    rcases List.mem_append.mp member with early | last
    · exact (before executed early).trans grows
    · rw [List.mem_singleton.mp last]
      exact grows
  induction played with
  | start => exact fun _ member => absurd member List.not_mem_nil
  | @operation history world after stacked rest before top resolving done ih =>
    have resolved := populated_resolveOperation stacked (popped world rest)
    rw [done] at resolved
    have popped : Populated world (popped world rest) := (Populated.refl world).of_same rfl rfl
    exact grown ih (popped.trans resolved)
  | @failure history world after stacked rest error before top resolving failed ih =>
    have resolved := populated_resolveOperation stacked (popped world rest)
    rw [failed] at resolved
    have popped : Populated world (popped world rest) := (Populated.refl world).of_same rfl rfl
    exact grown ih (popped.trans resolved).abandon
  | between before step ih => exact fun executed member => (ih executed member).trans (populated_between step)

end Populations

section Games

open Procedure

variable {start : World}

end Games

/-- What is said of the triggers of a playthrough. Each is attempted at most once at an event, which is resolved at most once;
and the attempt is drawn from the candidates that were collected, and sorted, when the event was resolved before. What is
collected for an event stays as it is, and no source joins that was not there yet. -/
structure Triggered [QueryOrder] (history : List Executed) : Prop where
  attemptedOnce : ((attempts history).map TriggerCandidate.attempt).Nodup
  resolvedOnce : (resolutions history).Nodup
  drawn : ∀ early executed late candidate, history = early ++ executed :: late →
    executed.stacked.operation = .attemptTrigger candidate → ∃ resolved ∈ early,
      resolved.stacked.operation = .resolveEvent candidate.event ∧ candidate ∈ resolved.during.candidatesOf candidate.event
  sorted : ∀ resolved ∈ history, ∀ event, resolved.stacked.operation = .resolveEvent event →
    (resolved.during.candidatesOf event).Pairwise fun a b => a.order.key < b.order.key
  frozen : ∀ early executed between later late, history = early ++ executed :: (between ++ later :: late) →
    ∀ (event : EventId) (before prepared : PreparedEvent), executed.world.work.events[event]? = some before →
      later.world.work.events[event]? = some prepared → before.Stays prepared
  closed : ∀ early executed between later late, history = early ++ executed :: (between ++ later :: late) →
    ∀ source, (later.world.entities[source]?).isSome = true → executed.world.entities[source]? = none →
      (∀ event, executed.stacked.operation = .resolveEvent event →
        ∀ candidate ∈ executed.during.candidatesOf event, candidate.source ≠ source) ∧
      ∀ (event : EventId) (prepared : PreparedEvent), executed.world.work.events[event]? = some prepared →
        ∀ seeds ∈ prepared.precheckedTriggers, ∀ seed ∈ seeds, seed.source ≠ source

section

variable [QueryOrder]

variable {history : List Executed} {world : World}

/-- The candidates of an event that is about to be resolved are of different triggers, whose sources are there. -/
theorem Tracked.candidates {resolved : Executed} {event : EventId} (tracked : Tracked history resolved.world)
    {rest : List StackedResolutionOp} (top : resolved.world.work.stack = resolved.stacked :: rest)
    (operation : resolved.stacked.operation = .resolveEvent event) :
    (resolved.during.candidatesOf event).Pairwise (fun a b => a.order.key < b.order.key) ∧
      ∀ candidate ∈ resolved.during.candidatesOf event, candidate.source < resolved.world.nextGameEntityId := by
  have waiting : event ∈ waits [] resolved.world.work := by
    unfold waits
    rw [List.nil_append, top, List.filterMap_cons, operation]
    exact List.mem_append_left _ List.mem_cons_self
  cases found : resolved.world.work.events[event]? with
  | none =>
    have missing : resolved.during.work.events[event]? = none := found
    have none : resolved.during.candidatesOf event = [] := by
      unfold World.candidatesOf
      rw [missing]
    rw [none]
    exact ⟨List.Pairwise.nil, fun _ member => absurd member List.not_mem_nil⟩
  | some prepared =>
    have there : resolved.during.work.events[event]? = some prepared := found
    rw [candidatesOf_of_none (tracked.unopened event waiting prepared found) there]
    have frozen : Frozen (resolved.during.seedsOf prepared) resolved.world.nextGameEntityId := by
      unfold World.seedsOf
      cases prechecked : prepared.precheckedTriggers with
      | none =>
        have numbered : resolved.during.Numbered := tracked.numbered
        exact frozen_collectTriggerSeeds numbered prepared.context
      | some seeds => exact tracked.seeds event prepared found seeds prechecked
    refine ⟨World.pairwise_collectTriggerCandidates frozen.1 _ _ _, ?_⟩
    intro candidate member
    rcases (World.mem_collectTriggerCandidates member).2 with ⟨seed, listed, same⟩
    have source : seed.source = candidate.source := congrArg Prod.fst same
    rw [← source]
    exact frozen.2 seed listed

variable [NativeEffects]

theorem Playthrough.triggered {start : World} (played : Playthrough start history world) (fresh : Tracked [] start) :
    Triggered history := by
  have tracked := played.tracked fresh
  -- What is tracked when an operation is taken, with the operations before it.
  have earlier : ∀ early executed late, history = early ++ executed :: late → Playthrough start early executed.world ∧
      Tracked early executed.world ∧ ∃ rest, executed.world.work.stack = executed.stacked :: rest := by
    rintro early executed late rfl
    rcases played.of_append with ⟨before, rest, top⟩
    exact ⟨before, before.tracked fresh, rest, top⟩
  have collected : ∀ resolved ∈ history, ∀ event, resolved.stacked.operation = .resolveEvent event →
      (resolved.during.candidatesOf event).Pairwise (fun a b => a.order.key < b.order.key) ∧
        ∀ candidate ∈ resolved.during.candidatesOf event, candidate.source < resolved.world.nextGameEntityId := by
    intro resolved member event operation
    rcases List.append_of_mem member with ⟨early, late, split⟩
    rcases earlier early resolved late split with ⟨_, here, rest, top⟩
    exact here.candidates top operation
  refine ⟨?_, ?_, ?_, ?_, ?_, ?_⟩
  · have once := tracked.once
    rw [List.map_append] at once
    exact once.of_append_left
  · exact tracked.pending.of_append_left
  · intro early executed late candidate split operation
    rcases earlier early executed late split with ⟨_, here, rest, top⟩
    apply here.expanded candidate
    apply List.mem_append_right
    unfold stackAttempts
    rw [top, List.filterMap_cons, operation]
    exact List.mem_cons_self
  · exact fun resolved member event operation => (collected resolved member event operation).1
  · intro early executed between later late split
    rw [← List.cons_append, ← List.append_assoc] at split
    rcases earlier _ later late split with ⟨_, here, _⟩
    exact here.frozen executed (List.mem_append_right _ List.mem_cons_self)
  · intro early executed between later late split source present absent
    have member : executed ∈ history := by
      rw [split]
      exact List.mem_append_right _ List.mem_cons_self
    have behind : executed.world.nextGameEntityId ≤ source := by
      rcases earlier _ later late (by rw [split, ← List.cons_append, ← List.append_assoc]) with ⟨before, _⟩
      have populated := before.populated executed (List.mem_append_right _ List.mem_cons_self)
      rcases populated.born source present with old | new
      · rw [absent] at old
        cases old
      · exact new
    refine ⟨?_, ?_⟩
    · rintro event operation candidate listed rfl
      exact absurd ((collected executed member event operation).2 candidate listed) (Nat.not_lt.mpr behind)
    · rintro event prepared found seeds prechecked seed listed rfl
      rcases earlier early executed _ split with ⟨_, here, _⟩
      exact absurd ((here.seeds event prepared found seeds prechecked).2 seed listed) (Nat.not_lt.mpr behind)

end

end HearthstoneSimulator

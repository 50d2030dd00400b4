import BazelRepo.BookSmartz.Faithful

namespace BookSmartz

open Library

inductive Command where
  | start (bookId : BookId)
  | answer (opponent : BookId) (choice : ComparisonChoice)
  | pause
  | resume
  deriving DecidableEq

structure CommandContext where
  expectedRevision : UInt64
  eventId : EventId
  time : Timestamp

def nextSequence (actual : UInt64) : Except DomainError Sequence :=
  if actual = 0 then Sequence.new 1
  else do
    let sequence ← Sequence.new actual
    sequence.successor

def pendingCandidate (projection : RankingProjection) : Except DomainError BookId :=
  okOr (projection.pending.map PlacementSession.candidate) (.invalidTransition .noActivePlacement)

def proposal (projection : RankingProjection) (registry : BookRegistry) (command : Command) :
    Except DomainError (BookId × EventKind) :=
  match command with
  | .start bookId =>
    if (registry.get bookId).isNone then .error .unknownBook else .ok (bookId, .placementStarted)
  | .answer opponent choice =>
    if (registry.get opponent).isNone then .error .unknownBook
    else do
      let candidate ← pendingCandidate projection
      .ok (candidate, .comparisonAnswered opponent choice)
  | .pause => do
    let candidate ← pendingCandidate projection
    .ok (candidate, .placementPaused)
  | .resume => do
    let candidate ← pendingCandidate projection
    .ok (candidate, .placementResumed)

def decide (projection : RankingProjection) (registry : BookRegistry) (context : CommandContext)
    (command : Command) : Except DomainError RankingEvent :=
  if context.expectedRevision ≠ projection.revision then
    .error (.staleRevision context.expectedRevision projection.revision)
  else do
    let sequence ← nextSequence projection.revision
    let proposed ← proposal projection registry command
    let event : RankingEvent :=
      ⟨⟨context.eventId, projection.readerId, sequence, context.time⟩, proposed.1, proposed.2⟩
    let _ ← (apply projection event).mapError fun error => .invalidTransition error.reason
    .ok event

structure Ranking where
  history : List RankingEvent
  projection : RankingProjection
  deriving DecidableEq

def Ranking.new (readerId : ReaderId) : Ranking := ⟨[], .empty readerId⟩

def Ranking.fromHistory (readerId : ReaderId) (history : List RankingEvent) : Except ReplayError Ranking := do
  let projection ← replay readerId history
  .ok ⟨history, projection⟩

def Ranking.execute (ranking : Ranking) (registry : BookRegistry) (context : CommandContext)
    (command : Command) : Except DomainError (RankingEvent × Ranking) := do
  let event ← decide ranking.projection registry context command
  let next ← (apply ranking.projection event).mapError fun error => .invalidTransition error.reason
  .ok (event, ⟨ranking.history ++ [event], next⟩)

def Command.referenced : Command → Option BookId
  | .start bookId => some bookId
  | .answer opponent _ => some opponent
  | .pause | .resume => none

def RankingEvent.command (event : RankingEvent) : Command :=
  match event.kind with
  | .placementStarted => .start event.candidate
  | .comparisonAnswered opponent choice => .answer opponent choice
  | .placementPaused => .pause
  | .placementResumed => .resume

theorem decide_congr {left right : BookRegistry} {command : Command}
    (agree : ∀ id, command.referenced = some id → left.get id = right.get id) (projection : RankingProjection)
    (context : CommandContext) : decide projection left context command = decide projection right context command := by
  have proposed : proposal projection left command = proposal projection right command := by
    cases command with
    | start bookId => rw [proposal, proposal, agree bookId rfl]
    | answer opponent choice => rw [proposal, proposal, agree opponent rfl]
    | pause => rfl
    | resume => rfl
  unfold decide
  rw [proposed]

theorem successor_eq_ok {sequence next : Sequence} :
    sequence.successor = .ok next ↔ next.value.toNat = sequence.value.toNat + 1 := by
  rw [← checkedSuccessor_eq_some]
  unfold Sequence.successor
  split
  · rename_i value found
    have same : checkedSuccessor sequence.value = some next.value ↔ value = next.value := by
      rw [found, Option.some.injEq]
    rw [same, Except.ok.injEq]
    rcases next with ⟨value', positive⟩
    simp
  · rename_i none
    rw [none]
    simp

theorem nextSequence_eq_ok {actual : UInt64} {sequence : Sequence} :
    nextSequence actual = .ok sequence ↔ sequence.value.toNat = actual.toNat + 1 := by
  unfold nextSequence
  split
  · rename_i zero
    subst zero
    rcases sequence with ⟨value, positive⟩
    have one : Sequence.new 1 = .ok ⟨1, by decide⟩ := rfl
    rw [one, Except.ok.injEq, Sequence.mk.injEq, ← UInt64.toNat_inj]
    simp [eq_comm]
  · rename_i positive
    rw [Sequence.new, dif_pos positive, ok_bind]
    exact successor_eq_ok

theorem decide_eq_ok {projection : RankingProjection} {registry : BookRegistry} {context : CommandContext}
    {command : Command} {event : RankingEvent} :
    decide projection registry context command = .ok event ↔
      context.expectedRevision = projection.revision ∧ event.metadata.id = context.eventId ∧
        event.metadata.time = context.time ∧
        proposal projection registry command = .ok (event.candidate, event.kind) ∧
        ∃ next, apply projection event = .ok next := by
  unfold decide
  simp only [reject_eq_ok, bind_eq_ok, mapError_eq_ok, Except.ok.injEq, not_not]
  constructor
  · rintro ⟨revision, sequence, following, ⟨candidate, kind⟩, proposed, next, applied, rfl⟩
    exact ⟨revision, rfl, rfl, proposed, next, applied⟩
  · rintro ⟨revision, identified, timed, proposed, next, applied⟩
    rcases apply_eq_ok applied with ⟨_, _, reader, following, _⟩
    have same : event = ⟨⟨context.eventId, projection.readerId, event.metadata.sequence, context.time⟩,
        event.candidate, event.kind⟩ := by
      rw [← identified, ← timed, ← reader]
    refine ⟨revision, event.metadata.sequence, nextSequence_eq_ok.mpr following, _, proposed, next, ?_, same.symm⟩
    rw [← same]
    exact applied

theorem execute_eq_ok {ranking : Ranking} {registry : BookRegistry} {context : CommandContext}
    {command : Command} {event : RankingEvent} {result : Ranking} :
    ranking.execute registry context command = .ok (event, result) ↔
      decide ranking.projection registry context command = .ok event ∧
        result.history = ranking.history ++ [event] ∧ apply ranking.projection event = .ok result.projection := by
  unfold Ranking.execute
  simp only [bind_eq_ok, mapError_eq_ok, Except.ok.injEq, Prod.mk.injEq]
  constructor
  · rintro ⟨_, decided, next, applied, rfl, rfl⟩
    exact ⟨decided, rfl, applied⟩
  · rintro ⟨decided, extended, applied⟩
    refine ⟨event, decided, result.projection, applied, rfl, ?_⟩
    rw [← extended]

theorem decide_command {projection next : RankingProjection} {registry : BookRegistry} {event : RankingEvent}
    (applied : apply projection event = .ok next)
    (registered : ∀ id, event.command.referenced = some id → (registry.get id).isSome) :
    decide projection registry ⟨projection.revision, event.metadata.id, event.metadata.time⟩ event.command =
      .ok event := by
  rw [decide_eq_ok]
  refine ⟨rfl, rfl, rfl, ?_, next, applied⟩
  rcases apply_eq_ok applied with ⟨moved, kind, _⟩
  have known : ∀ id, event.command.referenced = some id → ¬ (registry.get id).isNone = true := by
    intro id referenced
    have present := registered id referenced
    rw [Option.isSome_iff_ne_none] at present
    simpa using present
  have candidate : event.kind ≠ .placementStarted → pendingCandidate projection = .ok event.candidate := by
    intro later
    have pending : ∃ session, projection.pending = some session ∧ session.candidate = event.candidate := by
      unfold applyKind applyAnswered applyPaused applyResumed at kind
      cases said : event.kind with
      | placementStarted => exact absurd said later
      | comparisonAnswered opponent choice | placementPaused | placementResumed =>
        rw [said] at kind
        simp only [bind_eq_ok, okOr_eq_ok, reject_eq_ok, not_not] at kind
        rcases kind with ⟨session, pending, same, _⟩
        exact ⟨session, pending, same⟩
    rcases pending with ⟨session, pending, same⟩
    rw [pendingCandidate, pending, ← same]
    rfl
  unfold RankingEvent.command at known ⊢
  cases said : event.kind with
  | placementStarted =>
    rw [said] at known
    exact if_neg (known event.candidate rfl)
  | comparisonAnswered opponent choice =>
    rw [said] at known
    have first := candidate (by rw [said]; simp)
    dsimp only [proposal]
    rw [if_neg (known opponent rfl), first]
    rfl
  | placementPaused | placementResumed =>
    have first := candidate (by rw [said]; simp)
    dsimp only [proposal]
    rw [first]
    rfl

theorem execute_command {ranking : Ranking} {next : RankingProjection} {registry : BookRegistry}
    {event : RankingEvent} (applied : apply ranking.projection event = .ok next)
    (registered : ∀ id, event.command.referenced = some id → (registry.get id).isSome) :
    ranking.execute registry ⟨ranking.projection.revision, event.metadata.id, event.metadata.time⟩ event.command =
      .ok (event, ⟨ranking.history ++ [event], next⟩) :=
  execute_eq_ok.mpr ⟨decide_command applied registered, rfl, applied⟩

theorem fromHistory_eq_ok {readerId : ReaderId} {history : List RankingEvent} {ranking : Ranking} :
    Ranking.fromHistory readerId history = .ok ranking ↔
      ranking.history = history ∧ replay readerId history = .ok ranking.projection := by
  unfold Ranking.fromHistory
  simp only [bind_eq_ok, Except.ok.injEq]
  constructor
  · rintro ⟨projection, replayed, rfl⟩
    exact ⟨rfl, replayed⟩
  · rintro ⟨rfl, replayed⟩
    exact ⟨ranking.projection, replayed, rfl⟩

theorem applyKind_readerId {projection next : RankingProjection} {event : RankingEvent}
    (applied : applyKind projection event = .ok next) : next.readerId = projection.readerId := by
  unfold applyKind applyStarted applyAnswered applyPaused applyResumed at applied
  split at applied
  · simp only [reject_eq_ok] at applied
    rcases applied with ⟨_, _, applied⟩
    split at applied <;> cases applied <;> rfl
  · simp only [bind_eq_ok, reject_eq_ok] at applied
    rcases applied with ⟨session, _, _, _, _, applied⟩
    cases applied
    unfold settle
    repeat' split
    all_goals rfl
  · simp only [bind_eq_ok, reject_eq_ok] at applied
    rcases applied with ⟨session, _, _, _, applied⟩
    cases applied
    rfl
  · simp only [bind_eq_ok, reject_eq_ok] at applied
    rcases applied with ⟨session, _, _, _, applied⟩
    cases applied
    rfl

theorem replay_sequences {readerId : ReaderId} {events : List RankingEvent} :
    ∀ {projection : RankingProjection}, replay readerId events = .ok projection →
      projection.readerId = readerId ∧ projection.revision.toNat = events.length ∧
        events.map (fun event => event.metadata.sequence.value.toNat) = List.range' 1 events.length := by
  induction events using List.reverseRecOn with
  | nil =>
    intro projection replayed
    cases replayed
    exact ⟨rfl, rfl, rfl⟩
  | append_singleton earlier event ih =>
    intro projection replayed
    rcases replay_append.mp replayed with ⟨before, accepted, applied⟩
    rcases ih accepted with ⟨reader, revision, sequences⟩
    rcases apply_eq_ok applied with ⟨next, kind, _, following, _, rfl⟩
    refine ⟨(applyKind_readerId kind).trans reader, ?_, ?_⟩
    · rw [List.length_append, List.length_singleton, ← revision]
      exact following
    · rw [List.map_append, sequences, List.length_append, List.length_singleton, List.range'_concat, List.map_singleton,
        following, revision, Nat.one_mul, Nat.add_comm 1]

end BookSmartz

import BazelRepo.BookSmartz.Event
import BazelRepo.Library.Selection

namespace BookSmartz

open Library

/-- The two books of an answer that decides between them, the preferred one first. -/
def RankingEvent.preference (event : RankingEvent) : Option (BookId × BookId) :=
  match event.kind with
  | .comparisonAnswered opponent .preferCandidate => some (event.candidate, opponent)
  | .comparisonAnswered opponent .preferOpponent => some (opponent, event.candidate)
  | _ => none

/-- The session of a placement under way, its interval within the ranked books. -/
structure SessionValid (projection : RankingProjection) (session : PlacementSession) : Prop where
  fresh : session.candidate ∉ projection.books
  open_ : session.lo < session.hi
  within : session.hi ≤ projection.books.length

/-- All an accepted event can do to the books and the placement of a ranking. -/
inductive Moves (projection : RankingProjection) (event : RankingEvent) (next : RankingProjection) : Prop where
  | first (decided : event.preference = none) (empty : projection.books = [])
      (books : next.books = [event.candidate]) (pending : next.pending = none)
  | started (decided : event.preference = none) (idle : projection.pending = none)
      (books : next.books = projection.books) (session : PlacementSession)
      (pending : next.pending = some session) (candidate : session.candidate = event.candidate)
      (lo : session.lo = 0) (hi : session.hi = projection.books.length) (valid : SessionValid projection session)
  | answered (session : PlacementSession) (pending : projection.pending = some session)
      (candidate : session.candidate = event.candidate) (opponent : BookId) (choice : ComparisonChoice)
      (kind : event.kind = .comparisonAnswered opponent choice) (j : Nat)
      (found : projection.books[j]? = some opponent) (lower : session.lo ≤ j) (upper : j < session.hi)
      (settled : next = settle projection event (session.answer j opponent event.metadata.time choice))
  | kept (decided : event.preference = none) (books : next.books = projection.books)
      (session later : PlacementSession) (before : projection.pending = some session)
      (after : next.pending = some later) (candidate : later.candidate = session.candidate)
      (lo : later.lo = session.lo) (hi : later.hi = session.hi)

theorem selectPosition_bounds {entries : List RankingEntry} {pending : PlacementSession} {j : Nat}
    (selected : selectPosition entries pending = some j) : pending.lo ≤ j ∧ j < pending.hi := by
  have member := List.argmin_mem selected
  rw [List.mem_filter, List.mem_range'_1] at member
  omega

theorem nextOpponent_position {projection : RankingProjection} {session : PlacementSession} {opponent : BookId}
    (pending : projection.pending = some session) (selected : projection.nextOpponent = some opponent) :
    ∃ j, projection.books[j]? = some opponent ∧ session.lo ≤ j ∧ j < session.hi := by
  unfold RankingProjection.nextOpponent at selected
  rw [pending, Option.bind_some, selectOpponent] at selected
  split at selected
  · cases selected
  · rw [Option.bind_eq_some_iff] at selected
    rcases selected with ⟨j, position, found⟩
    have bounds := selectPosition_bounds position
    refine ⟨j, ?_, bounds⟩
    rw [RankingProjection.books, List.getElem?_map]
    exact found

theorem findIdx_books (projection : RankingProjection) (opponent : BookId) :
    projection.entries.findIdx (fun entry => entry.bookId == opponent) = projection.books.idxOf opponent := by
  rw [RankingProjection.books, List.idxOf, List.findIdx_map]
  rfl

theorem applyStarted_moves {projection next : RankingProjection} {event : RankingEvent}
    (kind : event.kind = .placementStarted) (applied : applyStarted projection event = .ok next) :
    Moves projection event next := by
  have decided : event.preference = none := by
    rw [RankingEvent.preference, kind]
  unfold applyStarted at applied
  rw [reject_eq_ok, reject_eq_ok] at applied
  rcases applied with ⟨fresh, idle, applied⟩
  have absent : event.candidate ∉ projection.books := by
    intro member
    rcases List.mem_map.mp member with ⟨entry, listed, same⟩
    apply fresh
    rw [List.any_eq_true]
    exact ⟨entry, listed, beq_iff_eq.mpr same⟩
  split at applied
  · rename_i empty
    cases applied
    refine .first decided ?_ rfl ?_
    · rw [RankingProjection.books, List.isEmpty_iff.mp empty]
      rfl
    · simpa using idle
  · rename_i filled
    cases applied
    refine .started decided (by simpa using idle) rfl _ rfl rfl rfl ?_ ⟨absent, ?_, ?_⟩
    · simp [RankingProjection.books]
    · simpa [List.length_pos_iff] using filled
    · simp [RankingProjection.books]

theorem applyAnswered_moves {projection next : RankingProjection} {event : RankingEvent} {opponent : BookId}
    {choice : ComparisonChoice} (distinct : projection.books.Nodup)
    (kind : event.kind = .comparisonAnswered opponent choice)
    (applied : applyAnswered projection event opponent choice = .ok next) : Moves projection event next := by
  unfold applyAnswered at applied
  simp only [bind_eq_ok, okOr_eq_ok, reject_eq_ok, Except.ok.injEq, not_not] at applied
  rcases applied with ⟨session, pending, candidate, _, selected, settled⟩
  rcases nextOpponent_position pending selected with ⟨j, found, lower, upper⟩
  have bound : j < projection.books.length := (List.getElem?_eq_some_iff.mp found).1
  have position : projection.books.idxOf opponent = j := by
    rw [← (List.getElem?_eq_some_iff.mp found).2]
    exact distinct.idxOf_getElem j bound
  rw [findIdx_books, position] at settled
  exact .answered session pending candidate opponent choice kind j found lower upper settled.symm

theorem applyPaused_moves {projection next : RankingProjection} {event : RankingEvent}
    (kind : event.kind = .placementPaused) (applied : applyPaused projection event = .ok next) :
    Moves projection event next := by
  unfold applyPaused at applied
  simp only [bind_eq_ok, okOr_eq_ok, reject_eq_ok, Except.ok.injEq] at applied
  rcases applied with ⟨session, pending, _, _, rfl⟩
  exact .kept (by rw [RankingEvent.preference, kind]) rfl session _ pending rfl rfl rfl rfl

theorem applyResumed_moves {projection next : RankingProjection} {event : RankingEvent}
    (kind : event.kind = .placementResumed) (applied : applyResumed projection event = .ok next) :
    Moves projection event next := by
  unfold applyResumed at applied
  simp only [bind_eq_ok, okOr_eq_ok, reject_eq_ok, Except.ok.injEq] at applied
  rcases applied with ⟨session, pending, _, _, rfl⟩
  exact .kept (by rw [RankingEvent.preference, kind]) rfl session _ pending rfl rfl rfl rfl

theorem applyKind_moves {projection next : RankingProjection} {event : RankingEvent}
    (distinct : projection.books.Nodup) (applied : applyKind projection event = .ok next) :
    Moves projection event next := by
  unfold applyKind at applied
  cases kind : event.kind with
  | placementStarted =>
    rw [kind] at applied
    exact applyStarted_moves kind applied
  | comparisonAnswered opponent choice =>
    rw [kind] at applied
    exact applyAnswered_moves distinct kind applied
  | placementPaused =>
    rw [kind] at applied
    exact applyPaused_moves kind applied
  | placementResumed =>
    rw [kind] at applied
    exact applyResumed_moves kind applied

theorem apply_eq_ok {projection result : RankingProjection} {event : RankingEvent}
    (applied : apply projection event = .ok result) :
    ∃ next, applyKind projection event = .ok next ∧
      event.metadata.readerId = projection.readerId ∧
      event.metadata.sequence.value.toNat = projection.revision.toNat + 1 ∧
      event.metadata.id ∉ projection.seenEventIds ∧
      result =
        { next with
          revision := event.metadata.sequence.value
          seenEventIds := insert event.metadata.id next.seenEventIds } := by
  unfold apply at applied
  simp only [reject_eq_ok, bind_eq_ok, okOr_eq_ok, mapError_eq_ok, Except.ok.injEq, not_not] at applied
  rcases applied with ⟨reader, expected, following, sequence, fresh, next, kind, rfl⟩
  refine ⟨next, kind, reader, ?_, fresh, rfl⟩
  rw [sequence]
  exact checkedSuccessor_eq_some.mp following

theorem settle_books (projection : RankingProjection) (event : RankingEvent) (session : PlacementSession) :
    session.lo = session.hi ∧
        (settle projection event session).books = projection.books.insertIdx session.lo event.candidate ∧
        (settle projection event session).pending = none ∨
      session.lo ≠ session.hi ∧ (settle projection event session).books = projection.books ∧
        ∃ later, (settle projection event session).pending = some later ∧
          later.candidate = session.candidate ∧ later.lo = session.lo ∧ later.hi = session.hi := by
  unfold settle
  split
  · rename_i closed
    refine .inl ⟨closed, ?_, rfl⟩
    simp only [RankingProjection.books, List.map_insertIdx]
  · rename_i interval
    split
    · exact .inr ⟨interval, rfl, _, rfl, rfl, rfl, rfl⟩
    · exact .inr ⟨interval, rfl, _, rfl, rfl, rfl, rfl⟩

/-- An answer about the candidate under placement: the other book is beyond one end of the interval. -/
def Beyond (projection : RankingProjection) (session : PlacementSession) (first second : BookId) : Prop :=
  first = session.candidate ∧ second ∈ projection.books.drop session.hi ∨
    second = session.candidate ∧ first ∈ projection.books.take session.lo

/-- Where an answer is on record: in the order of the ranked books, or in the interval of the candidate
that is being placed. -/
def OnRecord (projection : RankingProjection) (candidate first second : BookId) : Prop :=
  candidate ∈ projection.books ∧ [first, second].Sublist projection.books ∨
    ∃ session, projection.pending = some session ∧ session.candidate = candidate ∧
      Beyond projection session first second

structure Faithful (events : List RankingEvent) (projection : RankingProjection) : Prop where
  distinct : projection.books.Nodup
  session : ∀ session, projection.pending = some session → SessionValid projection session
  answers : ∀ event ∈ events, ∀ first second, event.preference = some (first, second) →
    OnRecord projection event.candidate first second

structure Narrows (session later : PlacementSession) : Prop where
  candidate : later.candidate = session.candidate
  lo : session.lo ≤ later.lo
  hi : later.hi ≤ session.hi
  ordered : later.lo ≤ later.hi

theorem answer_narrows {session : PlacementSession} {j : Nat} (lower : session.lo ≤ j) (upper : j < session.hi)
    (opponent : BookId) (time : Timestamp) (choice : ComparisonChoice) :
    Narrows session (session.answer j opponent time choice) := by
  cases choice with
  | preferCandidate => exact ⟨rfl, Nat.le_refl _, Nat.le_of_lt upper, lower⟩
  | preferOpponent => exact ⟨rfl, Nat.le_succ_of_le lower, Nat.le_refl _, upper⟩
  | skip => exact ⟨rfl, Nat.le_refl _, Nat.le_refl _, Nat.le_of_lt (Nat.lt_of_le_of_lt lower upper)⟩

theorem Beyond.narrow {projection : RankingProjection} {session later : PlacementSession} {first second : BookId}
    (beyond : Beyond projection session first second) (narrows : Narrows session later) :
    Beyond projection later first second := by
  unfold Beyond
  rw [narrows.candidate]
  rcases beyond with ⟨same, member⟩ | ⟨same, member⟩
  · exact .inl ⟨same, (List.drop_sublist_drop_left _ narrows.hi).subset member⟩
  · exact .inr ⟨same, (List.take_sublist_take_left narrows.lo).subset member⟩

theorem beyond_answer {projection : RankingProjection} {event : RankingEvent} {session : PlacementSession}
    (candidate : session.candidate = event.candidate) {opponent : BookId} {choice : ComparisonChoice}
    (kind : event.kind = .comparisonAnswered opponent choice) {j : Nat}
    (found : projection.books[j]? = some opponent) {first second : BookId}
    (preferred : event.preference = some (first, second)) :
    Beyond projection (session.answer j opponent event.metadata.time choice) first second := by
  rw [RankingEvent.preference, kind] at preferred
  cases choice with
  | preferCandidate =>
    cases preferred
    exact .inl ⟨candidate.symm, mem_drop_of_getElem? found (Nat.le_refl j)⟩
  | preferOpponent =>
    cases preferred
    exact .inr ⟨candidate.symm, mem_take_of_getElem? found (Nat.lt_succ_self j)⟩
  | skip => cases preferred

theorem settle_valid {projection : RankingProjection} {event : RankingEvent} {session : PlacementSession}
    (fresh : session.candidate ∉ projection.books) (ordered : session.lo ≤ session.hi)
    (within : session.hi ≤ projection.books.length) {later : PlacementSession}
    (pending : (settle projection event session).pending = some later) :
    SessionValid (settle projection event session) later := by
  rcases settle_books projection event session with
    ⟨_, _, placed⟩ | ⟨interval, books, kept, same, candidate, lo, hi⟩
  · rw [placed] at pending
    cases pending
  · rw [pending] at same
    cases same
    refine ⟨?_, ?_, ?_⟩
    · rw [books, candidate]
      exact fresh
    · rw [lo, hi]
      omega
    · rw [books, hi]
      exact within

theorem settle_nodup {projection : RankingProjection} {event : RankingEvent} {session : PlacementSession}
    (distinct : projection.books.Nodup) (fresh : event.candidate ∉ projection.books)
    (within : session.hi ≤ projection.books.length) : (settle projection event session).books.Nodup := by
  rcases settle_books projection event session with ⟨closed, books, _⟩ | ⟨_, books, _⟩
  · rw [books]
    exact nodup_insertIdx (by omega) distinct fresh
  · rw [books]
    exact distinct

theorem settle_sublist (projection : RankingProjection) (event : RankingEvent) (session : PlacementSession) :
    projection.books.Sublist (settle projection event session).books := by
  rcases settle_books projection event session with ⟨_, books, _⟩ | ⟨_, books, _⟩
  · rw [books]
    exact List.sublist_insertIdx _ _ _
  · rw [books]

theorem settle_beyond {projection : RankingProjection} {event : RankingEvent} {session : PlacementSession}
    (candidate : session.candidate = event.candidate) (within : session.hi ≤ projection.books.length)
    {first second : BookId} (beyond : Beyond projection session first second) :
    OnRecord (settle projection event session) event.candidate first second := by
  rcases settle_books projection event session with
    ⟨closed, books, _⟩ | ⟨_, books, kept, pending, same, lo, hi⟩
  · have bound : session.lo ≤ projection.books.length := by omega
    refine .inl ⟨?_, ?_⟩
    · rw [books, List.mem_insertIdx bound]
      exact .inl rfl
    · rw [books]
      rcases beyond with ⟨first, member⟩ | ⟨second, member⟩
      · rw [first, candidate]
        rw [← closed] at member
        exact sublist_insertIdx_of_mem_drop bound member
      · rw [second, candidate]
        exact sublist_insertIdx_of_mem_take bound member
  · refine .inr ⟨kept, pending, same.trans candidate, ?_⟩
    unfold Beyond
    rw [books, same, lo, hi]
    exact beyond

theorem Faithful.extend {events : List RankingEvent} {projection next : RankingProjection} {event : RankingEvent}
    (faithful : Faithful events projection) (distinct : next.books.Nodup)
    (session : ∀ session, next.pending = some session → SessionValid next session)
    (kept : ∀ candidate first second, OnRecord projection candidate first second →
      OnRecord next candidate first second)
    (latest : ∀ first second, event.preference = some (first, second) →
      OnRecord next event.candidate first second) : Faithful (events ++ [event]) next := by
  refine ⟨distinct, session, ?_⟩
  intro other member first second preferred
  rcases List.mem_append.mp member with listed | last
  · exact kept _ _ _ (faithful.answers other listed first second preferred)
  · cases List.mem_singleton.mp last
    exact latest first second preferred

theorem Faithful.step {events : List RankingEvent} {projection next : RankingProjection} {event : RankingEvent}
    (faithful : Faithful events projection) (moves : Moves projection event next) :
    Faithful (events ++ [event]) next := by
  have silent : event.preference = none → ∀ first second, event.preference = some (first, second) →
      OnRecord next event.candidate first second := by
    intro decided first second preferred
    rw [decided] at preferred
    cases preferred
  cases moves with
  | first decided empty books pending =>
    refine faithful.extend ?_ ?_ ?_ (silent decided)
    · rw [books]
      exact List.nodup_singleton _
    · intro session present
      rw [pending] at present
      cases present
    · intro candidate first second record
      rcases record with ⟨ranked, _⟩ | ⟨session, present, _⟩
      · rw [empty] at ranked
        cases ranked
      · have valid := faithful.session session present
        have lower := valid.open_
        have upper := valid.within
        rw [empty, List.length_nil] at upper
        omega
  | started decided idle books session pending candidate lo hi valid =>
    refine faithful.extend ?_ ?_ ?_ (silent decided)
    · rw [books]
      exact faithful.distinct
    · intro other present
      rw [pending] at present
      cases present
      refine ⟨?_, valid.open_, ?_⟩
      · rw [books]
        exact valid.fresh
      · rw [books]
        exact valid.within
    · intro other first second record
      rcases record with ranked | ⟨session, present, _⟩
      · rw [OnRecord, books]
        exact .inl ranked
      · rw [idle] at present
        cases present
  | answered session pending candidate opponent choice kind j found lower upper settled =>
    have valid := faithful.session session pending
    have narrows := answer_narrows lower upper opponent event.metadata.time choice
    have same := narrows.candidate.trans candidate
    have within := Nat.le_trans narrows.hi valid.within
    have fresh := valid.fresh
    rw [candidate] at fresh
    subst settled
    refine faithful.extend ?_ ?_ ?_ ?_
    · exact settle_nodup faithful.distinct fresh within
    · intro later present
      exact settle_valid (by rw [same]; exact fresh) narrows.ordered within present
    · intro other first second record
      rcases record with ⟨ranked, ordered⟩ | ⟨active, present, owner, beyond⟩
      · have grown := settle_sublist projection event (session.answer j opponent event.metadata.time choice)
        exact .inl ⟨grown.subset ranked, ordered.trans grown⟩
      · rw [pending] at present
        cases present
        rw [← owner, candidate]
        exact settle_beyond same within (beyond.narrow narrows)
    · intro first second preferred
      exact settle_beyond same within (beyond_answer candidate kind found preferred)
  | kept decided books session later before after candidate lo hi =>
    have valid := faithful.session session before
    refine faithful.extend ?_ ?_ ?_ (silent decided)
    · rw [books]
      exact faithful.distinct
    · intro other present
      rw [after] at present
      cases present
      refine ⟨?_, ?_, ?_⟩
      · rw [books, candidate]
        exact valid.fresh
      · rw [lo, hi]
        exact valid.open_
      · rw [books, hi]
        exact valid.within
    · intro other first second record
      rcases record with ranked | ⟨active, present, owner, beyond⟩
      · rw [OnRecord, books]
        exact .inl ranked
      · rw [before] at present
        cases present
        refine .inr ⟨later, after, candidate.trans owner, ?_⟩
        unfold Beyond
        rw [books, candidate, lo, hi]
        exact beyond

theorem Moves.sublist {projection next : RankingProjection} {event : RankingEvent}
    (moves : Moves projection event next) : projection.books.Sublist next.books := by
  cases moves with
  | first decided empty books pending =>
    rw [empty]
    exact List.nil_sublist _
  | started decided idle books =>
    rw [books]
  | answered session pending candidate opponent choice kind j found lower upper settled =>
    rw [settled]
    exact settle_sublist projection event _
  | kept decided books =>
    rw [books]

/-- The ranked books are in order, and the placement under way is bracketed in that order. -/
structure Ordered (precedes : BookId → BookId → Prop) (projection : RankingProjection) : Prop where
  sorted : projection.books.Pairwise precedes
  bracketed : ∀ session, projection.pending = some session →
    Brackets precedes projection.books session.candidate session.lo session.hi

theorem Ordered.step {precedes : BookId → BookId → Prop}
    (transitive : ∀ a b c, precedes a b → precedes b c → precedes a c) {events : List RankingEvent}
    {projection next : RankingProjection} {event : RankingEvent} (faithful : Faithful events projection)
    (ordered : Ordered precedes projection)
    (agrees : ∀ first second, event.preference = some (first, second) → precedes first second)
    (moves : Moves projection event next) : Ordered precedes next := by
  cases moves with
  | first decided empty books pending =>
    refine ⟨?_, ?_⟩
    · rw [books]
      exact List.pairwise_singleton _ _
    · intro session present
      rw [pending] at present
      cases present
  | started decided idle books session pending candidate lo hi valid =>
    refine ⟨?_, ?_⟩
    · rw [books]
      exact ordered.sorted
    · intro other present
      rw [pending] at present
      cases present
      rw [books, lo, hi]
      exact Brackets.whole precedes projection.books session.candidate
  | answered session pending candidate opponent choice kind j found lower upper settled =>
    have valid := faithful.session session pending
    have narrows := answer_narrows lower upper opponent event.metadata.time choice
    have brackets := ordered.bracketed session pending
    have narrowed : Brackets precedes projection.books session.candidate
        (session.answer j opponent event.metadata.time choice).lo
        (session.answer j opponent event.metadata.time choice).hi := by
      cases choice with
      | preferCandidate =>
        apply brackets.below transitive ordered.sorted found
        rw [candidate]
        exact agrees _ _ (by rw [RankingEvent.preference, kind])
      | preferOpponent =>
        apply brackets.above transitive ordered.sorted found
        rw [candidate]
        exact agrees _ _ (by rw [RankingEvent.preference, kind])
      | skip => exact brackets
    subst settled
    rcases settle_books projection event (session.answer j opponent event.metadata.time choice) with
      ⟨closed, books, placed⟩ | ⟨_, books, kept, present, same, lo, hi⟩
    · refine ⟨?_, ?_⟩
      · rw [books, ← candidate]
        rw [← closed] at narrowed
        exact narrowed.insert ordered.sorted
          (Nat.le_trans narrows.ordered (Nat.le_trans narrows.hi valid.within))
      · intro later present
        rw [placed] at present
        cases present
    · refine ⟨?_, ?_⟩
      · rw [books]
        exact ordered.sorted
      · intro later found
        rw [present] at found
        cases found
        rw [books, same, narrows.candidate, lo, hi]
        exact narrowed
  | kept decided books session later before after candidate lo hi =>
    refine ⟨?_, ?_⟩
    · rw [books]
      exact ordered.sorted
    · intro other present
      rw [after] at present
      cases present
      rw [books, candidate, lo, hi]
      exact ordered.bracketed session before

theorem Faithful.apply {events : List RankingEvent} {projection result : RankingProjection}
    {event : RankingEvent} (faithful : Faithful events projection)
    (applied : BookSmartz.apply projection event = .ok result) : Faithful (events ++ [event]) result := by
  rcases apply_eq_ok applied with ⟨next, kind, _, _, _, rfl⟩
  have moved := faithful.step (applyKind_moves faithful.distinct kind)
  refine ⟨moved.distinct, ?_, moved.answers⟩
  intro session pending
  have valid := moved.session session pending
  exact ⟨valid.fresh, valid.open_, valid.within⟩

theorem Faithful.apply_sublist {events : List RankingEvent} {projection result : RankingProjection}
    {event : RankingEvent} (faithful : Faithful events projection)
    (applied : BookSmartz.apply projection event = .ok result) : projection.books.Sublist result.books := by
  rcases apply_eq_ok applied with ⟨next, kind, _, _, _, rfl⟩
  exact (applyKind_moves faithful.distinct kind).sublist

theorem Ordered.apply {precedes : BookId → BookId → Prop}
    (transitive : ∀ a b c, precedes a b → precedes b c → precedes a c) {events : List RankingEvent}
    {projection result : RankingProjection} {event : RankingEvent} (faithful : Faithful events projection)
    (ordered : Ordered precedes projection)
    (agrees : ∀ first second, event.preference = some (first, second) → precedes first second)
    (applied : BookSmartz.apply projection event = .ok result) : Ordered precedes result := by
  rcases apply_eq_ok applied with ⟨next, kind, _, _, _, rfl⟩
  have moved := ordered.step transitive faithful agrees (applyKind_moves faithful.distinct kind)
  exact ⟨moved.sorted, moved.bracketed⟩

theorem faithful_empty (readerId : ReaderId) : Faithful [] (.empty readerId) := by
  refine ⟨List.nodup_nil, ?_, ?_⟩
  · intro session pending
    cases pending
  · intro event member
    cases member

theorem replay_append {readerId : ReaderId} {events : List RankingEvent} {event : RankingEvent}
    {result : RankingProjection} :
    replay readerId (events ++ [event]) = .ok result ↔
      ∃ projection, replay readerId events = .ok projection ∧ apply projection event = .ok result := by
  rw [replay, List.foldlM_append, bind_eq_ok]
  simp only [List.foldlM_cons, List.foldlM_nil, bind_eq_ok, pure, Except.pure, Except.ok.injEq]
  constructor
  · rintro ⟨projection, before, _, applied, rfl⟩
    exact ⟨projection, before, applied⟩
  · rintro ⟨projection, before, applied⟩
    exact ⟨projection, before, result, applied, rfl⟩

theorem replay_faithful {readerId : ReaderId} {events : List RankingEvent} :
    ∀ {projection : RankingProjection}, replay readerId events = .ok projection → Faithful events projection := by
  induction events using List.reverseRecOn with
  | nil =>
    intro projection replayed
    cases replayed
    exact faithful_empty readerId
  | append_singleton earlier event ih =>
    intro projection replayed
    rcases replay_append.mp replayed with ⟨before, accepted, applied⟩
    exact (ih accepted).apply applied

theorem replay_prefix {readerId : ReaderId} {earlier later : List RankingEvent} :
    ∀ {projection : RankingProjection}, replay readerId (earlier ++ later) = .ok projection →
      ∃ before, replay readerId earlier = .ok before ∧ before.books.Sublist projection.books := by
  induction later using List.reverseRecOn with
  | nil =>
    intro projection replayed
    rw [List.append_nil] at replayed
    exact ⟨projection, replayed, List.Sublist.refl _⟩
  | append_singleton middle event ih =>
    intro projection replayed
    rw [← List.append_assoc] at replayed
    rcases replay_append.mp replayed with ⟨last, accepted, applied⟩
    rcases ih accepted with ⟨before, first, sublist⟩
    exact ⟨before, first, sublist.trans ((replay_faithful accepted).apply_sublist applied)⟩

theorem replay_ordered {precedes : BookId → BookId → Prop}
    (transitive : ∀ a b c, precedes a b → precedes b c → precedes a c) {readerId : ReaderId}
    {events : List RankingEvent} :
    ∀ {projection : RankingProjection}, replay readerId events = .ok projection →
      (∀ event ∈ events, ∀ first second, event.preference = some (first, second) → precedes first second) →
      Ordered precedes projection := by
  induction events using List.reverseRecOn with
  | nil =>
    intro projection replayed _
    cases replayed
    refine ⟨List.Pairwise.nil, ?_⟩
    intro session pending
    cases pending
  | append_singleton earlier event ih =>
    intro projection replayed agrees
    rcases replay_append.mp replayed with ⟨before, accepted, applied⟩
    have ordered := ih accepted fun other member => agrees other (List.mem_append_left _ member)
    exact ordered.apply transitive (replay_faithful accepted)
      (agrees event (List.mem_append_right _ List.mem_cons_self)) applied

/-- The ranking keeps every answer: placed books stand as they were compared, a placement never moves
the books already ranked, and answers that follow one order yield that order. -/
theorem ranking_is_faithful {readerId : ReaderId} {events : List RankingEvent} {projection : RankingProjection}
    (replayed : replay readerId events = .ok projection) :
    projection.books.Nodup ∧
      (∀ event ∈ events, ∀ first second, event.preference = some (first, second) →
        event.candidate ∈ projection.books → [first, second].Sublist projection.books) ∧
      (∀ earlier later, events = earlier ++ later →
        ∃ before, replay readerId earlier = .ok before ∧ before.books.Sublist projection.books) ∧
      (∀ precedes : BookId → BookId → Prop, (∀ a b c, precedes a b → precedes b c → precedes a c) →
        (∀ event ∈ events, ∀ first second, event.preference = some (first, second) → precedes first second) →
        projection.books.Pairwise precedes) := by
  have faithful := replay_faithful replayed
  refine ⟨faithful.distinct, ?_, ?_, ?_⟩
  · intro event member first second preferred ranked
    rcases faithful.answers event member first second preferred with ⟨_, ordered⟩ | ⟨session, pending, owner, _⟩
    · exact ordered
    · rw [← owner] at ranked
      exact absurd ranked (faithful.session session pending).fresh
  · intro earlier later split
    subst split
    exact replay_prefix replayed
  · intro precedes transitive agrees
    exact (replay_ordered transitive replayed agrees).sorted

def book (number : Nat) : BookId := ⟨⟨BitVec.ofNat 128 number⟩⟩

def eventOf (sequence : Sequence) (candidate : BookId) (kind : EventKind) : RankingEvent :=
  ⟨⟨⟨⟨BitVec.ofNat 128 sequence.value.toNat⟩⟩, ⟨⟨9⟩⟩, sequence, ⟨0, 0⟩⟩, candidate, kind⟩

/-- Three books, the third placed between the others after a skip that pauses its placement. -/
def threeBooks : List RankingEvent :=
  [eventOf ⟨1, by decide⟩ (book 1) .placementStarted, eventOf ⟨2, by decide⟩ (book 2) .placementStarted,
    eventOf ⟨3, by decide⟩ (book 2) (.comparisonAnswered (book 1) .preferOpponent),
    eventOf ⟨4, by decide⟩ (book 3) .placementStarted,
    eventOf ⟨5, by decide⟩ (book 3) (.comparisonAnswered (book 1) .skip),
    eventOf ⟨6, by decide⟩ (book 3) (.comparisonAnswered (book 2) .preferCandidate),
    eventOf ⟨7, by decide⟩ (book 3) .placementResumed,
    eventOf ⟨8, by decide⟩ (book 3) (.comparisonAnswered (book 1) .preferOpponent)]

theorem ranking_is_faithful_threeBooks :
    ∃ projection, replay ⟨⟨9⟩⟩ threeBooks = .ok projection ∧ projection.books.Nodup ∧
      [book 3, book 2].Sublist projection.books := by
  rcases exists_eq_ok (x := replay ⟨⟨9⟩⟩ threeBooks) (by decide +kernel) with ⟨projection, replayed⟩
  have ranked : projection.books = [book 1, book 3, book 2] := by
    have books : (replay ⟨⟨9⟩⟩ threeBooks).map RankingProjection.books = .ok [book 1, book 3, book 2] := by
      decide +kernel
    rw [replayed] at books
    exact Except.ok.inj books
  have faithful := ranking_is_faithful replayed
  refine ⟨projection, replayed, faithful.1, ?_⟩
  apply faithful.2.1 (eventOf ⟨6, by decide⟩ (book 3) (.comparisonAnswered (book 2) .preferCandidate))
  · decide
  · rfl
  · rw [ranked]
    decide

end BookSmartz

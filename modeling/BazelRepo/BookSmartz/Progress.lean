import BazelRepo.BookSmartz.Faithful
import Mathlib.Data.Nat.Log

namespace BookSmartz

open Library

section Selection

variable {entries : List RankingEntry} {session : PlacementSession} {j : ℕ}

theorem mem_candidates :
    j ∈ (List.range' session.lo (session.hi - session.lo)).filter (eligible entries session) ↔
      session.lo ≤ j ∧ j < session.hi ∧ eligible entries session j = true := by
  rw [List.mem_filter, List.mem_range'_1]
  constructor
  · rintro ⟨⟨lower, upper⟩, allowed⟩
    exact ⟨lower, by omega, allowed⟩
  · rintro ⟨lower, upper, allowed⟩
    exact ⟨⟨lower, by omega⟩, allowed⟩

def remaining (entries : List RankingEntry) (session : PlacementSession) : ℕ :=
  ((List.range' session.lo (session.hi - session.lo)).filter (eligible entries session)).length

theorem remaining_le (entries : List RankingEntry) (session : PlacementSession) :
    remaining entries session ≤ session.hi - session.lo := by
  have bound := List.length_filter_le (eligible entries session) (List.range' session.lo (session.hi - session.lo))
  rwa [List.length_range'] at bound

theorem selectPosition_isSome : (selectPosition entries session).isSome ↔ 0 < remaining entries session := by
  unfold selectPosition remaining
  rw [List.length_pos_iff, ← Option.ne_none_iff_isSome, ne_eq, List.argmin_eq_none]

theorem eligible_entry (allowed : eligible entries session j = true) : ∃ entry, entries[j]? = some entry := by
  unfold eligible at allowed
  cases found : entries[j]? with
  | none =>
    rw [found] at allowed
    cases allowed
  | some entry => exact ⟨entry, rfl⟩

theorem selectPosition_spec (selected : selectPosition entries session = some j) :
    session.lo ≤ j ∧ j < session.hi ∧ eligible entries session j = true :=
  mem_candidates.mp (List.argmin_mem selected)

theorem selectOpponent_isSome :
    (selectOpponent entries session).isSome ↔ session.paused = false ∧ 0 < remaining entries session := by
  rw [← selectPosition_isSome]
  unfold selectOpponent
  cases session.paused with
  | true => simp
  | false =>
    cases selected : selectPosition entries session with
    | none => simp
    | some j =>
      rcases eligible_entry (selectPosition_spec selected).2.2 with ⟨entry, found⟩
      simp [found]

theorem remaining_pos (lower : session.lo ≤ j) (upper : j < session.hi) (allowed : eligible entries session j = true) :
    0 < remaining entries session := by
  unfold remaining
  rw [List.length_pos_iff]
  exact List.ne_nil_of_mem (mem_candidates.mpr ⟨lower, upper, allowed⟩)

theorem eligible_of_unskipped (unskipped : session.skipped = ∅) (bound : j < entries.length) :
    eligible entries session j = true := by
  unfold eligible
  rw [List.getElem?_eq_getElem bound, unskipped]
  simp

theorem selectPosition_midpoint (unskipped : session.skipped = ∅) (open_ : session.lo < session.hi)
    (within : session.hi ≤ entries.length) (selected : selectPosition entries session = some j) :
    j = session.lo + (session.hi - session.lo - 1) / 2 := by
  have member : session.lo + (session.hi - session.lo - 1) / 2 ∈
      (List.range' session.lo (session.hi - session.lo)).filter (eligible entries session) := by
    refine mem_candidates.mpr ⟨by omega, by omega, ?_⟩
    exact eligible_of_unskipped unskipped (by omega)
  have nearest := List.le_of_mem_argmin member selected
  rw [Prod.Lex.toLex_le_toLex] at nearest
  unfold absDiff at nearest
  rcases nearest with closer | ⟨same, _⟩
  · dsimp only at closer
    omega
  · dsimp only at same
    omega

theorem remaining_answer (selected : selectPosition entries session = some j) {opponent : BookId}
    (found : (entries[j]?).map RankingEntry.bookId = some opponent) (time : Timestamp) (choice : ComparisonChoice) :
    remaining entries (session.answer j opponent time choice) < remaining entries session := by
  rcases selectPosition_spec selected with ⟨lower, upper, allowed⟩
  have fewer : (j :: (List.range' (session.answer j opponent time choice).lo
      ((session.answer j opponent time choice).hi - (session.answer j opponent time choice).lo)).filter
        (eligible entries (session.answer j opponent time choice))).length ≤ remaining entries session := by
    apply List.Subperm.length_le
    apply List.subperm_of_subset
    · rw [List.nodup_cons]
      refine ⟨?_, List.Nodup.filter _ List.nodup_range'⟩
      rw [mem_candidates]
      rintro ⟨above, below, open_⟩
      cases choice with
      | preferCandidate =>
        unfold PlacementSession.answer at below
        dsimp only at below
        omega
      | preferOpponent =>
        unfold PlacementSession.answer at above
        dsimp only at above
        omega
      | skip =>
        rcases eligible_entry allowed with ⟨entry, here⟩
        rw [here] at found
        cases found
        unfold eligible PlacementSession.answer at open_
        rw [here] at open_
        simp at open_
    · intro i listed
      rcases List.mem_cons.mp listed with rfl | later
      · exact mem_candidates.mpr ⟨lower, upper, allowed⟩
      · rcases mem_candidates.mp later with ⟨above, below, open_⟩
        apply mem_candidates.mpr
        cases choice with
        | preferCandidate =>
          unfold PlacementSession.answer at above below
          exact ⟨above, below.trans upper, open_⟩
        | preferOpponent =>
          unfold PlacementSession.answer at above below
          exact ⟨by dsimp only at above; omega, below, open_⟩
        | skip =>
          refine ⟨above, below, ?_⟩
          unfold eligible PlacementSession.answer at open_
          unfold eligible
          cases here : entries[i]? with
          | none =>
            rw [here] at open_
            cases open_
          | some entry =>
            rw [here] at open_
            simp at open_ ⊢
            exact open_.2
  exact fewer

end Selection

/-- An unpaused placement has a question to ask, and only ranked books were skipped. -/
def Ready (projection : RankingProjection) : Prop :=
  ∀ session, projection.pending = some session →
    (∀ book ∈ session.skipped, book ∈ projection.books) ∧
      (session.paused = false → 0 < remaining projection.entries session)

theorem length_books (projection : RankingProjection) : projection.books.length = projection.entries.length := by
  unfold RankingProjection.books
  rw [List.length_map]

theorem applyAnswered_inv {projection next : RankingProjection} {event : RankingEvent} {opponent : BookId}
    {choice : ComparisonChoice} (distinct : projection.books.Nodup)
    (applied : applyAnswered projection event opponent choice = .ok next) :
    ∃ session j, projection.pending = some session ∧ session.candidate = event.candidate ∧ session.paused = false ∧
      selectPosition projection.entries session = some j ∧ projection.books[j]? = some opponent ∧
      next = settle projection event (session.answer j opponent event.metadata.time choice) := by
  unfold applyAnswered at applied
  simp only [bind_eq_ok, okOr_eq_ok, reject_eq_ok, Except.ok.injEq, not_not, Bool.not_eq_true] at applied
  rcases applied with ⟨session, pending, candidate, unpaused, selected, settled⟩
  unfold RankingProjection.nextOpponent at selected
  rw [pending, Option.bind_some, selectOpponent, unpaused] at selected
  rcases Option.bind_eq_some_iff.mp selected with ⟨j, position, found⟩
  have there : projection.books[j]? = some opponent := by
    rw [RankingProjection.books, List.getElem?_map]
    exact found
  have bound : j < projection.books.length := (List.getElem?_eq_some_iff.mp there).1
  have index : projection.books.idxOf opponent = j := by
    rw [← (List.getElem?_eq_some_iff.mp there).2]
    exact distinct.idxOf_getElem j bound
  rw [findIdx_books, index] at settled
  exact ⟨session, j, pending, candidate, unpaused, position, there, settled.symm⟩

theorem settle_cases {projection : RankingProjection} (event : RankingEvent) {session : PlacementSession}
    (within : session.lo ≤ projection.books.length) :
    session.lo = session.hi ∧ (settle projection event session).pending = none ∧
        event.candidate ∈ (settle projection event session).books ∨
      (settle projection event session).entries = projection.entries ∧
        ∃ later, (settle projection event session).pending = some later ∧ later.skipped = session.skipped ∧
          later.lo = session.lo ∧ later.hi = session.hi ∧
          (later.paused = true ∧ (selectOpponent projection.entries session).isNone ∨
            later = session ∧ (selectOpponent projection.entries session).isSome) := by
  unfold settle
  split
  case isTrue closed =>
    refine .inl ⟨closed, rfl, ?_⟩
    unfold RankingProjection.books at within ⊢
    dsimp only
    rw [List.map_insertIdx]
    exact (List.mem_insertIdx within).mpr (.inl rfl)
  case isFalse =>
    split
    case isTrue unasked => exact .inr ⟨rfl, _, rfl, rfl, rfl, rfl, .inl ⟨rfl, unasked⟩⟩
    case isFalse asked =>
      refine .inr ⟨rfl, _, rfl, rfl, rfl, rfl, .inr ⟨rfl, ?_⟩⟩
      rw [Bool.not_eq_true, Option.isNone_eq_false_iff] at asked
      exact asked

theorem answer_within {projection : RankingProjection} {session : PlacementSession}
    (valid : SessionValid projection session) {j : ℕ} (selected : selectPosition projection.entries session = some j)
    (opponent : BookId) (time : Timestamp) (choice : ComparisonChoice) :
    (session.answer j opponent time choice).lo ≤ projection.books.length := by
  rcases selectPosition_spec selected with ⟨lower, upper, _⟩
  have narrows := answer_narrows lower upper opponent time choice
  exact narrows.ordered.trans (narrows.hi.trans valid.within)

theorem applyKind_ready {projection next : RankingProjection} {event : RankingEvent}
    (distinct : projection.books.Nodup)
    (valid : ∀ session, projection.pending = some session → SessionValid projection session)
    (ready : Ready projection) (applied : applyKind projection event = .ok next) : Ready next := by
  unfold applyKind at applied
  cases kind : event.kind with
  | placementStarted =>
    rw [kind] at applied
    unfold applyStarted at applied
    rw [reject_eq_ok, reject_eq_ok] at applied
    rcases applied with ⟨_, idle, applied⟩
    intro session pending
    split at applied
    case isTrue =>
      cases applied
      rw [Bool.not_eq_true, Option.isSome_eq_false_iff, Option.isNone_iff_eq_none] at idle
      rw [idle] at pending
      cases pending
    case isFalse filled =>
      cases applied
      cases pending
      refine ⟨nofun, fun _ => ?_⟩
      have bound : 0 < projection.entries.length := by simpa [List.length_pos_iff] using filled
      exact @remaining_pos _ ⟨event.candidate, 0, projection.entries.length, ∅, false, event.metadata.time,
        event.metadata.time⟩ 0 (Nat.le_refl 0) bound (eligible_of_unskipped rfl bound)
  | comparisonAnswered opponent choice =>
    rw [kind] at applied
    rcases applyAnswered_inv distinct applied with ⟨session, j, before, _, _, selected, found, rfl⟩
    intro later pending
    rcases settle_cases event (answer_within (valid session before) selected opponent event.metadata.time choice) with
      ⟨_, placed, _⟩ | ⟨entries, kept, present, skipped, _, _, paused | ⟨same, asked⟩⟩
    · rw [placed] at pending
      cases pending
    all_goals
      rw [present] at pending
      cases pending
      have members : ∀ book ∈ later.skipped,
          book ∈ (settle projection event (session.answer j opponent event.metadata.time choice)).books := by
        intro book skip
        unfold RankingProjection.books
        rw [entries]
        rw [skipped] at skip
        cases choice with
        | preferCandidate | preferOpponent => exact (ready session before).1 book skip
        | skip =>
          rcases Finset.mem_insert.mp skip with rfl | earlier
          · exact List.mem_of_getElem? found
          · exact (ready session before).1 book earlier
    · refine ⟨members, fun unpaused => ?_⟩
      rw [paused.1] at unpaused
      cases unpaused
    · refine ⟨members, fun _ => ?_⟩
      rw [entries, same]
      exact (selectOpponent_isSome.mp asked).2
  | placementPaused =>
    rw [kind] at applied
    unfold applyPaused at applied
    simp only [bind_eq_ok, okOr_eq_ok, reject_eq_ok, Except.ok.injEq] at applied
    rcases applied with ⟨session, before, _, _, rfl⟩
    intro later pending
    cases pending
    exact ⟨(ready session before).1, nofun⟩
  | placementResumed =>
    rw [kind] at applied
    unfold applyResumed at applied
    simp only [bind_eq_ok, okOr_eq_ok, reject_eq_ok, Except.ok.injEq] at applied
    rcases applied with ⟨session, before, _, _, rfl⟩
    have bounds := valid session before
    have within := bounds.within
    rw [length_books] at within
    intro later pending
    cases pending
    refine ⟨nofun, fun _ => ?_⟩
    exact @remaining_pos _ { session with paused := false, skipped := ∅, lastActivityAt := event.metadata.time }
      session.lo (Nat.le_refl _) bounds.open_ (eligible_of_unskipped rfl (Nat.lt_of_lt_of_le bounds.open_ within))

structure Sound (projection : RankingProjection) : Prop where
  distinct : projection.books.Nodup
  session : ∀ session, projection.pending = some session → SessionValid projection session
  ready : Ready projection

theorem replay_sound {readerId : ReaderId} {events : List RankingEvent} :
    ∀ {projection : RankingProjection}, replay readerId events = .ok projection → Sound projection := by
  induction events using List.reverseRecOn with
  | nil =>
    intro projection replayed
    cases replayed
    have faithful := faithful_empty readerId
    refine ⟨faithful.distinct, faithful.session, ?_⟩
    intro session pending
    cases pending
  | append_singleton earlier event ih =>
    intro projection replayed
    have faithful := replay_faithful replayed
    refine ⟨faithful.distinct, faithful.session, ?_⟩
    rcases replay_append.mp replayed with ⟨before, accepted, applied⟩
    rcases apply_eq_ok applied with ⟨next, kind, _, _, _, rfl⟩
    have sound := ih accepted
    have ready := applyKind_ready sound.distinct sound.session sound.ready kind
    exact ready

theorem Sound.apply {projection result : RankingProjection} {event : RankingEvent} (sound : Sound projection)
    (applied : BookSmartz.apply projection event = .ok result) : Sound result := by
  have faithful : Faithful [] projection := ⟨sound.distinct, sound.session, nofun⟩
  have after := faithful.apply applied
  refine ⟨after.distinct, after.session, ?_⟩
  rcases apply_eq_ok applied with ⟨next, kind, _, _, _, rfl⟩
  have ready := applyKind_ready sound.distinct sound.session sound.ready kind
  exact ready

def RankingEvent.isAnswer (event : RankingEvent) : Bool :=
  match event.kind with
  | .comparisonAnswered .. => true
  | _ => false

def RankingEvent.isSkip (event : RankingEvent) : Bool :=
  match event.kind with
  | .comparisonAnswered _ .skip => true
  | _ => false

def Completed (session : PlacementSession) (result : RankingProjection) : Prop :=
  result.pending = none ∧ session.candidate ∈ result.books

def Asking (session : PlacementSession) (result : RankingProjection) (later : PlacementSession) : Prop :=
  result.pending = some later ∧ later.paused = false ∧ later.candidate = session.candidate

def PausedItself (session : PlacementSession) (result : RankingProjection) : Prop :=
  ∃ later, result.pending = some later ∧ later.paused = true ∧ later.candidate = session.candidate

section Answers

variable {projection result : RankingProjection} {session : PlacementSession} {event : RankingEvent}

theorem apply_answer (sound : Sound projection) (answer : event.isAnswer = true)
    (applied : apply projection event = .ok result) :
    ∃ session opponent choice j, event.kind = .comparisonAnswered opponent choice ∧
      projection.pending = some session ∧ session.candidate = event.candidate ∧ session.paused = false ∧
      selectPosition projection.entries session = some j ∧ projection.books[j]? = some opponent ∧
      result.entries = (settle projection event (session.answer j opponent event.metadata.time choice)).entries ∧
      result.pending = (settle projection event (session.answer j opponent event.metadata.time choice)).pending := by
  rcases apply_eq_ok applied with ⟨next, kind, _, _, _, rfl⟩
  unfold RankingEvent.isAnswer at answer
  unfold applyKind at kind
  cases which : event.kind with
  | comparisonAnswered opponent choice =>
    rw [which] at kind
    rcases applyAnswered_inv sound.distinct kind with ⟨session, j, pending, candidate, unpaused, selected, found, rfl⟩
    exact ⟨session, opponent, choice, j, rfl, pending, candidate, unpaused, selected, found, rfl, rfl⟩
  | placementStarted | placementPaused | placementResumed =>
    rw [which] at answer
    cases answer

theorem Asking.asked (sound : Sound projection) (asking : Asking session projection session)
    (answer : event.isAnswer = true) (applied : apply projection event = .ok result) :
    ∃ opponent choice j, event.kind = .comparisonAnswered opponent choice ∧ session.candidate = event.candidate ∧
      selectPosition projection.entries session = some j ∧ projection.books[j]? = some opponent ∧
      result.entries = (settle projection event (session.answer j opponent event.metadata.time choice)).entries ∧
      result.pending = (settle projection event (session.answer j opponent event.metadata.time choice)).pending := by
  rcases apply_answer sound answer applied with ⟨found, opponent, choice, j, kind, pending, candidate, _, rest⟩
  rw [asking.1] at pending
  cases pending
  exact ⟨opponent, choice, j, kind, candidate, rest⟩

theorem Asking.answered (sound : Sound projection) (asking : Asking session projection session)
    (answer : event.isAnswer = true) (applied : apply projection event = .ok result) :
    Completed session result ∨ PausedItself session result ∨
      ∃ later, Asking session result later ∧ remaining result.entries later < remaining projection.entries session := by
  rcases asking.asked sound answer applied with ⟨opponent, choice, j, _, candidate, selected, found, entries, pending⟩
  have books : result.books = (settle projection event (session.answer j opponent event.metadata.time choice)).books := by
    unfold RankingProjection.books
    rw [entries]
  have within := answer_within (sound.session session asking.1) selected opponent event.metadata.time choice
  have same : (session.answer j opponent event.metadata.time choice).candidate = session.candidate := by
    cases choice <;> rfl
  rcases settle_cases event within with ⟨_, placed, member⟩ | ⟨kept, later, present, _, _, _, ended⟩
  · refine .inl ⟨pending.trans placed, ?_⟩
    rw [candidate, books]
    exact member
  · rcases settle_books projection event (session.answer j opponent event.metadata.time choice) with
      ⟨_, _, placed⟩ | ⟨_, _, other, there, named, _, _⟩
    · rw [present] at placed
      cases placed
    rw [present] at there
    cases there
    rcases ended with ⟨paused, _⟩ | ⟨rfl, asked⟩
    · exact .inr (.inl ⟨later, pending.trans present, paused, named.trans same⟩)
    · refine .inr (.inr ⟨_, ⟨pending.trans present, ?_, same⟩, ?_⟩)
      · exact (selectOpponent_isSome.mp asked).1
      · rw [entries, kept]
        have here : (projection.entries[j]?).map RankingEntry.bookId = some opponent := by
          rw [← List.getElem?_map]
          exact found
        exact remaining_answer selected here event.metadata.time choice

theorem Asking.halved (sound : Sound projection) (asking : Asking session projection session)
    (unskipped : session.skipped = ∅) (answer : event.isAnswer = true) (decided : event.isSkip = false)
    (applied : apply projection event = .ok result) :
    Completed session result ∨ ∃ later, Asking session result later ∧ later.skipped = ∅ ∧
      2 * (later.hi - later.lo) ≤ session.hi - session.lo := by
  rcases asking.asked sound answer applied with ⟨opponent, choice, j, kind, candidate, selected, found, entries, pending⟩
  have valid := sound.session session asking.1
  have within := answer_within valid selected opponent event.metadata.time choice
  have books : result.books = (settle projection event (session.answer j opponent event.metadata.time choice)).books := by
    unfold RankingProjection.books
    rw [entries]
  have open_ := valid.open_
  have bound := valid.within
  rw [length_books] at bound
  have middle := selectPosition_midpoint unskipped open_ bound selected
  have halves : (session.answer j opponent event.metadata.time choice).skipped = ∅ ∧
      (session.answer j opponent event.metadata.time choice).candidate = session.candidate ∧
      (session.answer j opponent event.metadata.time choice).paused = session.paused ∧
      (session.answer j opponent event.metadata.time choice).hi ≤ projection.entries.length ∧
      (session.answer j opponent event.metadata.time choice).lo ≤
        (session.answer j opponent event.metadata.time choice).hi ∧
      2 * ((session.answer j opponent event.metadata.time choice).hi -
        (session.answer j opponent event.metadata.time choice).lo) ≤ session.hi - session.lo := by
    cases choice with
    | preferCandidate =>
      unfold PlacementSession.answer
      exact ⟨unskipped, rfl, rfl, by dsimp only; omega, by dsimp only; omega, by dsimp only; omega⟩
    | preferOpponent =>
      unfold PlacementSession.answer
      exact ⟨unskipped, rfl, rfl, bound, by dsimp only; omega, by dsimp only; omega⟩
    | skip =>
      unfold RankingEvent.isSkip at decided
      rw [kind] at decided
      cases decided
  generalize session.answer j opponent event.metadata.time choice = narrowed at *
  rcases halves with ⟨unasked, same, unpaused, top, ordered, half⟩
  rcases settle_cases event within with ⟨_, placed, member⟩ | ⟨kept, later, present, skipped, lo, hi, ended⟩
  · refine .inl ⟨pending.trans placed, ?_⟩
    rw [candidate, books]
    exact member
  · rcases settle_books projection event narrowed with ⟨_, _, placed⟩ | ⟨interval, _⟩
    · rw [present] at placed
      cases placed
    have wide : narrowed.lo < narrowed.hi := by omega
    have asked : (selectOpponent projection.entries narrowed).isSome := by
      refine selectOpponent_isSome.mpr ⟨unpaused.trans asking.2.1, ?_⟩
      exact remaining_pos (Nat.le_refl _) wide (eligible_of_unskipped unasked (by omega))
    rcases ended with ⟨_, none⟩ | ⟨rfl, _⟩
    · rw [Option.isNone_iff_eq_none] at none
      rw [none] at asked
      cases asked
    · exact .inr ⟨_, ⟨pending.trans present, unpaused.trans asking.2.1, same⟩, unasked, half⟩

theorem unasked_rejects (sound : Sound projection) (answer : event.isAnswer = true)
    (ended : projection.pending = none ∨ ∃ later, projection.pending = some later ∧ later.paused = true) :
    apply projection event ≠ .ok result := by
  intro applied
  rcases apply_answer sound answer applied with ⟨found, _, _, _, _, pending, _, unpaused, _⟩
  rcases ended with none | ⟨later, present, paused⟩
  · rw [none] at pending
    cases pending
  · rw [present] at pending
    cases pending
    rw [paused] at unpaused
    cases unpaused

end Answers

theorem answers_nil {projection result : RankingProjection} {answers : List RankingEvent} (sound : Sound projection)
    (all : ∀ event ∈ answers, event.isAnswer = true)
    (ended : projection.pending = none ∨ ∃ later, projection.pending = some later ∧ later.paused = true)
    (run : answers.foldlM apply projection = .ok result) : answers = [] ∧ result = projection := by
  cases answers with
  | nil =>
    cases run
    exact ⟨rfl, rfl⟩
  | cons event rest =>
    rw [List.foldlM_cons, bind_eq_ok] at run
    rcases run with ⟨next, applied, _⟩
    exact absurd applied (unasked_rejects sound (all event List.mem_cons_self) ended)

theorem answers_spend {answers : List RankingEvent} :
    ∀ {projection result : RankingProjection} {session : PlacementSession}, Sound projection →
      Asking session projection session → (∀ event ∈ answers, event.isAnswer = true) →
      answers.foldlM apply projection = .ok result →
      answers.length ≤ remaining projection.entries session ∧ (Completed session result ∨ PausedItself session result ∨
        ∃ later, Asking session result later ∧ answers.length < remaining projection.entries session) := by
  induction answers with
  | nil =>
    intro projection result session sound asking _ run
    cases run
    exact ⟨Nat.zero_le _, .inr (.inr ⟨session, asking, (sound.ready session asking.1).2 asking.2.1⟩)⟩
  | cons event rest ih =>
    intro projection result session sound asking all run
    rw [List.foldlM_cons, bind_eq_ok] at run
    rcases run with ⟨next, applied, run⟩
    have after := sound.apply applied
    have others : ∀ other ∈ rest, other.isAnswer = true := fun other member => all other (List.mem_cons_of_mem _ member)
    have left := (sound.ready session asking.1).2 asking.2.1
    rcases asking.answered sound (all event List.mem_cons_self) applied with done | paused | ⟨later, asked, less⟩
    · rcases answers_nil after others (.inl done.1) run with ⟨rfl, rfl⟩
      exact ⟨left, .inl done⟩
    · rcases paused with ⟨later, present, asleep, same⟩
      rcases answers_nil after others (.inr ⟨later, present, asleep⟩) run with ⟨rfl, rfl⟩
      exact ⟨left, .inr (.inl ⟨later, present, asleep, same⟩)⟩
    · have start : Asking later next later := ⟨asked.1, asked.2.1, rfl⟩
      rcases ih after start others run with ⟨bound, outcome⟩
      rw [List.length_cons]
      refine ⟨by omega, ?_⟩
      unfold Completed PausedItself Asking at outcome ⊢
      rw [asked.2.2] at outcome
      rcases outcome with done | paused | ⟨last, asking, spent⟩
      · exact .inl done
      · exact .inr (.inl paused)
      · exact .inr (.inr ⟨last, asking, by omega⟩)

theorem answers_halve {answers : List RankingEvent} :
    ∀ {projection result : RankingProjection} {session : PlacementSession}, Sound projection →
      Asking session projection session → session.skipped = ∅ →
      (∀ event ∈ answers, event.isAnswer = true ∧ event.isSkip = false) →
      answers.foldlM apply projection = .ok result →
      Completed session result ∧ answers.length ≤ Nat.log2 (session.hi - session.lo) + 1 ∨
        ∃ later, Asking session result later ∧ answers.length ≤ Nat.log2 (session.hi - session.lo) := by
  induction answers with
  | nil =>
    intro projection result session _ asking _ _ run
    cases run
    exact .inr ⟨session, asking, Nat.zero_le _⟩
  | cons event rest ih =>
    intro projection result session sound asking unskipped all run
    rw [List.foldlM_cons, bind_eq_ok] at run
    rcases run with ⟨next, applied, run⟩
    have after := sound.apply applied
    have others := fun other member => all other (List.mem_cons_of_mem event member)
    rcases all event List.mem_cons_self with ⟨answer, decided⟩
    rcases asking.halved sound unskipped answer decided applied with done | ⟨later, asked, none, half⟩
    · rcases answers_nil after (fun other member => (others other member).1) (.inl done.1) run with ⟨rfl, rfl⟩
      exact .inl ⟨done, Nat.le_add_left 1 _⟩
    · have start : Asking later next later := ⟨asked.1, asked.2.1, rfl⟩
      have interval := (after.session later asked.1).open_
      have logs : Nat.log2 (later.hi - later.lo) + 1 ≤ Nat.log2 (session.hi - session.lo) := by
        rw [Nat.le_log2 (by omega), Nat.pow_succ]
        have power := Nat.log2_self_le (n := later.hi - later.lo) (by omega)
        omega
      rw [List.length_cons]
      rcases ih after start none others run with ⟨done, bound⟩ | ⟨last, asking, bound⟩
      · refine .inl ⟨?_, by omega⟩
        unfold Completed at done ⊢
        rw [asked.2.2] at done
        exact done
      · refine .inr ⟨last, ?_, by omega⟩
        unfold Asking at asking ⊢
        rw [asked.2.2] at asking
        exact asking

structure PlacementSound (projection : RankingProjection) (session : PlacementSession) : Prop where
  interval : session.lo < session.hi ∧ session.hi ≤ projection.entries.length
  candidate : session.candidate ∉ projection.books
  skipped : ∀ book ∈ session.skipped, book ∈ projection.books
  asked : session.paused = false ↔ projection.nextOpponent.isSome
  ranked : ∀ opponent, projection.nextOpponent = some opponent →
    ∃ j, projection.books[j]? = some opponent ∧ session.lo ≤ j ∧ j < session.hi

theorem Sound.placement {projection : RankingProjection} (sound : Sound projection) {session : PlacementSession}
    (pending : projection.pending = some session) : PlacementSound projection session := by
  have valid := sound.session session pending
  have within := valid.within
  rw [length_books] at within
  refine ⟨⟨valid.open_, within⟩, valid.fresh, (sound.ready session pending).1, ?_, ?_⟩
  · unfold RankingProjection.nextOpponent
    rw [pending, Option.bind_some, selectOpponent_isSome]
    exact ⟨fun unpaused => ⟨unpaused, (sound.ready session pending).2 unpaused⟩, fun both => both.1⟩
  · intro opponent selected
    exact nextOpponent_position pending selected

/-- A replayed placement is sound, and its answers come to an end: after as many answers as the interval has
books, and after a logarithm of them when nothing is skipped before or meanwhile. -/
theorem placement_progresses {readerId : ReaderId} {events : List RankingEvent} {projection : RankingProjection}
    (replayed : replay readerId events = .ok projection) {session : PlacementSession}
    (pending : projection.pending = some session) :
    PlacementSound projection session ∧
      (session.paused = false → ∀ (answers : List RankingEvent) (result : RankingProjection), (∀ event ∈ answers, event.isAnswer = true) →
        answers.foldlM apply projection = .ok result →
          answers.length ≤ session.hi - session.lo ∧
          (answers.length = session.hi - session.lo → Completed session result ∨ PausedItself session result) ∧
          (session.skipped = ∅ → (∀ event ∈ answers, event.isSkip = false) →
            answers.length ≤ Nat.log2 (session.hi - session.lo) + 1 ∧
            (answers.length = Nat.log2 (session.hi - session.lo) + 1 → Completed session result) ∧
            ¬ PausedItself session result)) := by
  have sound := replay_sound replayed
  refine ⟨sound.placement pending, ?_⟩
  intro unpaused answers result all run
  have asking : Asking session projection session := ⟨pending, unpaused, rfl⟩
  have interval := remaining_le projection.entries session
  rcases answers_spend sound asking all run with ⟨bound, outcome⟩
  refine ⟨bound.trans interval, ?_, ?_⟩
  · intro spent
    rcases outcome with done | paused | ⟨later, asked, less⟩
    · exact .inl done
    · exact .inr paused
    · omega
  · intro unskipped decided
    have both : ∀ event ∈ answers, event.isAnswer = true ∧ event.isSkip = false :=
      fun event member => ⟨all event member, decided event member⟩
    rcases answers_halve sound asking unskipped both run with ⟨done, few⟩ | ⟨later, asked, few⟩
    · refine ⟨few, fun _ => done, ?_⟩
      rintro ⟨later, present, _⟩
      rw [done.1] at present
      cases present
    · refine ⟨by omega, fun all => by omega, ?_⟩
      rintro ⟨last, present, paused, _⟩
      rw [asked.1] at present
      cases present
      rw [asked.2.1] at paused
      cases paused

/-- Two books are ranked, and a third is placed between them without an answer yet. -/
def thirdStarted : List RankingEvent := threeBooks.take 4

theorem placement_progresses_thirdStarted :
    ∃ projection session, replay ⟨⟨9⟩⟩ thirdStarted = .ok projection ∧ projection.pending = some session ∧
      PlacementSound projection session ∧ ∃ result,
        [eventOf ⟨5, by decide⟩ (book 3) (.comparisonAnswered (book 1) .preferOpponent),
          eventOf ⟨6, by decide⟩ (book 3) (.comparisonAnswered (book 2) .preferOpponent)].foldlM apply projection =
            .ok result ∧ Completed session result := by
  have computed : (replay ⟨⟨9⟩⟩ thirdStarted).map (fun projection =>
      projection.pending.map fun session => (session.lo, session.hi, session.paused, session.skipped)) =
        .ok (some (0, 2, false, ∅)) := by
    decide +kernel
  rcases exists_eq_ok (x := replay ⟨⟨9⟩⟩ thirdStarted) (by decide +kernel) with ⟨projection, replayed⟩
  rw [replayed] at computed
  rcases Option.map_eq_some_iff.mp (Except.ok.inj computed) with ⟨session, pending, shape⟩
  have accepted : (thirdStarted ++ [eventOf ⟨5, by decide⟩ (book 3) (.comparisonAnswered (book 1) .preferOpponent),
      eventOf ⟨6, by decide⟩ (book 3) (.comparisonAnswered (book 2) .preferOpponent)]).foldlM apply
        (.empty ⟨⟨9⟩⟩) |>.isOk := by
    decide +kernel
  rcases exists_eq_ok accepted with ⟨result, run⟩
  rw [List.foldlM_append, show thirdStarted.foldlM apply (.empty ⟨⟨9⟩⟩) = .ok projection from replayed, ok_bind] at run
  have progress := placement_progresses replayed pending
  simp only [Prod.mk.injEq] at shape
  refine ⟨projection, session, replayed, pending, progress.1, result, run, ?_⟩
  have answers := progress.2 shape.2.2.1 _ result (by decide) run
  apply (answers.2.2 shape.2.2.2 (by decide)).2.1
  rw [shape.1, shape.2.1]
  rfl

/-- The book in the middle was skipped earlier, and an answer leaves it alone in the interval. -/
theorem narrowed_to_skipped_pauses :
    (replay ⟨⟨9⟩⟩ (thirdStarted ++ [eventOf ⟨5, by decide⟩ (book 3) (.comparisonAnswered (book 1) .skip)])).map
        (fun projection => projection.pending.map fun session => (session.lo, session.hi, session.paused)) =
          .ok (some (0, 2, false)) ∧
      (eventOf ⟨6, by decide⟩ (book 3) (.comparisonAnswered (book 2) .preferCandidate)).isSkip = false ∧
      (replay ⟨⟨9⟩⟩ (thirdStarted ++ [eventOf ⟨5, by decide⟩ (book 3) (.comparisonAnswered (book 1) .skip),
          eventOf ⟨6, by decide⟩ (book 3) (.comparisonAnswered (book 2) .preferCandidate)])).map
        (fun projection => projection.pending.map fun session => (session.lo, session.hi, session.paused)) =
          .ok (some (0, 1, true)) := by
  decide +kernel

end BookSmartz

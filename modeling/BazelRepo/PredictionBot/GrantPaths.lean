import BazelRepo.PredictionBot.DueGrants
import BazelRepo.Library.Schedule
import Mathlib.Data.Int.ModEq

namespace PredictionBot

open Library

def grantAt [Lowercase] (user : UserId) (state : State) (now : Int64) : Except DomainError State := do
  let decision ← decideGrant state systemActor user now
  decision.events.foldlM apply state

def grantEach [Lowercase] (user : UserId) (state : State) (times : List Int64) : Except DomainError State :=
  times.foldlM (grantAt user) state

def Account.periods (account : Account) (policy : Policy) (now : Int64) : Int :=
  boundaries policy.interval.toInt account.nextGrant.toInt now.toInt

structure CaughtUp (policy : Policy) (before : Account) (now : Int64) (after : Account) : Prop where
  balance : after.balance.toInt = before.balance.toInt + policy.amount.toInt * before.periods policy now
  nextGrant : after.nextGrant.toInt = before.nextGrant.toInt + policy.interval.toInt * before.periods policy now

theorem caughtUp_early {policy : Policy} {account : Account} {now : Int64}
    (early : now.toInt < account.nextGrant.toInt) : CaughtUp policy account now account := by
  have none : account.periods policy now = 0 := boundaries_early early
  constructor <;> simp [none]

theorem CaughtUp.ext {policy : Policy} {before a b : Account} {now : Int64} (left : CaughtUp policy before now a)
    (right : CaughtUp policy before now b) : a = b := by
  cases a
  cases b
  have balance := Points.toInt_inj.mp (left.balance.trans right.balance.symm)
  have due := Int64.toInt_inj.mp (left.nextGrant.trans right.nextGrant.symm)
  simp only at balance due
  rw [balance, due]

theorem CaughtUp.trans {policy : Policy} {before middle after : Account} {s t : Int64}
    (positive : 0 < policy.interval.toInt) (ordered : s.toInt ≤ t.toInt) (first : CaughtUp policy before s middle)
    (second : CaughtUp policy middle t after) : CaughtUp policy before t after := by
  have total : before.periods policy t = before.periods policy s + middle.periods policy t := by
    unfold Account.periods
    rw [first.nextGrant]
    exact boundaries_add positive ordered
  constructor
  · rw [second.balance, first.balance, total]
    ring
  · rw [second.nextGrant, first.nextGrant, total]
    ring

theorem CaughtUp.stop {policy : Policy} {before after : Account} {s t : Int64} (amount : 0 < policy.amount.toInt)
    (interval : 0 < policy.interval.toInt) (ordered : s.toInt ≤ t.toInt) (whole : CaughtUp policy before t after) :
    ∃ middle, CaughtUp policy before s middle ∧ CaughtUp policy middle t after := by
  have total : before.periods policy t = before.periods policy s +
      boundaries policy.interval.toInt (before.nextGrant.toInt + policy.interval.toInt * before.periods policy s)
        t.toInt := boundaries_add interval ordered
  have first : 0 ≤ before.periods policy s := boundaries_nonneg interval
  have second : 0 ≤ boundaries policy.interval.toInt
      (before.nextGrant.toInt + policy.interval.toInt * before.periods policy s) t.toInt := boundaries_nonneg interval
  have paid := whole.balance
  have due := whole.nextGrant
  rw [total] at paid due
  have lowBalance := before.balance.val.le_toInt
  have highBalance := after.balance.val.toInt_lt
  have lowDue := before.nextGrant.le_toInt
  have highDue := after.nextGrant.toInt_lt
  have firstPaid : 0 ≤ policy.amount.toInt * before.periods policy s := by positivity
  have firstDue : 0 ≤ policy.interval.toInt * before.periods policy s := by positivity
  have rest := mul_nonneg (Int.le_of_lt amount) second
  have later := mul_nonneg (Int.le_of_lt interval) second
  rw [mul_add] at paid due
  rcases tryFrom_of_bounds (i := before.balance.toInt + policy.amount.toInt * before.periods policy s)
    (by unfold Points.toInt at *; omega) (by unfold Points.toInt at *; omega) with ⟨balance, _, held⟩
  rcases tryFrom_of_bounds (i := before.nextGrant.toInt + policy.interval.toInt * before.periods policy s)
    (by omega) (by omega) with ⟨boundary, _, reached⟩
  have stopped : CaughtUp policy before s ⟨⟨balance⟩, boundary⟩ := ⟨held, reached⟩
  have left : Account.periods ⟨⟨balance⟩, boundary⟩ policy t = boundaries policy.interval.toInt
      (before.nextGrant.toInt + policy.interval.toInt * before.periods policy s) t.toInt := by
    rw [← reached]
    rfl
  refine ⟨⟨⟨balance⟩, boundary⟩, stopped, ?_, ?_⟩
  · rw [paid, stopped.balance, left, add_assoc]
  · rw [due, stopped.nextGrant, left, add_assoc]

theorem positivePolicy_eq_ok {policy : Policy} :
    positivePolicy policy = .ok () ↔ 0 < policy.amount.toInt ∧ 0 < policy.interval.toInt := by
  unfold positivePolicy
  rw [reject_eq_ok, not_or, Points.nonpos_iff, Int64.le_iff_toInt_le]
  simp

section Member

variable [Lowercase] {state result : State} {user : UserId} {policy : Policy} {account : Account} {now : Int64}

theorem grantAt_inv (configured : state.policy = some policy) (found : state.accounts[user]? = some account)
    (granted : grantAt user state now = .ok result) :
    0 < policy.amount.toInt ∧ 0 < policy.interval.toInt ∧ result.policy = some policy ∧
      ∃ after, result.accounts[user]? = some after ∧ CaughtUp policy account now after ∧
        (account.nextGrant.toInt ≤ now.toInt →
          policy.interval.toInt * ((now.toInt - account.nextGrant.toInt) / policy.interval.toInt) < 2^63) := by
  unfold grantAt decideGrant at granted
  simp only [bind_eq_ok, configured, found, okOr_some, Except.ok.injEq, exists_eq_left', reject_eq_ok] at granted
  rcases granted with ⟨decision, ⟨_, _, checked, decided⟩, applied⟩
  rcases positivePolicy_eq_ok.mp checked with ⟨amountPositive, intervalPositive⟩
  refine ⟨amountPositive, intervalPositive, ?_⟩
  split at decided
  · rename_i early
    rw [Int64.lt_iff_toInt_lt] at early
    rw [(finish_eq_ok decided).1] at applied
    cases applied
    exact ⟨configured, account, found, caughtUp_early early, by omega⟩
  · rename_i due
    rw [Int64.lt_iff_toInt_lt, not_lt] at due
    simp only [bind_eq_ok, okOr_eq_ok] at decided
    rcases decided with ⟨count, counted, amount, total, elapsed, spanned, throughDue, reached, nextGrant, followed,
      decided⟩
    rw [(finish_eq_ok decided).1, List.foldlM_cons, bind_eq_ok] at applied
    rcases applied with ⟨middle, first, rest⟩
    cases rest
    rcases applyGrant_inv first with ⟨_, member, balance, _, present, _, added, rfl⟩
    rw [found] at present
    cases present
    have number := tryFrom_eq_some.mp counted
    have product := checkedMul_eq_some.mp (okOr_eq_ok.mp total)
    have span := checkedMul_eq_some.mp (okOr_eq_ok.mp spanned)
    have through := checkedAdd_eq_some.mp (okOr_eq_ok.mp reached)
    have following := checkedAdd_eq_some.mp (okOr_eq_ok.mp followed)
    rw [Int.tdiv_eq_ediv_of_nonneg (by omega)] at number
    have periods : account.periods policy now = count.toInt := by
      rw [number]
      exact boundaries_due due
    have quotient : 0 ≤ (now.toInt - account.nextGrant.toInt) / policy.interval.toInt :=
      Int.ediv_nonneg (by omega) (by omega)
    have before : (count - 1).toInt = count.toInt - 1 :=
      toInt_sub_of_bounds (by decide) (by
        have one : (1 : Int64).toInt = 1 := rfl
        omega)
    rw [before] at span
    refine ⟨configured, ⟨balance, nextGrant⟩, ?_, ⟨?_, ?_⟩, ?_⟩
    · rw [BTreeMap.getElem?_insert_eq, if_pos rfl]
    · rw [periods, added]
      exact congrArg _ product
    · rw [periods, following, through, span]
      ring
    · intro _
      have bound := elapsed.toInt_lt
      rw [span, number, Int.add_sub_cancel] at bound
      exact bound

theorem grantAt_ok (configured : state.policy = some policy) (found : state.accounts[user]? = some account)
    (amountPositive : 0 < policy.amount.toInt) (intervalPositive : 0 < policy.interval.toInt)
    (solvent : 0 ≤ account.balance.toInt) {after : Account} (caught : CaughtUp policy account now after)
    (span : account.nextGrant.toInt ≤ now.toInt →
      policy.interval.toInt * ((now.toInt - account.nextGrant.toInt) / policy.interval.toInt) < 2^63) :
    ∃ result, grantAt user state now = .ok result := by
  unfold grantAt decideGrant
  simp only [configured, found, positivePolicy_eq_ok.mpr ⟨amountPositive, intervalPositive⟩, okOr_some, ok_bind]
  by_cases early : now < account.nextGrant
  · rw [if_neg (by decide), if_pos early]
    exact ⟨state, rfl⟩
  · have due : account.nextGrant.toInt ≤ now.toInt := by
      rw [Int64.lt_iff_toInt_lt] at early
      omega
    rw [if_neg (by decide), if_neg early, Int.tdiv_eq_ediv_of_nonneg (by omega)]
    have quotient : 0 ≤ (now.toInt - account.nextGrant.toInt) / policy.interval.toInt :=
      Int.ediv_nonneg (by omega) (by omega)
    have below : policy.interval.toInt * ((now.toInt - account.nextGrant.toInt) / policy.interval.toInt) ≤
        now.toInt - account.nextGrant.toInt := Int.mul_ediv_self_le (by omega)
    have periods : account.periods policy now = (now.toInt - account.nextGrant.toInt) / policy.interval.toInt + 1 :=
      boundaries_due due
    have paid := caught.balance
    have next := caught.nextGrant
    rw [periods] at paid next
    have limit := span due
    generalize (now.toInt - account.nextGrant.toInt) / policy.interval.toInt = elapsed at *
    have most := after.balance.val.toInt_lt
    -- Every number on the way is bounded by the balance paid in the end or by the time.
    have enough : elapsed + 1 ≤ policy.amount.val.toInt * (elapsed + 1) := by
      have amount : 1 ≤ policy.amount.val.toInt := amountPositive
      nlinarith
    have total : policy.amount.val.toInt * (elapsed + 1) < 2^63 := by
      have sum : after.balance.val.toInt = account.balance.val.toInt + policy.amount.val.toInt * (elapsed + 1) := paid
      have start : 0 ≤ account.balance.val.toInt := solvent
      omega
    have spanned : 0 ≤ policy.interval.toInt * elapsed := by positivity
    have earliest := account.nextGrant.le_toInt
    have latest := now.toInt_lt
    rcases tryFrom_of_bounds (i := elapsed + 1) (by omega) (by omega) with ⟨count, counted, number⟩
    rcases tryFrom_of_bounds (i := policy.amount.val.toInt * count.toInt)
      (by rw [number]; omega) (by rw [number]; exact total) with ⟨amount, paying, product⟩
    have before : (count - 1).toInt = count.toInt - 1 :=
      toInt_sub_of_bounds (by decide) (by
        have one : (1 : Int64).toInt = 1 := rfl
        omega)
    rcases tryFrom_of_bounds (i := policy.interval.toInt * (count - 1).toInt)
      (by rw [before, number, Int.add_sub_cancel]; omega) (by rw [before, number, Int.add_sub_cancel]; exact limit)
      with ⟨width, spanning, length⟩
    have long : width.toInt = policy.interval.toInt * elapsed := by rw [length, before, number, Int.add_sub_cancel]
    rcases tryFrom_of_bounds (i := account.nextGrant.toInt + width.toInt) (by omega) (by omega) with
      ⟨throughDue, reaching, through⟩
    have follows : throughDue.toInt + policy.interval.toInt = after.nextGrant.toInt := by
      rw [through, long, next]
      ring
    rcases tryFrom_of_bounds (i := throughDue.toInt + policy.interval.toInt)
      (by rw [follows]; exact after.nextGrant.le_toInt) (by rw [follows]; exact after.nextGrant.toInt_lt) with
      ⟨nextGrant, following, boundary⟩
    have summed : checkedPointsAdd account.balance ⟨amount⟩ = .ok after.balance := by
      rw [checkedPointsAdd_eq_ok, paid]
      show account.balance.toInt + policy.amount.val.toInt * (elapsed + 1) = account.balance.toInt + amount.toInt
      rw [product, number]
    have applied := applyGrant_eq configured amountPositive intervalPositive found (by omega) product
      (by rw [through, length, before]) boundary
    rw [summed] at applied
    have paysOut : checkedMul policy.amount.val count = .ok amount := okOr_eq_ok.mpr paying
    have spans : checkedMul policy.interval (count - 1) = .ok width := okOr_eq_ok.mpr spanning
    have reaches : checkedAdd account.nextGrant width = .ok throughDue := okOr_eq_ok.mpr reaching
    have goesOn : checkedAdd throughDue policy.interval = .ok nextGrant := okOr_eq_ok.mpr following
    rw [Except.map] at applied
    simp only [counted, okOr_some, ok_bind, paysOut, spans, reaches, goesOn, finish, List.foldlM_cons, List.foldlM_nil,
      applyInner, applied, bind_pure]
    exact ⟨_, applied⟩

theorem grantEach_caughtUp {times : List Int64} (ordered : ∀ t ∈ times, t ≤ now)
    (configured : state.policy = some policy) (found : state.accounts[user]? = some account)
    (granted : grantEach user state (times ++ [now]) = .ok result) :
    0 < policy.amount.toInt ∧ 0 < policy.interval.toInt ∧
      ∃ after, result.accounts[user]? = some after ∧ CaughtUp policy account now after := by
  induction times generalizing state account with
  | nil =>
    rw [List.nil_append, grantEach, List.foldlM_cons, bind_eq_ok] at granted
    rcases granted with ⟨_, single, rest⟩
    cases rest
    rcases grantAt_inv configured found single with ⟨amount, interval, _, after, held, caught, _⟩
    exact ⟨amount, interval, after, held, caught⟩
  | cons t rest ih =>
    rw [List.cons_append, grantEach, List.foldlM_cons, bind_eq_ok] at granted
    rcases granted with ⟨middle, first, others⟩
    rcases grantAt_inv configured found first with ⟨amount, interval, still, stop, held, reached, _⟩
    rcases ih (fun u member => ordered u (List.mem_cons_of_mem _ member)) still held others with
      ⟨_, _, after, kept, caught⟩
    have earlier : t.toInt ≤ now.toInt := Int64.le_iff_toInt_le.mp (ordered t List.mem_cons_self)
    exact ⟨amount, interval, after, kept, reached.trans interval earlier caught⟩

/-- Where the single grant at the last time is accepted, so are the grants on the way to it. -/
theorem grantEach_ok {times : List Int64} (sorted : (times ++ [now]).Pairwise (· ≤ ·))
    (configured : state.policy = some policy) (found : state.accounts[user]? = some account)
    (solvent : 0 ≤ account.balance.toInt) (granted : ∃ result, grantAt user state now = .ok result) :
    ∃ result, grantEach user state (times ++ [now]) = .ok result := by
  induction times generalizing state account with
  | nil =>
    rcases granted with ⟨result, single⟩
    exact ⟨result, by rw [List.nil_append, grantEach, List.foldlM_cons, single]; rfl⟩
  | cons t rest ih =>
    rcases granted with ⟨result, single⟩
    rcases grantAt_inv configured found single with ⟨amount, interval, _, after, _, caught, span⟩
    rw [List.cons_append, List.pairwise_cons] at sorted
    have earlier : t.toInt ≤ now.toInt := Int64.le_iff_toInt_le.mp (sorted.1 now (by simp))
    rcases caught.stop amount interval earlier with ⟨stop, reached, remaining⟩
    have closer : account.nextGrant.toInt ≤ t.toInt →
        policy.interval.toInt * ((t.toInt - account.nextGrant.toInt) / policy.interval.toInt) < 2^63 := by
      intro due
      have limit := span (by omega)
      have fewer : (t.toInt - account.nextGrant.toInt) / policy.interval.toInt ≤
          (now.toInt - account.nextGrant.toInt) / policy.interval.toInt := Int.ediv_le_ediv interval (by omega)
      nlinarith
    rcases grantAt_ok configured found amount interval solvent reached closer with ⟨middle, first⟩
    rcases grantAt_inv configured found first with ⟨_, _, still, held, present, same, _⟩
    cases same.ext reached
    have forward : 0 ≤ policy.interval.toInt * account.periods policy t :=
      mul_nonneg (Int.le_of_lt interval) (boundaries_nonneg interval)
    have enriched : 0 ≤ policy.amount.toInt * account.periods policy t :=
      mul_nonneg (Int.le_of_lt amount) (boundaries_nonneg interval)
    have paid := reached.balance
    have moved := reached.nextGrant
    have next : ∃ result, grantAt user middle now = .ok result := by
      apply grantAt_ok still present amount interval (by omega) remaining
      intro due
      have limit := span (by omega)
      have fewer : (now.toInt - stop.nextGrant.toInt) / policy.interval.toInt ≤
          (now.toInt - account.nextGrant.toInt) / policy.interval.toInt := Int.ediv_le_ediv interval (by omega)
      nlinarith
    rcases ih sorted.2 still present (by omega) next with ⟨final, others⟩
    exact ⟨final, by rw [List.cons_append, grantEach, List.foldlM_cons, first]; exact others⟩

end Member

theorem applyGrant_aligned {state result : State} {userId : UserId} {reason : GrantReason} {amount : Points}
    {fromDue throughDue nextGrant : Int64}
    (applied : applyGrant state userId reason amount fromDue throughDue nextGrant = .ok result) :
    ∃ policy, state.policy = some policy ∧ nextGrant.toInt ≡ fromDue.toInt [ZMOD policy.interval.toInt] := by
  unfold applyGrant at applied
  simp only [bind_eq_ok, reject_eq_ok, okOr_eq_ok, Except.ok.injEq, not_not, ne_eq] at applied
  rcases applied with ⟨policy, configured, _, _, _, _, _, aligned, _, _, _, _, _, _, following, added, rfl, _⟩
  have sum := checkedAdd_eq_some.mp (okOr_eq_ok.mp added)
  refine ⟨policy, configured, ?_⟩
  rw [sum]
  have whole : policy.interval.toInt ∣ throughDue.toInt - fromDue.toInt := Int.dvd_of_tmod_eq_zero aligned
  have same : fromDue.toInt ≡ throughDue.toInt [ZMOD policy.interval.toInt] := Int.modEq_iff_dvd.mpr whole
  exact (Int.add_modEq_right).trans same.symm

/-- Whoever has a boundary enrolled once, and it lies whole intervals from the time of that. -/
structure Aligned (done : List Event) (state : State) : Prop where
  enrolled : ∀ user, (∃ due, state.due user = some due) ↔ ∃ enrolledAt, .memberEnrolled user enrolledAt ∈ done
  congruent : ∀ user due enrolledAt, state.due user = some due → .memberEnrolled user enrolledAt ∈ done →
    ∃ policy, state.policy = some policy ∧ due.toInt ≡ enrolledAt.toInt [ZMOD policy.interval.toInt]

theorem Aligned.policy [Lowercase] {done : List Event} {state result : State} {event : Event}
    (aligned : Aligned done state) (applied : applyInner state event = .ok result) {user : UserId}
    {enrolledAt : Int64} (member : .memberEnrolled user enrolledAt ∈ done) :
    result.policy = state.policy := by
  rcases applyInner_policy applied with same | ⟨fresh, _⟩
  · exact same
  · rcases (aligned.enrolled user).mpr ⟨enrolledAt, member⟩ with ⟨due, scheduled⟩
    rcases aligned.congruent user due enrolledAt scheduled member with ⟨policy, configured, _⟩
    rw [fresh] at configured
    cases configured

/-- An event that enrols nobody and moves only boundaries there are, by whole intervals, keeps the alignment. -/
theorem Aligned.keep [Lowercase] {done : List Event} {state result : State} {event : Event}
    (aligned : Aligned done state) (applied : PredictionBot.applyInner state event = .ok result)
    (enrolsNobody : ∀ user enrolledAt, event ≠ .memberEnrolled user enrolledAt)
    (moves : ∀ user, result.due user = state.due user ∨ ∃ policy before after, state.policy = some policy ∧
      state.due user = some before ∧ result.due user = some after ∧
        after.toInt ≡ before.toInt [ZMOD policy.interval.toInt]) : Aligned (done ++ [event]) result := by
  have enrolments : ∀ user enrolledAt,
      .memberEnrolled user enrolledAt ∈ done ++ [event] ↔ .memberEnrolled user enrolledAt ∈ done := by
    intro user enrolledAt
    rw [List.mem_append, List.mem_singleton, or_iff_left fun same => enrolsNobody user enrolledAt same.symm]
  constructor
  · intro user
    have before := aligned.enrolled user
    simp only [enrolments]
    rw [← before]
    rcases moves user with same | ⟨_, earlier, later, _, scheduled, moved, _⟩
    · rw [same]
    · rw [scheduled, moved]
      simp
  · intro user due enrolledAt scheduled member
    rw [enrolments] at member
    rw [aligned.policy applied member]
    rcases moves user with same | ⟨policy, earlier, later, configured, before, moved, near⟩
    · exact aligned.congruent user due enrolledAt (same.symm.trans scheduled) member
    · rcases aligned.congruent user earlier enrolledAt before member with ⟨current, found, congruent⟩
      rw [configured] at found
      cases found
      rw [moved] at scheduled
      cases scheduled
      exact ⟨policy, configured, near.trans congruent⟩

theorem Aligned.applyInner [Lowercase] {done : List Event} {state result : State} {event : Event}
    (aligned : Aligned done state) (applied : applyInner state event = .ok result) :
    Aligned (done ++ [event]) result := by
  have moved := applyInner_due applied
  cases event with
  | memberEnrolled userId enrolledAt =>
    rcases applyEnrollment_inv applied with ⟨_, configured, absent, _⟩
    rcases Option.ne_none_iff_exists'.mp configured with ⟨policy, found⟩
    have unscheduled : ¬ ∃ due, state.due userId = some due := by
      rw [State.due, absent]
      simp
    rw [aligned.enrolled] at unscheduled
    have fixed : result.policy = some policy := by
      rcases applyInner_policy applied with same | ⟨fresh, _⟩
      · exact same.trans found
      · exact absurd fresh configured
    constructor
    · intro user
      rw [moved user]
      by_cases same : user = userId
      · subst same
        simp [Event.reschedules]
      · have others := aligned.enrolled user
        simp only [Event.reschedules, List.mem_append, List.mem_singleton, Event.memberEnrolled.injEq, same, if_false,
          false_and, or_false]
        exact others
    · intro user due at_ scheduled member
      rw [moved user] at scheduled
      simp only [List.mem_append, List.mem_singleton, Event.memberEnrolled.injEq] at member
      by_cases same : user = userId
      · subst same
        simp only [Event.reschedules, if_true, Option.some.injEq] at scheduled
        rcases member with earlier | ⟨_, rfl⟩
        · exact absurd ⟨at_, earlier⟩ unscheduled
        · exact ⟨policy, fixed, by rw [scheduled]⟩
      · simp only [Event.reschedules, if_neg same] at scheduled
        rcases member with earlier | ⟨mine, _⟩
        · rw [aligned.policy applied earlier]
          exact aligned.congruent user due at_ scheduled earlier
        · exact absurd mine same
  | pointsGranted userId reason amount fromDue throughDue nextGrant =>
    apply aligned.keep applied (by simp)
    intro user
    rw [moved user]
    by_cases same : user = userId
    · subst same
      rcases applyGrant_aligned applied with ⟨policy, configured, congruent⟩
      exact .inr ⟨policy, fromDue, nextGrant, configured, (applyGrant_schedule applied).1, if_pos rfl, congruent⟩
    · exact .inl (if_neg same)
  | _ => exact aligned.keep applied (by simp) fun user => .inl (moved user)

theorem replay_aligned [Lowercase] {events : List Event} {state : State} (replayed : replay events = .ok state) :
    Aligned events state := by
  have initial : Aligned [] {} := by
    constructor
    · intro user
      simp [State.due]
    · intro user due enrolledAt scheduled
      simp [State.due] at scheduled
  have kept := foldlM_prefix (P := Aligned) initial
    (fun done event rest s s' (_ : events = done ++ event :: rest) holds applied => holds.applyInner applied)
  exact kept.1 state replayed

/-- Grants at several times lead where the one at the last time leads, and fail only where it fails, as long as
the span paid at once fits 64 bits; a grant leaves the boundary within an interval past its time; and a boundary
is always whole intervals from the enrolment. -/
theorem grants_are_path_independent [Lowercase] :
    (∀ (state : State) (user : UserId) (policy : Policy) (account : Account) (times : List Int64) (now : Int64),
      state.policy = some policy → state.accounts[user]? = some account → (times ++ [now]).Pairwise (· ≤ ·) →
        (∀ once several, grantAt user state now = .ok once → grantEach user state (times ++ [now]) = .ok several →
          several.accounts[user]? = once.accounts[user]?) ∧
        (0 ≤ account.balance.toInt →
          (account.nextGrant.toInt ≤ now.toInt →
            policy.interval.toInt * ((now.toInt - account.nextGrant.toInt) / policy.interval.toInt) < 2^63) →
          ((∃ several, grantEach user state (times ++ [now]) = .ok several) ↔
            ∃ once, grantAt user state now = .ok once))) ∧
      (∀ (state result : State) (user : UserId) (policy : Policy) (account : Account) (now : Int64),
        state.policy = some policy → state.accounts[user]? = some account → account.nextGrant ≤ now →
          grantAt user state now = .ok result →
            ∃ after, result.accounts[user]? = some after ∧ now.toInt < after.nextGrant.toInt ∧
              after.nextGrant.toInt - policy.interval.toInt ≤ now.toInt) ∧
      ∀ (events : List Event) (state : State) (user : UserId) (account : Account),
        replay events = .ok state → state.accounts[user]? = some account →
          ∃ policy enrolledAt, state.policy = some policy ∧ .memberEnrolled user enrolledAt ∈ events ∧
            ∀ enrolledAt, .memberEnrolled user enrolledAt ∈ events →
              account.nextGrant.toInt ≡ enrolledAt.toInt [ZMOD policy.interval.toInt] := by
  refine ⟨?_, ?_, ?_⟩
  · intro state user policy account times now configured found sorted
    have last : ∀ t ∈ times, t ≤ now := by
      intro t member
      exact (List.pairwise_append.mp sorted).2.2 t member now List.mem_cons_self
    constructor
    · intro once several single each
      rcases grantAt_inv configured found single with ⟨_, _, _, after, held, caught, _⟩
      rcases grantEach_caughtUp last configured found each with ⟨_, _, final, kept, reached⟩
      rw [held, kept, caught.ext reached]
    · intro solvent span
      constructor
      · rintro ⟨several, each⟩
        rcases grantEach_caughtUp last configured found each with ⟨amount, interval, final, _, reached⟩
        exact grantAt_ok configured found amount interval solvent reached span
      · exact grantEach_ok sorted configured found solvent
  · intro state result user policy account now configured found due granted
    rcases grantAt_inv configured found granted with ⟨_, interval, _, after, held, caught, _⟩
    have bounds := boundaries_bounds interval (Int64.le_iff_toInt_le.mp due)
    have reached := caught.nextGrant
    rw [Account.periods] at reached
    exact ⟨after, held, by omega, by omega⟩
  · intro events state user account replayed found
    have aligned := replay_aligned replayed
    have scheduled : state.due user = some account.nextGrant := by rw [State.due, found, Option.map_some]
    rcases (aligned.enrolled user).mp ⟨_, scheduled⟩ with ⟨enrolledAt, member⟩
    rcases aligned.congruent user _ enrolledAt scheduled member with ⟨policy, configured, _⟩
    refine ⟨policy, enrolledAt, configured, member, ?_⟩
    intro other enrolment
    rcases aligned.congruent user _ other scheduled enrolment with ⟨current, same, congruent⟩
    rw [configured] at same
    cases same
    exact congruent

/-- The last grant of a long absence, and a stop on the way, 2^61 seconds apart. -/
def absentMember : State where
  policy := some ⟨⟨1⟩, 2^61⟩
  accounts := (∅ : BTreeMap UserId Account).insert ⟨7⟩ ⟨⟨0⟩, -2^63⟩

/-- The product of the interval and the periods of a whole absence does not fit where those of its parts do. -/
theorem long_absence_overflows :
    letI : Lowercase := asciiLowercase
    (grantEach ⟨7⟩ absentMember [-2^62, 2^62]).isOk = true ∧ (grantAt ⟨7⟩ absentMember (2^62)).isOk = false := by
  decide +kernel

end PredictionBot

import BazelRepo.Library.Apportionment
import BazelRepo.Predix.Contest
import Mathlib.Algebra.Order.Floor.Ring
import Mathlib.Tactic.Positivity

namespace Predix

open Library

def staking (total : Int64) (predictions : List Prediction) : Int64 :=
  predictions.foldl (fun total pred => total + pred.clout) total

def staked (predictions : List Prediction) : Int :=
  (predictions.map fun pred => pred.clout.toInt).sum

@[simp] theorem staked_cons (pred : Prediction) (rest : List Prediction) :
    staked (pred :: rest) = pred.clout.toInt + staked rest := by
  simp [staked]

theorem staked_nonneg {predictions : List Prediction} (stakes : ∀ pred ∈ predictions, 0 < pred.clout.toInt) :
    0 ≤ staked predictions := by
  apply List.sum_nonneg
  intro stake member
  rcases List.mem_map.mp member with ⟨pred, present, rfl⟩
  exact (stakes pred present).le

theorem staking_toInt {predictions : List Prediction} (stakes : ∀ pred ∈ predictions, 0 < pred.clout.toInt)
    (bound : staked predictions < 2^63) : (staking 0 predictions).toInt = staked predictions := by
  have amounts : predictions.map (fun pred => pred.clout.toInt) = (predictions.map Prediction.clout).map Int64.toInt := by
    rw [List.map_map]
    rfl
  have counted : ((predictions.map Prediction.clout).foldl (· + ·) 0).toInt =
      (0 : Int64).toInt + ((predictions.map Prediction.clout).map Int64.toInt).sum := by
    apply foldl_add_toInt
    · intro stake member
      rcases List.mem_map.mp member with ⟨pred, present, rfl⟩
      exact (stakes pred present).le
    · decide
    · rw [Int64.toInt_zero, zero_add, ← amounts]
      exact bound
  rw [Int64.toInt_zero, zero_add, ← amounts, List.foldl_map] at counted
  exact counted

theorem truncated_toInt {amount : ℚ} (nonneg : 0 ≤ amount) (bound : amount < 2^63) :
    (truncated amount).toInt = ⌊amount⌋ := by
  have lower : (0 : Int) ≤ ⌊amount⌋ := Int.floor_nonneg.mpr nonneg
  have upper : ⌊amount⌋ < 2^63 := by
    apply Int.floor_lt.mpr
    exact_mod_cast bound
  rw [truncated, if_pos nonneg, Int64.toInt_ofInt]
  exact bmod_of_bounds (by omega) upper

namespace Contest

def winning (c : Contest) (result : Int64) : List Prediction :=
  c.predictions.filter fun pred => pred.optionId = result

def losing (c : Contest) (result : Int64) : List Prediction :=
  c.predictions.filter fun pred => pred.optionId ≠ result

theorem staked_split (c : Contest) (result : Int64) :
    staked c.predictions = staked (c.winning result) + staked (c.losing result) := by
  unfold winning losing
  induction c.predictions with
  | nil => rfl
  | cons pred rest ih =>
    by_cases wins : pred.optionId = result
    · simp [wins, ih]
      ring
    · simp [wins, ih]
      ring

/-- The stake the loops count for the winners, and what is left to the others. -/
def winningStake (c : Contest) (result : Int64) : Int64 := staking 0 (c.winning result)

def losingStake (c : Contest) (result : Int64) : Int64 := c.calculatePot - c.winningStake result

def distributable (c : Contest) (result : Int64) : Int64 :=
  truncated ((c.losingStake result).toInt * (1 - c.houseRake))

def shareOf (c : Contest) (result : Int64) (pred : Prediction) : Int64 :=
  if 0 < c.winningStake result then pred.clout * c.distributable result / c.winningStake result else 0

def winnerRecord (c : Contest) (result : Int64) (pred : Prediction) : PayoutRecord where
  userId := pred.userId
  originalStake := pred.clout
  shareOfPot := c.shareOf result pred
  totalPayout := pred.clout + c.shareOf result pred

def loserRecord (pred : Prediction) : PayoutRecord where
  userId := pred.userId
  originalStake := pred.clout
  shareOfPot := 0
  totalPayout := 0

/-! The separately written loops compute the same amounts. -/

theorem foldl_stakes (result : Int64) (wins : Prediction → Prop) [DecidablePred wins]
    (same : ∀ pred, wins pred ↔ pred.optionId = result) : ∀ (predictions : List Prediction) (pot stake : Int64),
      predictions.foldl (fun (totalPot, winningStake) pred =>
          (totalPot + pred.clout, if wins pred then winningStake + pred.clout else winningStake)) (pot, stake) =
        (staking pot predictions, staking stake (predictions.filter fun pred => pred.optionId = result)) := by
  intro predictions
  induction predictions with
  | nil =>
    intro pot stake
    rfl
  | cons pred rest ih =>
    intro pot stake
    rw [List.foldl_cons, ih]
    by_cases won : pred.optionId = result
    · simp [staking, (same pred).mpr won, won]
    · have lost : ¬ wins pred := fun claimed => won ((same pred).mp claimed)
      simp [staking, lost, won]

theorem foldl_winning (result : Int64) : ∀ (predictions : List Prediction) (tally : Winning),
    predictions.foldl (Winning.gather result) tally =
      { winningPredictions :=
          tally.winningPredictions ++ predictions.filter fun pred => pred.optionId = result
        totalWinningClout :=
          staking tally.totalWinningClout (predictions.filter fun pred => pred.optionId = result)
        totalPot := staking tally.totalPot predictions } := by
  intro predictions
  induction predictions with
  | nil =>
    intro tally
    simp [staking]
  | cons pred rest ih =>
    intro tally
    rw [List.foldl_cons, ih]
    by_cases won : pred.optionId = result <;> simp [Winning.gather, staking, won]

theorem foldl_sides (result : Int64) : ∀ (predictions : List Prediction) (sides : Sides),
    predictions.foldl (Sides.gather result) sides =
      { winningPredictions :=
          sides.winningPredictions ++ predictions.filter fun pred => pred.optionId = result
        losingPredictions :=
          sides.losingPredictions ++ predictions.filter fun pred => pred.optionId ≠ result
        totalWinningClout :=
          staking sides.totalWinningClout (predictions.filter fun pred => pred.optionId = result)
        totalPot := staking sides.totalPot predictions } := by
  intro predictions
  induction predictions with
  | nil =>
    intro sides
    simp [staking]
  | cons pred rest ih =>
    intro sides
    rw [List.foldl_cons, ih]
    by_cases won : pred.optionId = result <;> simp [Sides.gather, staking, won]

variable {c : Contest} {result : Int64}

theorem calculateHouseRakeClout_eq (resolved : c.resultOptionId = some result) :
    c.calculateHouseRakeClout = truncated ((c.losingStake result).toInt * c.houseRake) := by
  simp only [calculateHouseRakeClout, resolved,
    foldl_stakes result (fun pred => pred.optionId = result) (fun _ => Iff.rfl)]
  rfl

theorem calculateWinnerPayouts_eq (resolved : c.resultOptionId = some result) :
    c.calculateWinnerPayouts = .ok (((c.winning result).map (c.winnerRecord result)).foldl
      (fun payouts r => credit payouts r.userId r.totalPayout) ∅) := by
  rw [List.foldl_map]
  simp only [calculateWinnerPayouts, resolved, foldl_winning, List.nil_append]
  by_cases nobody : (c.winning result).isEmpty
  · have none := List.isEmpty_iff.mp nobody
    unfold winning at none nobody
    rw [if_pos nobody]
    simp [winning, none]
  · unfold winning at nobody
    rw [if_neg nobody]
    congr 2
    funext payouts pred
    unfold winnerRecord shareOf
    by_cases staked : 0 < c.winningStake result
    · rw [if_pos staked]
      unfold winningStake winning at staked
      rw [if_pos staked]
      rfl
    · rw [if_neg staked, Int64.add_zero]
      unfold winningStake winning at staked
      rw [if_neg staked]

theorem calculatePayoutBreakdown_eq (resolved : c.resultOptionId = some result) :
    c.calculatePayoutBreakdown =
      .ok ((c.winning result).map (c.winnerRecord result), (c.losing result).map loserRecord) := by
  simp only [calculatePayoutBreakdown, resolved, foldl_sides, List.nil_append]
  rfl

theorem getPayoutBreakdown_eq (resolved : c.resultOptionId = some result) (status : c.status = .statusResolved)
    (findById : UserId → Option String) :
    getPayoutBreakdown findById c = .ok {
      winners := ((c.winning result).map (c.winnerRecord result)).map (named findById)
      losers := ((c.losing result).map loserRecord).map (named findById)
      totalPot := c.calculatePot
      houseRake := c.calculateHouseRakeClout
      distributablePot := c.calculateRemainingPot
      totalDistributed := (c.winning result).foldl (fun total pred => total + (c.winnerRecord result pred).totalPayout) 0 } := by
  have same : ∀ pred : Prediction, c.resultOptionId = some pred.optionId ↔ pred.optionId = result := by
    intro pred
    rw [resolved, Option.some.injEq]
    exact eq_comm
  simp only [getPayoutBreakdown, status, ne_eq, not_true_eq_false, if_false, calculatePayoutBreakdown_eq resolved,
    ok_bind, foldl_stakes result _ same, List.foldl_map, calculateRemainingPot, calculateHouseRakeClout_eq resolved]
  rfl

end Contest

/-! The two accounts of the payouts agree, whatever the amounts are. -/

theorem credit_get (payouts : BTreeMap UserId Int64) (user other : UserId) (amount : Int64) :
    (credit payouts user amount)[other]?.getD 0 =
      if other = user then payouts[other]?.getD 0 + amount else payouts[other]?.getD 0 := by
  rw [credit, BTreeMap.getElem?_insert_eq]
  by_cases same : other = user
  · subst same
    simp
  · simp [same]

theorem foldl_credit_get (user : UserId) : ∀ (records : List PayoutRecord) (payouts : BTreeMap UserId Int64),
    (records.foldl (fun payouts r => credit payouts r.userId r.totalPayout) payouts)[user]?.getD 0 =
      ((records.filter fun r => r.userId = user).map (·.totalPayout)).foldl (· + ·) (payouts[user]?.getD 0) := by
  intro records
  induction records with
  | nil =>
    intro payouts
    rfl
  | cons r rest ih =>
    intro payouts
    rw [List.foldl_cons, ih, credit_get]
    by_cases theirs : r.userId = user
    · simp [theirs]
    · simp [theirs, Ne.symm theirs]

theorem foldl_credit_mem (user : UserId) : ∀ (records : List PayoutRecord) (payouts : BTreeMap UserId Int64),
    user ∈ records.foldl (fun payouts r => credit payouts r.userId r.totalPayout) payouts ↔
      user ∈ payouts ∨ ∃ r ∈ records, r.userId = user := by
  intro records
  induction records with
  | nil =>
    intro payouts
    simp
  | cons r rest ih =>
    intro payouts
    rw [List.foldl_cons, ih, credit, Std.ExtTreeMap.mem_insert, Std.LawfulEqOrd.compare_eq_iff_eq]
    simp only [List.mem_cons, exists_eq_or_imp]
    tauto

def paidOut (payouts : BTreeMap UserId Int64) : Int :=
  BTreeMap.total (fun _ paid => Int64.toInt paid) payouts

def Solvent (payouts : BTreeMap UserId Int64) : Prop :=
  ∀ (user : UserId) (paid : Int64), payouts[user]? = some paid → 0 ≤ paid.toInt

theorem total_credit {payouts : BTreeMap UserId Int64} {user : UserId} {amount : Int64}
    (held : Solvent payouts) (gain : 0 ≤ amount.toInt)
    (bound : paidOut payouts + amount.toInt < 2^63) :
    paidOut (credit payouts user amount) =
        paidOut payouts + amount.toInt ∧
      Solvent (credit payouts user amount) := by
  have before : 0 ≤ (payouts[user]?.getD 0).toInt ∧
      (payouts[user]?.getD 0).toInt ≤ paidOut payouts ∧
      payouts[user]?.elim 0 Int64.toInt = (payouts[user]?.getD 0).toInt := by
    cases found : payouts[user]? with
    | none =>
      refine ⟨by simp, ?_, by simp⟩
      apply List.sum_nonneg
      intro paid member
      rcases List.mem_map.mp member with ⟨⟨other, amount'⟩, present, rfl⟩
      exact held other amount' (BTreeMap.mem_toList.mp present)
    | some paid => exact ⟨held user paid found, BTreeMap.le_total (fun k v => held k v) found, rfl⟩
  have added : (payouts[user]?.getD 0 + amount).toInt = (payouts[user]?.getD 0).toInt + amount.toInt :=
    toInt_add_of_bounds (by omega) (by omega)
  constructor
  · have balance := BTreeMap.total_insert (fun _ paid => Int64.toInt paid) payouts user
      (payouts[user]?.getD 0 + amount)
    have replaced : payouts[user]?.elim 0 (fun paid => Int64.toInt paid) = (payouts[user]?.getD 0).toInt := before.2.2
    rw [added, replaced] at balance
    unfold paidOut credit
    omega
  · intro user' paid found
    rw [credit, BTreeMap.getElem?_insert_eq] at found
    by_cases same : user' = user
    · rw [if_pos same, Option.some.injEq] at found
      rw [← found, added]
      omega
    · rw [if_neg same] at found
      exact held user' paid found

theorem total_foldl_credit : ∀ (records : List PayoutRecord) (payouts : BTreeMap UserId Int64),
    Solvent payouts → (∀ r ∈ records, 0 ≤ r.totalPayout.toInt) →
      paidOut payouts + (records.map (·.totalPayout.toInt)).sum < 2^63 →
        paidOut
            (records.foldl (fun payouts r => credit payouts r.userId r.totalPayout) payouts) =
          paidOut payouts + (records.map (·.totalPayout.toInt)).sum := by
  intro records
  induction records with
  | nil =>
    intro payouts _ _ _
    simp
  | cons r rest ih =>
    intro payouts held gains bound
    have others : 0 ≤ (rest.map (·.totalPayout.toInt)).sum := by
      apply List.sum_nonneg
      intro paid member
      rcases List.mem_map.mp member with ⟨r', present, rfl⟩
      exact gains r' (List.mem_cons_of_mem _ present)
    rw [List.map_cons, List.sum_cons] at bound ⊢
    rcases @total_credit payouts r.userId r.totalPayout held (gains r List.mem_cons_self) (by omega) with ⟨paid, kept⟩
    rw [List.foldl_cons, ih _ kept (fun r' member => gains r' (List.mem_cons_of_mem _ member)) (by omega), paid]
    ring

/-! What the shares amount to. -/

namespace Contest

variable {c : Contest} {result : Int64}

structure Fits (c : Contest) (result : Int64) : Prop where
  pot : staked c.predictions < 2^63
  shares : ∀ pred ∈ c.winning result,
    pred.clout.toInt * ⌊(staked (c.losing result) : ℚ) * (1 - c.houseRake)⌋ < 2^63

structure Payable (c : Contest) (result : Int64) : Prop extends c.Fits result where
  resolved : c.resultOptionId = some result
  stakes : ∀ pred ∈ c.predictions, 0 < pred.clout.toInt
  rake_nonneg : 0 ≤ c.houseRake
  rake_le_one : c.houseRake ≤ 1

namespace Payable

theorem winning_pos (payable : c.Payable result) : ∀ pred ∈ c.winning result, 0 < pred.clout.toInt :=
  fun pred member => payable.stakes pred (List.mem_of_mem_filter member)

theorem losing_pos (payable : c.Payable result) : ∀ pred ∈ c.losing result, 0 < pred.clout.toInt :=
  fun pred member => payable.stakes pred (List.mem_of_mem_filter member)

theorem calculatePot_toInt (payable : c.Payable result) : c.calculatePot.toInt = staked c.predictions :=
  staking_toInt payable.stakes payable.pot

theorem winningStake_toInt (payable : c.Payable result) :
    (c.winningStake result).toInt = staked (c.winning result) := by
  have bound := payable.pot
  have others := staked_nonneg payable.losing_pos
  rw [staked_split c result] at bound
  exact staking_toInt payable.winning_pos (by omega)

theorem losingStake_toInt (payable : c.Payable result) :
    (c.losingStake result).toInt = staked (c.losing result) := by
  have split := staked_split c result
  have others := staked_nonneg payable.losing_pos
  have theirs := staked_nonneg payable.winning_pos
  have pot := payable.calculatePot_toInt
  have won := payable.winningStake_toInt
  unfold losingStake
  rw [toInt_sub_of_bounds (by omega) (by omega)]
  omega

theorem losing_lt (payable : c.Payable result) : (staked (c.losing result) : ℚ) < 2^63 := by
  have bound := payable.pot
  have theirs := staked_nonneg payable.winning_pos
  rw [staked_split c result] at bound
  have exact_bound : staked (c.losing result) < 2^63 := by omega
  exact_mod_cast exact_bound

theorem losing_nonneg (payable : c.Payable result) : (0 : ℚ) ≤ staked (c.losing result) := by
  exact_mod_cast staked_nonneg payable.losing_pos

theorem truncated_losing (payable : c.Payable result) {rate : ℚ} (nonneg : 0 ≤ rate) (atMost : rate ≤ 1) :
    (truncated ((c.losingStake result).toInt * rate)).toInt = ⌊(staked (c.losing result) : ℚ) * rate⌋ := by
  rw [payable.losingStake_toInt]
  apply truncated_toInt (mul_nonneg payable.losing_nonneg nonneg)
  calc (staked (c.losing result) : ℚ) * rate ≤ staked (c.losing result) * 1 :=
        mul_le_mul_of_nonneg_left atMost payable.losing_nonneg
    _ < 2^63 := by rw [mul_one]; exact payable.losing_lt

theorem rake_toInt (payable : c.Payable result) :
    c.calculateHouseRakeClout.toInt = ⌊(staked (c.losing result) : ℚ) * c.houseRake⌋ := by
  rw [calculateHouseRakeClout_eq payable.resolved]
  exact payable.truncated_losing payable.rake_nonneg payable.rake_le_one

theorem rake_clout_nonneg (payable : c.Payable result) : 0 ≤ c.calculateHouseRakeClout.toInt := by
  rw [payable.rake_toInt]
  exact Int.floor_nonneg.mpr (mul_nonneg payable.losing_nonneg payable.rake_nonneg)

theorem distributable_toInt (payable : c.Payable result) :
    (c.distributable result).toInt = ⌊(staked (c.losing result) : ℚ) * (1 - c.houseRake)⌋ :=
  payable.truncated_losing (by linarith [payable.rake_le_one]) (by linarith [payable.rake_nonneg])

theorem distributable_nonneg (payable : c.Payable result) : 0 ≤ (c.distributable result).toInt := by
  rw [payable.distributable_toInt]
  apply Int.floor_nonneg.mpr
  exact mul_nonneg payable.losing_nonneg (by linarith [payable.rake_le_one])

theorem distributable_add_rake (payable : c.Payable result) :
    (c.distributable result).toInt + c.calculateHouseRakeClout.toInt ≤ staked (c.losing result) := by
  rw [payable.distributable_toInt, payable.rake_toInt]
  have whole : (staked (c.losing result) : ℚ) * (1 - c.houseRake) + staked (c.losing result) * c.houseRake =
      staked (c.losing result) := by ring
  have floors := Int.le_floor_add ((staked (c.losing result) : ℚ) * (1 - c.houseRake))
    (staked (c.losing result) * c.houseRake)
  rw [whole, Int.floor_intCast] at floors
  exact floors

theorem winningStake_pos (payable : c.Payable result) {pred : Prediction} (wins : pred ∈ c.winning result) :
    0 < staked (c.winning result) := by
  apply List.sum_pos
  · intro stake member
    rcases List.mem_map.mp member with ⟨other, present, rfl⟩
    exact payable.winning_pos other present
  · intro none
    rw [List.map_eq_nil_iff] at none
    rw [none] at wins
    cases wins

theorem shareOf_toInt (payable : c.Payable result) {pred : Prediction} (wins : pred ∈ c.winning result) :
    (c.shareOf result pred).toInt =
      floorShare (c.distributable result).toInt (staked (c.winning result)) (fun pred => pred.clout.toInt) pred := by
  have stake := payable.winning_pos pred wins
  have positive := payable.winningStake_pos wins
  have pool := payable.distributable_nonneg
  have won := payable.winningStake_toInt
  have bound := payable.shares pred wins
  rw [← payable.distributable_toInt] at bound
  have counted : 0 < c.winningStake result := by
    rw [Int64.lt_iff_toInt_lt, won]
    exact positive
  have nonneg : 0 ≤ pred.clout.toInt * (c.distributable result).toInt := mul_nonneg stake.le pool
  have product : (pred.clout * c.distributable result).toInt = pred.clout.toInt * (c.distributable result).toInt :=
    toInt_mul_of_bounds (by omega) bound
  unfold shareOf floorShare
  rw [if_pos counted, toInt_div_of_nonneg (by omega) (by omega), product, won, mul_comm]

theorem shareOf_nonneg (payable : c.Payable result) {pred : Prediction} (wins : pred ∈ c.winning result) :
    0 ≤ (c.shareOf result pred).toInt := by
  rw [payable.shareOf_toInt wins]
  exact floorShare_nonneg payable.distributable_nonneg (payable.winning_pos pred wins).le
    (payable.winningStake_pos wins)

theorem shareOf_mono (payable : c.Payable result) {p q : Prediction} (left : p ∈ c.winning result)
    (right : q ∈ c.winning result) (less : p.clout ≤ q.clout) : c.shareOf result p ≤ c.shareOf result q := by
  rw [Int64.le_iff_toInt_le] at less ⊢
  rw [payable.shareOf_toInt left, payable.shareOf_toInt right]
  exact Int.ediv_le_ediv (payable.winningStake_pos left) (mul_le_mul_of_nonneg_left less payable.distributable_nonneg)

theorem shares_sum (payable : c.Payable result) :
    ((c.winning result).map fun pred => (c.shareOf result pred).toInt).sum =
      ((c.winning result).map (floorShare (c.distributable result).toInt (staked (c.winning result))
        fun pred => pred.clout.toInt)).sum := by
  congr 1
  apply List.map_congr_left
  intro pred wins
  exact payable.shareOf_toInt wins

theorem shares_le (payable : c.Payable result) :
    ((c.winning result).map fun pred => (c.shareOf result pred).toInt).sum ≤ (c.distributable result).toInt := by
  rw [payable.shares_sum]
  cases winners : c.winning result with
  | nil => simpa using payable.distributable_nonneg
  | cons pred rest =>
    have wins : pred ∈ c.winning result := by
      rw [winners]
      exact List.mem_cons_self
    have positive := payable.winningStake_pos wins
    rw [winners] at positive
    exact sum_floorShare_le positive

theorem shares_shortfall (payable : c.Payable result) (someone : c.winning result ≠ []) :
    (c.distributable result).toInt - ((c.winning result).map fun pred => (c.shareOf result pred).toInt).sum <
      (c.winning result).length := by
  rw [payable.shares_sum]
  rcases List.exists_mem_of_ne_nil _ someone with ⟨pred, wins⟩
  exact leftover_lt_length (payable.winningStake_pos wins) someone

theorem share_le (payable : c.Payable result) {pred : Prediction} (wins : pred ∈ c.winning result) :
    (c.shareOf result pred).toInt ≤ (c.distributable result).toInt := by
  apply le_trans _ payable.shares_le
  apply List.single_le_sum
  · intro share member
    rcases List.mem_map.mp member with ⟨other, present, rfl⟩
    exact payable.shareOf_nonneg present
  · exact List.mem_map_of_mem wins

theorem stake_le (payable : c.Payable result) {pred : Prediction} (wins : pred ∈ c.winning result) :
    pred.clout.toInt ≤ staked (c.winning result) := by
  apply List.single_le_sum
  · intro stake member
    rcases List.mem_map.mp member with ⟨other, present, rfl⟩
    exact (payable.winning_pos other present).le
  · exact List.mem_map_of_mem wins

theorem totalPayout_toInt (payable : c.Payable result) {pred : Prediction} (wins : pred ∈ c.winning result) :
    (c.winnerRecord result pred).totalPayout.toInt = pred.clout.toInt + (c.shareOf result pred).toInt := by
  have stake := payable.winning_pos pred wins
  have share := payable.shareOf_nonneg wins
  have staked_bound := payable.stake_le wins
  have share_bound := payable.share_le wins
  have truncations := payable.distributable_add_rake
  have rake := payable.rake_clout_nonneg
  have pot := payable.pot
  rw [staked_split c result] at pot
  exact toInt_add_of_bounds (by omega) (by omega)

theorem payouts_sum (payable : c.Payable result) :
    (((c.winning result).map (c.winnerRecord result)).map fun r => r.totalPayout.toInt).sum =
      staked (c.winning result) + ((c.winning result).map fun pred => (c.shareOf result pred).toInt).sum := by
  rw [List.map_map, staked, ← List.sum_map_add]
  congr 1
  apply List.map_congr_left
  intro pred wins
  exact payable.totalPayout_toInt wins

theorem totalPayout_nonneg (payable : c.Payable result) :
    ∀ r ∈ (c.winning result).map (c.winnerRecord result), 0 ≤ r.totalPayout.toInt := by
  intro r member
  rcases List.mem_map.mp member with ⟨pred, wins, rfl⟩
  have stake := payable.winning_pos pred wins
  have share := payable.shareOf_nonneg wins
  rw [payable.totalPayout_toInt wins]
  omega

theorem payouts_add_rake_le (payable : c.Payable result) :
    (((c.winning result).map (c.winnerRecord result)).map fun r => r.totalPayout.toInt).sum +
      c.calculateHouseRakeClout.toInt ≤ staked c.predictions := by
  have truncations := payable.distributable_add_rake
  have shares := payable.shares_le
  rw [payable.payouts_sum, staked_split c result]
  omega

theorem foldl_payouts (payable : c.Payable result) (chosen : PayoutRecord → Bool) :
    (((((c.winning result).map (c.winnerRecord result)).filter chosen).map PayoutRecord.totalPayout).foldl
        (· + ·) 0).toInt =
      ((((c.winning result).map (c.winnerRecord result)).filter chosen).map fun r => r.totalPayout.toInt).sum := by
  have part := sum_filter_le chosen payable.totalPayout_nonneg
  have pot := payable.pot
  have within := payable.payouts_add_rake_le
  have rake := payable.rake_clout_nonneg
  have amounts : ∀ records : List PayoutRecord,
      (records.map PayoutRecord.totalPayout).map Int64.toInt = records.map fun r => r.totalPayout.toInt := by
    intro records
    rw [List.map_map]
    rfl
  rw [foldl_add_toInt]
  · rw [Int64.toInt_zero, zero_add, amounts]
  · intro amount member
    rcases List.mem_map.mp member with ⟨r, present, rfl⟩
    exact payable.totalPayout_nonneg r (List.mem_of_mem_filter present)
  · decide
  · rw [Int64.toInt_zero, zero_add, amounts]
    omega

theorem paidOut_eq (payable : c.Payable result) :
    paidOut (((c.winning result).map (c.winnerRecord result)).foldl
        (fun payouts r => credit payouts r.userId r.totalPayout) ∅) =
      (((c.winning result).map (c.winnerRecord result)).map fun r => r.totalPayout.toInt).sum := by
  have pot := payable.pot
  have within := payable.payouts_add_rake_le
  have rake := payable.rake_clout_nonneg
  have nothing : paidOut ∅ = 0 := BTreeMap.total_empty _
  have held : Solvent ∅ := by
    intro user paid found
    simp at found
  rw [total_foldl_credit _ ∅ held payable.totalPayout_nonneg (by rw [nothing]; omega), nothing, zero_add]

end Payable

variable (c result) in
/-- A record of a winning prediction returns the stake and adds the share. -/
structure PaysOut (pred : Prediction) (r : PayoutRecord) : Prop where
  user : r.userId = pred.userId
  stake : r.originalStake = pred.clout
  total : r.totalPayout.toInt = r.originalStake.toInt + r.shareOfPot.toInt
  covered : r.originalStake ≤ r.totalPayout

end Contest

open Contest in
/-- The payouts of a resolved contest: its two accounts agree, winners get their stakes back and shares that grow
with them, and what is paid and what the house takes stay within the pot, with less left over than there are
winning predictions. -/
theorem payouts_are_fair {c : Contest} {result : Int64} (resolved : c.resultOptionId = some result)
    (stakes : ∀ pred ∈ c.predictions, 0 < pred.clout.toInt) (rake_nonneg : 0 ≤ c.houseRake)
    (rake_le_one : c.houseRake ≤ 1) :
    ∃ payouts winners losers,
      c.calculateWinnerPayouts = .ok payouts ∧ c.calculatePayoutBreakdown = .ok (winners, losers) ∧
      (∀ user, (user ∈ payouts ↔ ∃ r ∈ winners, r.userId = user) ∧
        payouts[user]?.getD 0 = ((winners.filter fun r => r.userId = user).map PayoutRecord.totalPayout).foldl (· + ·) 0) ∧
      (c.Fits result →
        (∀ user, (payouts[user]?.getD 0).toInt =
          ((winners.filter fun r => r.userId = user).map fun r => r.totalPayout.toInt).sum) ∧
        List.Forall₂ PaysOut (c.winning result) winners ∧
        (∀ r ∈ winners, ∀ r' ∈ winners, r.originalStake ≤ r'.originalStake → r.shareOfPot ≤ r'.shareOfPot) ∧
        (winners.map fun r => r.shareOfPot.toInt).sum ≤
          staked (c.losing result) - c.calculateHouseRakeClout.toInt ∧
        (c.winning result ≠ [] → ⌊(staked (c.losing result) : ℚ) * (1 - c.houseRake)⌋ -
          (winners.map fun r => r.shareOfPot.toInt).sum < (c.winning result).length) ∧
        paidOut payouts + c.calculateHouseRakeClout.toInt ≤ staked c.predictions ∧
        (c.status = .statusResolved → ∀ findById, ∃ breakdown, getPayoutBreakdown findById c = .ok breakdown ∧
          breakdown.totalPot.toInt = staked c.predictions ∧
          breakdown.houseRake = c.calculateHouseRakeClout ∧
          breakdown.totalDistributed.toInt = paidOut payouts)) := by
  refine ⟨_, _, _, calculateWinnerPayouts_eq resolved, calculatePayoutBreakdown_eq resolved, ?_, ?_⟩
  · intro user
    rw [foldl_credit_mem, foldl_credit_get, Std.ExtTreeMap.getElem?_empty, Option.getD_none]
    simp
  · intro fits
    have payable : c.Payable result := ⟨fits, resolved, stakes, rake_nonneg, rake_le_one⟩
    have shares : ((c.winning result).map (c.winnerRecord result)).map (fun r => r.shareOfPot.toInt) =
        (c.winning result).map fun pred => (c.shareOf result pred).toInt := by
      rw [List.map_map]
      rfl
    rw [shares]
    refine ⟨?_, ?_, ?_, ?_, ?_, ?_, ?_⟩
    · intro user
      rw [foldl_credit_get, Std.ExtTreeMap.getElem?_empty, Option.getD_none]
      exact payable.foldl_payouts _
    · rw [List.forall₂_map_right_iff, List.forall₂_same]
      intro pred wins
      refine ⟨rfl, rfl, payable.totalPayout_toInt wins, ?_⟩
      have share := payable.shareOf_nonneg wins
      show pred.clout ≤ (c.winnerRecord result pred).totalPayout
      rw [Int64.le_iff_toInt_le, payable.totalPayout_toInt wins]
      omega
    · intro r left r' right less
      rcases List.mem_map.mp left with ⟨p, first, rfl⟩
      rcases List.mem_map.mp right with ⟨q, second, rfl⟩
      exact payable.shareOf_mono first second less
    · have truncations := payable.distributable_add_rake
      have within := payable.shares_le
      omega
    · intro someone
      rw [← payable.distributable_toInt]
      exact payable.shares_shortfall someone
    · rw [payable.paidOut_eq]
      exact payable.payouts_add_rake_le
    · intro status findById
      refine ⟨_, getPayoutBreakdown_eq resolved status findById, payable.calculatePot_toInt, rfl, ?_⟩
      rw [payable.paidOut_eq]
      have everyone := payable.foldl_payouts fun _ => true
      rw [List.filter_true, List.map_map, List.foldl_map] at everyone
      exact everyone

def sharedContest : Contest where
  predictions := [⟨⟨1⟩, 1, 100⟩, ⟨⟨2⟩, 1, 50⟩, ⟨⟨1⟩, 2, 95⟩]
  status := .statusResolved
  resultOptionId := some 1
  houseRake := 1 / 10

theorem payouts_are_fair_shared :
    sharedContest.Fits 1 ∧
      ∃ payouts, sharedContest.calculateWinnerPayouts = .ok payouts ∧
        paidOut payouts + sharedContest.calculateHouseRakeClout.toInt ≤ staked sharedContest.predictions := by
  have fits : sharedContest.Fits 1 := ⟨by decide +kernel, by decide +kernel⟩
  have fair := @payouts_are_fair sharedContest 1 rfl (by decide +kernel) (by decide +kernel) (by decide +kernel)
  rcases fair with ⟨payouts, _, _, paid, _, _, accounts⟩
  rcases accounts fits with ⟨_, _, _, _, _, within, _⟩
  exact ⟨fits, payouts, paid, within⟩

def onlyLoser : Contest where
  predictions := [⟨⟨1⟩, 2, 10⟩]
  status := .statusResolved
  resultOptionId := some 1
  houseRake := 1 / 10

def wideStakes : Contest where
  predictions := [⟨⟨1⟩, 1, 2147483648⟩, ⟨⟨2⟩, 2, 8589934592⟩]
  status := .statusResolved
  resultOptionId := some 1
  houseRake := 1 / 10

/-- Without a winner the whole distributable amount stays behind, and a product that wraps takes from a stake. -/
theorem shares_can_fail :
    (∃ winners losers, onlyLoser.calculatePayoutBreakdown = .ok (winners, losers) ∧
      ¬ ⌊(staked (onlyLoser.losing 1) : ℚ) * (1 - onlyLoser.houseRake)⌋ -
        (winners.map fun r => r.shareOfPot.toInt).sum < (onlyLoser.winning 1).length) ∧
      ∃ winners losers, wideStakes.calculatePayoutBreakdown = .ok (winners, losers) ∧
        ∃ r ∈ winners, r.totalPayout < r.originalStake := by
  constructor
  · exact ⟨_, _, rfl, by decide +kernel⟩
  · exact ⟨_, _, rfl, by decide +kernel⟩

/-- The stakes that an expired contest gives back, as records of what is paid. -/
def refundRecord (pred : Prediction) : PayoutRecord := ⟨pred.userId, pred.clout, 0, pred.clout⟩

theorem calculateRefunds_eq (c : Contest) : c.calculateRefunds =
    (c.predictions.map refundRecord).foldl (fun payouts r => credit payouts r.userId r.totalPayout) ∅ := by
  rw [List.foldl_map]
  rfl

theorem refundRecords_sum (predictions : List Prediction) :
    ((predictions.map refundRecord).map (·.totalPayout.toInt)).sum = staked predictions := by
  rw [List.map_map]
  rfl

/-- An expired contest gives each stake back: those who staked get the sum of their stakes, and nobody else anything. -/
theorem refunds_return_stakes {c : Contest} (stakes : ∀ pred ∈ c.predictions, 0 < pred.clout.toInt)
    (pot : staked c.predictions < 2^63) : paidOut c.calculateRefunds = staked c.predictions ∧
      ∀ user, (user ∈ c.calculateRefunds ↔ ∃ pred ∈ c.predictions, pred.userId = user) ∧
        (c.calculateRefunds[user]?.getD 0).toInt = staked (c.predictions.filter fun pred => pred.userId = user) := by
  have gains : ∀ r ∈ c.predictions.map refundRecord, 0 ≤ r.totalPayout.toInt := by
    intro r member
    rcases List.mem_map.mp member with ⟨pred, made, rfl⟩
    exact (stakes pred made).le
  have nothing : paidOut ∅ = 0 := BTreeMap.total_empty _
  have held : Solvent ∅ := by
    intro user paid found
    simp at found
  have whole := refundRecords_sum c.predictions
  rw [calculateRefunds_eq]
  constructor
  · rw [total_foldl_credit _ ∅ held gains (by omega), nothing, zero_add, whole]
  · intro user
    have theirs : (c.predictions.map refundRecord).filter (fun r => r.userId = user) =
        (c.predictions.filter fun pred => pred.userId = user).map refundRecord := by
      rw [List.filter_map]
      rfl
    have part := sum_filter_le (fun pred => decide (pred.userId = user)) fun pred made => (stakes pred made).le
    have amounts : (((c.predictions.filter fun pred => pred.userId = user).map refundRecord).map
        PayoutRecord.totalPayout).map Int64.toInt =
        (c.predictions.filter fun pred => pred.userId = user).map fun pred => pred.clout.toInt := by
      rw [List.map_map, List.map_map]
      rfl
    rw [foldl_credit_mem, foldl_credit_get, Std.ExtTreeMap.getElem?_empty, Option.getD_none, theirs]
    constructor
    · simp [refundRecord]
    · rw [foldl_add_toInt]
      · rw [amounts, Int64.toInt_zero, zero_add]
        rfl
      · intro amount member
        rcases List.mem_map.mp member with ⟨r, listed, rfl⟩
        rcases List.mem_map.mp listed with ⟨pred, made, rfl⟩
        exact (stakes pred (List.mem_of_mem_filter made)).le
      · decide
      · rw [amounts, Int64.toInt_zero, zero_add]
        exact lt_of_le_of_lt part pot

theorem refunds_return_stakes_shared : paidOut (Contest.calculateRefunds
    { predictions := [⟨⟨1⟩, 1, 10⟩, ⟨⟨2⟩, 2, 20⟩, ⟨⟨1⟩, 2, 30⟩]
      status := .statusExpired, resultOptionId := none, houseRake := 1 / 10 }) = 60 := by
  rw [(refunds_return_stakes (by decide) (by decide)).1]
  rfl

end Predix

import BazelRepo.PredictionBot.Payouts
import Mathlib.Algebra.BigOperators.Group.Finset.Basic
import Mathlib.Algebra.BigOperators.Group.Finset.Piecewise

namespace PredictionBot

open Library

def Bet.key (bet : Bet) : UserId × OutcomeIndex := (bet.userId, bet.outcome)

def stakeOf (bets : List Bet) (key : UserId × OutcomeIndex) : Int :=
  sumBets (bets.filter fun bet => bet.key = key)

def winningStake (bets : List Bet) (outcome : OutcomeIndex) : Int := sumBets (selected bets (some outcome))

structure Market.Sound (market : Market) : Prop where
  staked : market.totalStaked.toInt = sumBets market.bets
  positive : ∀ bet ∈ market.bets, 0 < bet.amount.toInt

def fairShare (market : Market) (outcome : OutcomeIndex) (user : UserId) : Int :=
  market.totalStaked.toInt * stakeOf market.bets (user, outcome) / winningStake market.bets outcome

def fairRemainder (market : Market) (outcome : OutcomeIndex) (user : UserId) : Int :=
  market.totalStaked.toInt * stakeOf market.bets (user, outcome) % winningStake market.bets outcome

/-- The largest-remainder apportionment of a pool to the winners of a market. -/
structure Apportioned (market : Market) (outcome : OutcomeIndex) (entries : List Allocation) : Prop where
  sorted : entries.Pairwise fun a b => compare a.userId b.userId = .lt
  winners : ∀ user, (∃ entry ∈ entries, entry.userId = user) ↔ ∃ bet ∈ market.bets, bet.key = (user, outcome)
  rounded : ∀ entry ∈ entries, entry.amount.toInt = fairShare market outcome entry.userId ∨
    entry.amount.toInt = fairShare market outcome entry.userId + 1
  whole : sumAmounts entries = market.totalStaked.toInt
  covers : ∀ entry ∈ entries, stakeOf market.bets (entry.userId, outcome) ≤ entry.amount.toInt
  monotone : ∀ a ∈ entries, ∀ b ∈ entries, stakeOf market.bets (a.userId, outcome) <
    stakeOf market.bets (b.userId, outcome) → a.amount.toInt ≤ b.amount.toInt
  ranked : ∀ a ∈ entries, ∀ b ∈ entries, a.amount.toInt = fairShare market outcome a.userId + 1 →
    b.amount.toInt = fairShare market outcome b.userId →
      fairRemainder market outcome b.userId < fairRemainder market outcome a.userId ∨
        fairRemainder market outcome a.userId = fairRemainder market outcome b.userId ∧
          compare a.userId b.userId = .lt

/-- Bets that only change places, and bets of one user on one outcome that are split. -/
inductive Rearranged : List Bet → List Bet → Prop where
  | perm {first second : List Bet} (perm : first.Perm second) : Rearranged first second
  | split {whole left right : Bet} {bets : List Bet} (first : left.key = whole.key) (second : right.key = whole.key)
      (amounts : left.amount.toInt + right.amount.toInt = whole.amount.toInt) :
      Rearranged (whole :: bets) (left :: right :: bets)
  | symm {first second : List Bet} (rearranged : Rearranged first second) : Rearranged second first
  | trans {first second third : List Bet} (early : Rearranged first second) (late : Rearranged second third) :
      Rearranged first third

theorem sumBets_perm {first second : List Bet} (perm : first.Perm second) : sumBets first = sumBets second :=
  (perm.map _).sum_eq

theorem stakeOf_cons (bet : Bet) (bets : List Bet) (key : UserId × OutcomeIndex) :
    stakeOf (bet :: bets) key = (if bet.key = key then bet.amount.toInt else 0) + stakeOf bets key := by
  unfold stakeOf
  rw [List.filter_cons]
  by_cases same : bet.key = key <;> simp [same, sumBets]

theorem Rearranged.stakeOf {first second : List Bet} (rearranged : Rearranged first second)
    (key : UserId × OutcomeIndex) : stakeOf first key = stakeOf second key := by
  induction rearranged with
  | perm perm => exact sumBets_perm (perm.filter _)
  | split first second amounts =>
    rw [stakeOf_cons, stakeOf_cons, stakeOf_cons, first, second, ← amounts]
    split <;> omega
  | symm _ ih => exact ih.symm
  | trans _ _ early late => exact early.trans late

theorem sum_stakeOf {bets : List Bet} {keys : Finset (UserId × OutcomeIndex)}
    (listed : ∀ bet ∈ bets, bet.key ∈ keys) : ∑ key ∈ keys, stakeOf bets key = sumBets bets := by
  induction bets with
  | nil => simp [stakeOf, sumBets]
  | cons bet rest ih =>
    have later := ih fun other member => listed other (List.mem_cons_of_mem _ member)
    have expand : sumBets (bet :: rest) = bet.amount.toInt + sumBets rest := by simp [sumBets]
    simp only [stakeOf_cons, Finset.sum_add_distrib, later, expand]
    rw [Finset.sum_ite_eq, if_pos (listed bet List.mem_cons_self)]

theorem stakeOf_pos {bets : List Bet} (positive : ∀ bet ∈ bets, 0 < bet.amount.toInt) {key : UserId × OutcomeIndex} :
    0 < stakeOf bets key ↔ ∃ bet ∈ bets, bet.key = key := by
  induction bets with
  | nil => simp [stakeOf, sumBets]
  | cons bet rest ih =>
    have first := positive bet List.mem_cons_self
    have later := ih fun other member => positive other (List.mem_cons_of_mem _ member)
    have nonneg : 0 ≤ stakeOf rest key := sumBets_nonneg fun other member =>
      positive other (List.mem_cons_of_mem _ (List.mem_of_mem_filter member))
    rw [stakeOf_cons]
    by_cases same : bet.key = key
    · rw [if_pos same]
      refine iff_of_true (by omega) ⟨bet, List.mem_cons_self, same⟩
    · rw [if_neg same, zero_add, later]
      simp [same]

theorem foldlM_addStake_lookup {outcome : OutcomeIndex} :
    ∀ {bets : List Bet} {totals result : BTreeMap UserId Points},
      bets.foldlM (addStake (some outcome)) totals = .ok result →
      ∀ user : UserId, (result[user]?.getD ⟨0⟩).toInt = (totals[user]?.getD ⟨0⟩).toInt + stakeOf bets (user, outcome) ∧
        (result[user]?.isSome ↔ totals[user]?.isSome ∨ ∃ bet ∈ bets, bet.key = (user, outcome)) := by
  intro bets
  induction bets with
  | nil =>
    intro totals result run user
    cases run
    simp [stakeOf, sumBets]
  | cons bet rest ih =>
    intro totals result run user
    rw [List.foldlM_cons, bind_eq_ok] at run
    rcases run with ⟨middle, first, run⟩
    rcases ih run user with ⟨amount, known⟩
    rw [amount, known, stakeOf_cons]
    unfold addStake at first
    split at first
    case isTrue chosen =>
      have same : outcome = bet.outcome := by simpa using chosen
      rcases bind_eq_ok.mp first with ⟨sum, added, stored⟩
      cases stored
      have value := checkedPointsAdd_eq_ok.mp added
      rw [BTreeMap.getElem?_insert_eq]
      by_cases mine : user = bet.userId
      · subst mine
        have key : bet.key = (bet.userId, outcome) := by
          rw [same]
          rfl
        rw [if_pos rfl, if_pos key]
        simp only [Option.getD_some, Option.isSome_some, true_or, true_iff, List.exists_mem_cons_iff]
        rw [value]
        exact ⟨by omega, .inr (.inl key)⟩
      · have key : bet.key ≠ (user, outcome) := fun equal => mine (congrArg Prod.fst equal).symm
        rw [if_neg mine, if_neg key]
        simp [key]
    case isFalse skipped =>
      cases first
      have key : bet.key ≠ (user, outcome) := by
        intro equal
        apply skipped
        have same : bet.outcome = outcome := congrArg Prod.snd equal
        simp [same]
      rw [if_neg key]
      simp [key]

section Winners

variable {market : Market} {outcome : OutcomeIndex} {winners : BTreeMap UserId Points}

theorem winners_lookup (computed : stakes market (some outcome) = .ok winners) {user : UserId} {points : Points}
    (found : winners[user]? = some points) : points.toInt = stakeOf market.bets (user, outcome) := by
  have amount := (foldlM_addStake_lookup computed user).1
  have empty : (⟨0⟩ : Points).toInt = 0 := rfl
  simpa [found, empty] using amount

theorem winners_isSome (computed : stakes market (some outcome) = .ok winners) {user : UserId} :
    winners[user]?.isSome ↔ ∃ bet ∈ market.bets, bet.key = (user, outcome) := by
  have known := (foldlM_addStake_lookup computed user).2
  simpa using known

/-- The totals of the winners are what the users staked, whatever the bets look like. -/
theorem winners_eq (sound : market.Sound) {other : Market} (others : other.Sound)
    {totals : BTreeMap UserId Points} (computed : stakes market (some outcome) = .ok winners)
    (again : stakes other (some outcome) = .ok totals)
    (same : ∀ key, stakeOf other.bets key = stakeOf market.bets key) : totals = winners := by
  apply Std.ExtTreeMap.ext_getElem?
  intro user
  have known : totals[user]?.isSome ↔ winners[user]?.isSome := by
    rw [winners_isSome computed, winners_isSome again, ← stakeOf_pos sound.positive, ← stakeOf_pos others.positive,
      same]
  cases left : totals[user]? with
  | none =>
    cases right : winners[user]? with
    | none => rfl
    | some points => simp [left, right] at known
  | some first =>
    cases right : winners[user]? with
    | none => simp [left, right] at known
    | some second =>
      have values : first.toInt = second.toInt := by
        rw [winners_lookup again left, winners_lookup computed right, same]
      congr 1
      cases first
      cases second
      congr 1
      exact Int64.toInt_inj.mp values

end Winners

theorem userOrder_total (a b : UserId × Int64 × Int) : userOrder a b ∨ userOrder b a := by
  have swapped : compare b.1 a.1 = (compare a.1 b.1).swap := Std.OrientedCmp.eq_swap
  unfold userOrder
  rw [swapped]
  cases compare a.1 b.1
  · exact .inl rfl
  · exact .inl rfl
  · exact .inr rfl

instance : Std.Total userOrder := ⟨userOrder_total⟩

instance : IsTrans _ userOrder := ⟨fun _ _ _ first second => Std.TransCmp.isLE_trans first second⟩

instance : Std.Total remainderOrder := by
  refine ⟨fun a b => ?_⟩
  rcases lt_trichotomy a.2.2 b.2.2 with less | same | greater
  · exact .inr (.inl less)
  · rcases userOrder_total a b with first | second
    · exact .inl (.inr ⟨same, first⟩)
    · exact .inr (.inr ⟨same.symm, second⟩)
  · exact .inl (.inl greater)

instance : IsTrans _ remainderOrder := by
  refine ⟨fun a b c => ?_⟩
  rintro (less | ⟨same, first⟩) (lesser | ⟨equal, second⟩)
  · exact .inl (lesser.trans less)
  · exact .inl (equal ▸ less)
  · exact .inl (same ▸ lesser)
  · exact .inr ⟨same.trans equal, Std.TransCmp.isLE_trans first second⟩

theorem lt_of_userOrder {a b : UserId × Int64 × Int} (ordered : userOrder a b) (different : a.1 ≠ b.1) :
    compare a.1 b.1 = .lt := by
  unfold userOrder at ordered
  cases order : compare a.1 b.1 with
  | lt => rfl
  | eq => exact absurd (Std.LawfulEqCmp.eq_of_compare order) different
  | gt =>
    rw [order] at ordered
    cases ordered

section Rounding

variable {market : Market} {outcome : OutcomeIndex} {winners : BTreeMap UserId Points} {member : UserId → Prop}

/-- What is known of a winner after rounding: the floor, a unit more if ranked early enough, and the remainder. -/
theorem mem_rounded {pool : Int} {entry : UserId × Int64 × Int} (listed : entry ∈ rounded pool winners) :
    ∃ base ∈ floors pool winners, entry.1 = base.1 ∧ entry.2.2 = base.2.2 ∧
      (base ∈ (ranked pool winners).take (leftover pool winners) ∧ entry = raise base ∨
        base ∈ (ranked pool winners).drop (leftover pool winners) ∧ entry = base) := by
  have ranks := List.perm_insertionSort remainderOrder (floors pool winners)
  rcases List.mem_append.mp listed with lifted | kept
  · rcases List.mem_map.mp lifted with ⟨base, taken, rfl⟩
    exact ⟨base, ranks.subset (List.mem_of_mem_take taken), rfl, rfl, .inl ⟨taken, rfl⟩⟩
  · exact ⟨entry, ranks.subset (List.mem_of_mem_drop kept), rfl, rfl, .inr ⟨kept, rfl⟩⟩

theorem nodup_ranked (pool : Int) (winners : BTreeMap UserId Points) : ((ranked pool winners).map Prod.fst).Nodup := by
  have ranks := (List.perm_insertionSort remainderOrder (floors pool winners)).map Prod.fst
  apply ranks.nodup_iff.mpr
  unfold floors
  rw [List.map_map]
  exact BTreeMap.nodup_keys winners

theorem ranked_before {pool : Int} {raised kept : UserId × Int64 × Int}
    (taken : raised ∈ (ranked pool winners).take (leftover pool winners))
    (dropped : kept ∈ (ranked pool winners).drop (leftover pool winners)) :
    raised.1 ≠ kept.1 ∧ remainderOrder raised kept := by
  have whole := List.take_append_drop (leftover pool winners) (ranked pool winners)
  refine ⟨?_, ?_⟩
  · have nodup := nodup_ranked pool winners
    rw [← whole, List.map_append, List.nodup_append] at nodup
    exact nodup.2.2 _ (List.mem_map_of_mem taken) _ (List.mem_map_of_mem dropped)
  · have sorted := List.pairwise_insertionSort remainderOrder (floors pool winners)
    have split : (ranked pool winners).Pairwise remainderOrder := sorted
    rw [← whole, List.pairwise_append] at split
    exact split.2.2 _ taken _ dropped

theorem rounded_users (pool : Int) (winners : BTreeMap UserId Points) :
    (rounded pool winners).map Prod.fst = (ranked pool winners).map Prod.fst := by
  unfold rounded
  have same : Prod.fst ∘ raise = (Prod.fst : UserId × Int64 × Int → UserId) := rfl
  rw [List.map_append, List.map_map, same, ← List.map_append, List.take_append_drop]

end Rounding

section Apportionment

variable {market : Market} {outcome : OutcomeIndex} {winners : BTreeMap UserId Points}

theorem Market.Sound.has_winners (sound : market.Sound) (won : ∃ bet ∈ market.bets, bet.outcome = outcome) :
    ∃ winners, stakes market (some outcome) = .ok winners ∧ winners.isEmpty = false ∧
      PositiveTotals winners (fun _ => True) ∧ sumPoints winners = winningStake market.bets outcome ∧
      sumPoints winners ≤ market.totalStaked.toInt := by
  rcases @stakes_ok market (fun _ => True) sound.staked (fun bet member => ⟨sound.positive bet member, trivial⟩)
      (some outcome) with
    ⟨winners, computed, positive⟩
  refine ⟨winners, computed, ?_, positive, stakes_total computed, ?_⟩
  · rcases won with ⟨bet, member, same⟩
    have known : winners[bet.userId]?.isSome :=
      (winners_isSome computed).mpr ⟨bet, member, Prod.ext rfl same⟩
    rw [← Bool.not_eq_true, Std.ExtTreeMap.isEmpty_iff]
    rintro rfl
    simp at known
  · rw [stakes_total computed, sound.staked]
    exact sumBets_selected_le sound.positive

structure Fair (market : Market) (outcome : OutcomeIndex) (base : UserId × Int64 × Int) : Prop where
  amount : base.2.1.toInt = fairShare market outcome base.1
  remainder : base.2.2 = fairRemainder market outcome base.1
  stake : 0 < stakeOf market.bets (base.1, outcome)

theorem floors_fair (computed : stakes market (some outcome) = .ok winners) (nonempty : winners.isEmpty = false)
    (positive : PositiveTotals winners (fun _ => True)) (covered : sumPoints winners ≤ market.totalStaked.toInt)
    {base : UserId × Int64 × Int} (listed : base ∈ floors market.totalStaked.toInt winners) :
    Fair market outcome base := by
  have whole : sumPoints winners = winningStake market.bets outcome := stakes_total computed
  rcases List.mem_map.mp listed with ⟨⟨user, points⟩, present, rfl⟩
  have found := BTreeMap.mem_toList.mp present
  have stake := winners_lookup computed found
  refine ⟨?_, ?_, ?_⟩
  · rw [share_value nonempty positive covered market.totalStaked.toInt_le_max _ present]
    unfold floorShare fairShare
    dsimp only
    rw [stake, whole]
    rfl
  · show market.totalStaked.toInt * points.toInt % sumPoints winners = _
    rw [stake, whole]
    rfl
  · show 0 < stakeOf market.bets (user, outcome)
    rw [← stake]
    exact (positive user points found).1

/-- What is known of a winner after rounding: a unit more than the floor for whoever is raised. -/
structure Rounded (market : Market) (outcome : OutcomeIndex) (winners : BTreeMap UserId Points)
    (entry base : UserId × Int64 × Int) : Prop where
  user : entry.1 = base.1
  fair : Fair market outcome base
  amount : base ∈ (ranked market.totalStaked.toInt winners).take (leftover market.totalStaked.toInt winners) ∧
      entry.2.1.toInt = base.2.1.toInt + 1 ∨
    base ∈ (ranked market.totalStaked.toInt winners).drop (leftover market.totalStaked.toInt winners) ∧
      entry.2.1.toInt = base.2.1.toInt

theorem rounded_fair (computed : stakes market (some outcome) = .ok winners) (nonempty : winners.isEmpty = false)
    (positive : PositiveTotals winners (fun _ => True)) (covered : sumPoints winners ≤ market.totalStaked.toInt)
    {entry : UserId × Int64 × Int} (listed : entry ∈ rounded market.totalStaked.toInt winners) :
    ∃ base, Rounded market outcome winners entry base := by
  rcases mem_rounded listed with ⟨base, present, user, _, ⟨taken, rfl⟩ | ⟨dropped, rfl⟩⟩
  · have fair := floors_fair computed nonempty positive covered present
    have bounds := raised_bounds nonempty positive covered market.totalStaked.toInt_le_max taken
    refine ⟨base, user, fair, .inl ⟨taken, ?_⟩⟩
    exact toInt_ofInt_of_max (by omega) bounds.2
  · exact ⟨entry, rfl, floors_fair computed nonempty positive covered present, .inr ⟨dropped, rfl⟩⟩

theorem fairShare_lt {first second : UserId} (pool : 0 < market.totalStaked.toInt)
    (whole : 0 < winningStake market.bets outcome)
    (less : stakeOf market.bets (first, outcome) < stakeOf market.bets (second, outcome)) :
    fairShare market outcome first < fairShare market outcome second ∨
      fairShare market outcome first = fairShare market outcome second ∧
        fairRemainder market outcome first < fairRemainder market outcome second := by
  have product : market.totalStaked.toInt * stakeOf market.bets (first, outcome) <
      market.totalStaked.toInt * stakeOf market.bets (second, outcome) := Int.mul_lt_mul_of_pos_left less pool
  have floors : fairShare market outcome first ≤ fairShare market outcome second :=
    Int.ediv_le_ediv whole product.le
  rcases floors.lt_or_eq with smaller | same
  · exact .inl smaller
  · refine .inr ⟨same, ?_⟩
    have left := Int.mul_ediv_add_emod (market.totalStaked.toInt * stakeOf market.bets (first, outcome))
      (winningStake market.bets outcome)
    have right := Int.mul_ediv_add_emod (market.totalStaked.toInt * stakeOf market.bets (second, outcome))
      (winningStake market.bets outcome)
    unfold fairShare at same
    unfold fairRemainder
    rw [same] at left
    omega

theorem Rounded.ranked_before {a b first second : UserId × Int64 × Int} (left : Rounded market outcome winners a first)
    (right : Rounded market outcome winners b second) (raised : a.2.1.toInt = fairShare market outcome a.1 + 1)
    (kept : b.2.1.toInt = fairShare market outcome b.1) :
    fairRemainder market outcome b.1 < fairRemainder market outcome a.1 ∨
      fairRemainder market outcome a.1 = fairRemainder market outcome b.1 ∧ compare a.1 b.1 = .lt := by
  have leftAmount := left.fair.amount
  have rightAmount := right.fair.amount
  rw [left.user] at raised ⊢
  rw [right.user] at kept ⊢
  rcases left.amount with ⟨taken, _⟩ | ⟨_, same⟩
  · rcases right.amount with ⟨_, more⟩ | ⟨dropped, _⟩
    · omega
    · rcases PredictionBot.ranked_before taken dropped with ⟨different, larger | ⟨equal, ordered⟩⟩
      · rw [left.fair.remainder, right.fair.remainder] at larger
        exact .inl larger
      · rw [left.fair.remainder, right.fair.remainder] at equal
        exact .inr ⟨equal, lt_of_userOrder ordered different⟩
  · omega

theorem Rounded.monotone {a b first second : UserId × Int64 × Int} (left : Rounded market outcome winners a first)
    (right : Rounded market outcome winners b second) (pool : 0 < market.totalStaked.toInt)
    (whole : 0 < winningStake market.bets outcome)
    (less : stakeOf market.bets (a.1, outcome) < stakeOf market.bets (b.1, outcome)) :
    a.2.1.toInt ≤ b.2.1.toInt := by
  have leftAmount := left.fair.amount
  have rightAmount := right.fair.amount
  rw [left.user, right.user] at less
  rcases fairShare_lt pool whole less with smaller | ⟨same, remainder⟩
  · rcases left.amount with ⟨_, more⟩ | ⟨_, more⟩ <;> rcases right.amount with ⟨_, amount⟩ | ⟨_, amount⟩ <;> omega
  · rcases left.amount with ⟨taken, more⟩ | ⟨_, more⟩
    · rcases right.amount with ⟨_, amount⟩ | ⟨dropped, amount⟩
      · omega
      · -- only a larger remainder is raised before this one
        rcases PredictionBot.ranked_before taken dropped with ⟨_, larger | ⟨equal, _⟩⟩
        · rw [left.fair.remainder, right.fair.remainder] at larger
          omega
        · rw [left.fair.remainder, right.fair.remainder] at equal
          omega
    · rcases right.amount with ⟨_, amount⟩ | ⟨_, amount⟩ <;> omega

theorem mem_payouts {pool : Int} {entry : Allocation} :
    entry ∈ ((rounded pool winners).insertionSort userOrder).map (fun entry => ⟨entry.1, ⟨entry.2.1⟩⟩) ↔
      ∃ settled ∈ rounded pool winners, (⟨settled.1, ⟨settled.2.1⟩⟩ : Allocation) = entry := by
  simp only [List.mem_map, List.mem_insertionSort]

theorem rounded_sorted (pool : Int) (winners : BTreeMap UserId Points) :
    (((rounded pool winners).insertionSort userOrder).map fun entry => (⟨entry.1, ⟨entry.2.1⟩⟩ : Allocation)).Pairwise
      fun a b => compare a.userId b.userId = .lt := by
  have sorted := List.pairwise_insertionSort userOrder (rounded pool winners)
  have users : (((rounded pool winners).insertionSort userOrder).map Prod.fst).Nodup := by
    apply ((List.perm_insertionSort userOrder (rounded pool winners)).map Prod.fst).nodup_iff.mpr
    rw [rounded_users]
    exact nodup_ranked pool winners
  have different : ((rounded pool winners).insertionSort userOrder).Pairwise fun a b => a.1 ≠ b.1 :=
    List.pairwise_map.mp users
  rw [List.pairwise_map]
  apply (sorted.and different).imp
  intro a b both
  exact lt_of_userOrder both.1 both.2

theorem apportioned (computed : stakes market (some outcome) = .ok winners)
    (nonempty : winners.isEmpty = false) (positive : PositiveTotals winners (fun _ => True))
    (covered : sumPoints winners ≤ market.totalStaked.toInt) :
    Apportioned market outcome (((rounded market.totalStaked.toInt winners).insertionSort userOrder).map
      fun entry => ⟨entry.1, ⟨entry.2.1⟩⟩) := by
  have whole : 0 < sumPoints winners := positive.sum_pos nonempty
  have winning : 0 < winningStake market.bets outcome := by
    rw [← show sumPoints winners = winningStake market.bets outcome from stakes_total computed]
    exact whole
  have pool : 0 < market.totalStaked.toInt := whole.trans_le covered
  have fair := @rounded_fair market outcome winners computed nonempty positive covered
  rcases payouts_to_winners nonempty positive computed covered with ⟨entries, paid, pays⟩
  rw [payouts_rounded nonempty positive computed covered] at paid
  cases paid
  refine ⟨rounded_sorted _ winners, ?_, ?_, pays.whole, ?_, ?_, ?_⟩
  · intro user
    rw [← winners_isSome computed]
    have listed := pays.users.mem_iff (a := user)
    rw [BTreeMap.mem_keys, List.mem_map] at listed
    rw [listed, Option.isSome_iff_exists]
  · intro entry member
    rcases mem_payouts.mp member with ⟨settled, present, rfl⟩
    rcases fair present with ⟨base, known⟩
    have amount := known.fair.amount
    show settled.2.1.toInt = fairShare market outcome settled.1 ∨
      settled.2.1.toInt = fairShare market outcome settled.1 + 1
    rw [known.user]
    rcases known.amount with ⟨_, more⟩ | ⟨_, same⟩
    · exact .inr (by omega)
    · exact .inl (by omega)
  · intro entry member
    rcases pays.covers entry member with ⟨stake, found, enough⟩
    rw [← winners_lookup computed found]
    exact enough
  · intro a first b second less
    rcases mem_payouts.mp first with ⟨left, leftMember, rfl⟩
    rcases mem_payouts.mp second with ⟨right, rightMember, rfl⟩
    rcases fair leftMember with ⟨leftBase, leftKnown⟩
    rcases fair rightMember with ⟨rightBase, rightKnown⟩
    exact leftKnown.monotone rightKnown pool winning less
  · intro a first b second raised kept
    rcases mem_payouts.mp first with ⟨left, leftMember, rfl⟩
    rcases mem_payouts.mp second with ⟨right, rightMember, rfl⟩
    rcases fair leftMember with ⟨leftBase, leftKnown⟩
    rcases fair rightMember with ⟨rightBase, rightKnown⟩
    exact leftKnown.ranked_before rightKnown raised kept

theorem Market.Sound.pool_eq {other : Market} (sound : market.Sound) (others : other.Sound)
    (same : ∀ key, stakeOf other.bets key = stakeOf market.bets key) : other.totalStaked = market.totalStaked := by
  have first : ∀ bet ∈ market.bets, bet.key ∈ ((market.bets ++ other.bets).map Bet.key).toFinset := by
    intro bet member
    exact List.mem_toFinset.mpr (List.mem_map_of_mem (List.mem_append_left _ member))
  have second : ∀ bet ∈ other.bets, bet.key ∈ ((market.bets ++ other.bets).map Bet.key).toFinset := by
    intro bet member
    exact List.mem_toFinset.mpr (List.mem_map_of_mem (List.mem_append_right _ member))
  have values : other.totalStaked.toInt = market.totalStaked.toInt := by
    rw [sound.staked, others.staked, ← sum_stakeOf first, ← sum_stakeOf second]
    apply Finset.sum_congr rfl
    intro key _
    exact same key
  cases left : other.totalStaked
  cases right : market.totalStaked
  rw [left, right] at values
  congr 1
  exact Int64.toInt_inj.mp values

theorem payouts_congr (sound : market.Sound) (won : ∃ bet ∈ market.bets, bet.outcome = outcome) {other : Market}
    (others : other.Sound) (same : ∀ key, stakeOf other.bets key = stakeOf market.bets key) :
    payouts other outcome = payouts market outcome := by
  rcases sound.has_winners won with ⟨winners, computed, nonempty, positive, _, covered⟩
  rcases @stakes_ok other (fun _ => True) others.staked (fun bet member => ⟨others.positive bet member, trivial⟩)
      (some outcome) with ⟨totals, again, _⟩
  have equal := winners_eq sound others computed again same
  subst equal
  have pools := sound.pool_eq others same
  rw [payouts_rounded nonempty positive computed covered]
  rw [payouts_rounded nonempty positive again (by rw [pools]; exact covered), pools]

/-- A settlement with winners apportions the pool by the largest remainders, and only the users' totals count. -/
theorem payouts_are_the_largest_remainders (sound : market.Sound)
    (won : ∃ bet ∈ market.bets, bet.outcome = outcome) :
    (∃ entries, payouts market outcome = .ok (entries, false) ∧ Apportioned market outcome entries) ∧
      (∀ other : Market, other.Sound → (∀ key, stakeOf other.bets key = stakeOf market.bets key) →
        payouts other outcome = payouts market outcome) ∧
      ∀ other : Market, other.Sound → Rearranged market.bets other.bets →
        payouts other outcome = payouts market outcome := by
  rcases sound.has_winners won with ⟨winners, computed, nonempty, positive, _, covered⟩
  refine ⟨⟨_, payouts_rounded nonempty positive computed covered,
    apportioned computed nonempty positive covered⟩, ?_, ?_⟩
  · intro other others same
    exact payouts_congr sound won others same
  · intro other others rearranged
    exact payouts_congr sound won others fun key => (rearranged.stakeOf key).symm

end Apportionment

def smallMarket : Market :=
  { creator := ⟨1⟩, question := "Rain?", options := ["yes", "no"], createdAt := 0, closesAt := 1, status := .opened
    bets := [⟨⟨7⟩, ⟨0⟩, ⟨1⟩⟩, ⟨⟨5⟩, ⟨0⟩, ⟨1⟩⟩, ⟨⟨4⟩, ⟨1⟩, ⟨1⟩⟩, ⟨⟨6⟩, ⟨0⟩, ⟨1⟩⟩]
    totalStaked := ⟨4⟩, payouts := [], resolvers := ∅ }

theorem payouts_are_the_largest_remainders_small :
    payouts smallMarket ⟨0⟩ = .ok ([⟨⟨5⟩, ⟨2⟩⟩, ⟨⟨6⟩, ⟨1⟩⟩, ⟨⟨7⟩, ⟨1⟩⟩], false) ∧
      (∃ entries, payouts smallMarket ⟨0⟩ = .ok (entries, false) ∧ Apportioned smallMarket ⟨0⟩ entries) ∧
      (∀ other : Market, other.Sound → (∀ key, stakeOf other.bets key = stakeOf smallMarket.bets key) →
        payouts other ⟨0⟩ = payouts smallMarket ⟨0⟩) ∧
      ∀ other : Market, other.Sound → Rearranged smallMarket.bets other.bets →
        payouts other ⟨0⟩ = payouts smallMarket ⟨0⟩ := by
  have sound : smallMarket.Sound := ⟨by decide +kernel, by decide +kernel⟩
  have won : ∃ bet ∈ smallMarket.bets, bet.outcome = ⟨0⟩ := ⟨⟨⟨7⟩, ⟨0⟩, ⟨1⟩⟩, by decide +kernel, rfl⟩
  exact ⟨by decide +kernel, payouts_are_the_largest_remainders sound won⟩

end PredictionBot

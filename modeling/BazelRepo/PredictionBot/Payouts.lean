import BazelRepo.Library.Apportionment
import BazelRepo.PredictionBot.Conservation

namespace PredictionBot

open Library

def i64Max : Int := 2^63 - 1

theorem checkedPointsAdd_of_bounds {a b : Points} (lower : -2^63 ≤ a.toInt + b.toInt)
    (upper : a.toInt + b.toInt ≤ i64Max) :
    ∃ c, checkedPointsAdd a b = .ok c ∧ c.toInt = a.toInt + b.toInt := by
  obtain ⟨value, converted, same⟩ := tryFrom_of_bounds lower (by unfold i64Max at upper; omega)
  have sum : (⟨value⟩ : Points).toInt = a.toInt + b.toInt := same
  exact ⟨⟨value⟩, checkedPointsAdd_eq_ok.mpr sum, sum⟩

theorem checkedPointsAdd_overflow {a b : Points} (above : i64Max < a.toInt + b.toInt) :
    checkedPointsAdd a b = .error .overflow := by
  have absent : Library.checkedAdd a.val b.val = none :=
    tryFrom_eq_none.mpr (.inr (by unfold i64Max Points.toInt at above; omega))
  simp [checkedPointsAdd, checkedAdd, absent, okOr, Except.map]

def Enrolled (accounts : BTreeMap UserId Account) (user : UserId) : Prop :=
  ∃ account, accounts[user]? = some account

/-- What every stake of every market satisfies: it is positive and its member has an account. -/
def StakesEnrolled (state : State) : Prop :=
  ∀ (id : MarketId) (market : Market), state.markets[id]? = some market →
    ∀ bet ∈ market.bets, 0 < bet.amount.toInt ∧ Enrolled state.accounts bet.userId

theorem Enrolled.insert {accounts : BTreeMap UserId Account} {user other : UserId} {account : Account}
    (enrolled : Enrolled accounts user) : Enrolled (accounts.insert other account) user := by
  unfold Enrolled
  rw [BTreeMap.getElem?_insert_eq]
  split
  · exact ⟨account, rfl⟩
  · exact enrolled

theorem Enrolled.credited {entries : List Allocation} {accounts result : BTreeMap UserId Account}
    {user : UserId} (enrolled : Enrolled accounts user)
    (run : creditAllocations accounts entries = .ok result) : Enrolled result user := by
  refine foldlM_invariant (P := fun accounts => Enrolled accounts user) ?_ entries accounts result enrolled run
  intro before entry after holds step
  obtain ⟨account, balance, _, _, rfl⟩ := creditAllocation_eq_ok.mp step
  exact holds.insert

theorem StakesEnrolled.update {state : State} {id : MarketId} {market : Market}
    {accounts : BTreeMap UserId Account} {policy : Option Policy} (stakes : StakesEnrolled state)
    (kept : ∀ user, Enrolled state.accounts user → Enrolled accounts user)
    (fresh : ∀ bet ∈ market.bets, 0 < bet.amount.toInt ∧ Enrolled accounts bet.userId) :
    StakesEnrolled ⟨policy, accounts, state.markets.insert id market⟩ := by
  intro other stored found bet member
  rw [BTreeMap.getElem?_insert_eq] at found
  split at found
  · cases found
    exact fresh bet member
  · obtain ⟨positive, enrolled⟩ := stakes other stored found bet member
    exact ⟨positive, kept _ enrolled⟩

theorem StakesEnrolled.same_bets {state : State} {id : MarketId} {old market : Market}
    {accounts : BTreeMap UserId Account} {policy : Option Policy} (stakes : StakesEnrolled state)
    (kept : ∀ user, Enrolled state.accounts user → Enrolled accounts user)
    (found : state.markets[id]? = some old) (bets : market.bets = old.bets) :
    StakesEnrolled ⟨policy, accounts, state.markets.insert id market⟩ := by
  refine stakes.update kept ?_
  rw [bets]
  intro bet member
  obtain ⟨positive, enrolled⟩ := stakes id old found bet member
  exact ⟨positive, kept _ enrolled⟩

theorem StakesEnrolled.accounts {state : State} {accounts : BTreeMap UserId Account} {policy : Option Policy}
    (stakes : StakesEnrolled state) (kept : ∀ user, Enrolled state.accounts user → Enrolled accounts user) :
    StakesEnrolled ⟨policy, accounts, state.markets⟩ := by
  intro id market found bet member
  obtain ⟨positive, enrolled⟩ := stakes id market found bet member
  exact ⟨positive, kept _ enrolled⟩

theorem applyInner_stakes [Lowercase] {state result : State} {event : Event}
    (stakes : StakesEnrolled state) (applied : applyInner state event = .ok result) :
    StakesEnrolled result := by
  cases event with
  | announcementsEnabled channelId moderator enabledAt =>
    obtain ⟨_, _, stored⟩ := bind_eq_ok.mp applied
    cases stored
    exact stakes
  | guildEconomyInitialized amount interval =>
    obtain ⟨_, _, _, rfl⟩ := applyInitialization_inv applied
    exact stakes
  | memberEnrolled userId enrolledAt =>
    obtain ⟨_, _, _, rfl⟩ := applyEnrollment_inv applied
    exact stakes.accounts fun _ enrolled => enrolled.insert
  | pointsGranted userId reason amount fromDue throughDue nextGrant =>
    obtain ⟨_, _, _, _, _, _, _, rfl⟩ := applyGrant_inv applied
    exact stakes.accounts fun _ enrolled => enrolled.insert
  | marketCreated id creator question options createdAt closesAt =>
    obtain ⟨_, rfl⟩ := applyMarketCreation_inv applied
    exact stakes.update (fun _ enrolled => enrolled) (by simp)
  | betPlaced id userId outcome amount acceptedAt =>
    obtain ⟨market, account, _, found, _, member, positive, _, _, rfl⟩ := applyBet_inv applied
    refine stakes.update (fun _ enrolled => enrolled.insert) ?_
    intro bet placed
    rcases List.mem_append.mp placed with earlier | latest
    · obtain ⟨stake, enrolled⟩ := stakes id market found bet earlier
      exact ⟨stake, enrolled.insert⟩
    · cases List.mem_singleton.mp latest
      exact ⟨positive, Enrolled.insert ⟨account, member⟩⟩
  | marketResolved id outcome resolver settledAt payouts refunded =>
    obtain ⟨_, _, _, found, _, _, _, credited, rfl⟩ := applyResolution_inv applied
    exact stakes.same_bets (fun _ enrolled => enrolled.credited credited) found rfl
  | marketResolverAdded id userId addedBy addedAt =>
    obtain ⟨_, found, _, rfl⟩ := applyResolverAdded_inv applied
    exact stakes.same_bets (fun _ enrolled => enrolled) found rfl
  | marketResolverRemoved id userId removedBy removedAt =>
    obtain ⟨_, found, _, rfl⟩ := applyResolverRemoved_inv applied
    exact stakes.same_bets (fun _ enrolled => enrolled) found rfl
  | marketCancelled id moderator cancelledAt refunds =>
    obtain ⟨_, _, _, found, _, _, _, credited, rfl⟩ := applyCancellation_inv applied
    exact stakes.same_bets (fun _ enrolled => enrolled.credited credited) found rfl

theorem replay_stakes [Lowercase] {events : List Event} {state : State}
    (reached : replay events = .ok state) : StakesEnrolled state := by
  refine foldlM_invariant (P := StakesEnrolled) (fun _ _ _ stakes step => applyInner_stakes stakes step)
    events {} state ?_ reached
  intro id market found
  simp at found

def PositiveTotals (totals : BTreeMap UserId Points) (member : UserId → Prop) : Prop :=
  ∀ (user : UserId) (points : Points), totals[user]? = some points → 0 < points.toInt ∧ member user

theorem PositiveTotals.nonneg {totals : BTreeMap UserId Points} {member : UserId → Prop}
    (positive : PositiveTotals totals member) (user : UserId) (points : Points)
    (found : totals[user]? = some points) : 0 ≤ points.toInt :=
  (positive user points found).1.le

theorem PositiveTotals.getD_le {totals : BTreeMap UserId Points} {member : UserId → Prop}
    (positive : PositiveTotals totals member) (user : UserId) :
    0 ≤ (totals[user]?.getD ⟨0⟩).toInt ∧ (totals[user]?.getD ⟨0⟩).toInt ≤ sumPoints totals := by
  have nonneg : ∀ (user : UserId) (points : Points), totals[user]? = some points → 0 ≤ points.toInt :=
    positive.nonneg
  cases found : totals[user]? with
  | none =>
    have empty : (⟨0⟩ : Points).toInt = 0 := rfl
    refine ⟨empty.ge, ?_⟩
    rw [Option.getD_none, empty]
    refine List.sum_nonneg ?_
    intro x listed
    obtain ⟨⟨other, points⟩, present, rfl⟩ := List.mem_map.mp listed
    exact nonneg other points (BTreeMap.mem_toList.mp present)
  | some points =>
    exact ⟨nonneg user points found, BTreeMap.le_total (f := fun _ points => points.toInt) nonneg found⟩

theorem sumBets_nonneg {bets : List Bet} (positive : ∀ bet ∈ bets, 0 < bet.amount.toInt) : 0 ≤ sumBets bets := by
  refine List.sum_nonneg ?_
  intro x listed
  obtain ⟨bet, member, rfl⟩ := List.mem_map.mp listed
  exact (positive bet member).le

theorem foldlM_addStake_ok {outcome : Option OutcomeIndex} {member : UserId → Prop} :
    ∀ {bets : List Bet} (totals : BTreeMap UserId Points), PositiveTotals totals member →
      (∀ bet ∈ bets, 0 < bet.amount.toInt ∧ member bet.userId) →
      sumPoints totals + sumBets bets ≤ i64Max →
      ∃ result, bets.foldlM (addStake outcome) totals = .ok result ∧ PositiveTotals result member := by
  intro bets
  induction bets with
  | nil =>
    intro totals positive _ _
    exact ⟨totals, rfl, positive⟩
  | cons bet rest ih =>
    intro totals positive stakes fits
    obtain ⟨amount, enrolled⟩ := stakes bet List.mem_cons_self
    have later := fun other present => stakes other (List.mem_cons_of_mem bet present)
    have remaining := sumBets_nonneg fun other present => (later other present).1
    have expand : sumBets (bet :: rest) = bet.amount.toInt + sumBets rest := by simp [sumBets]
    rw [expand] at fits
    by_cases chosen : outcome = none ∨ outcome = some bet.outcome
    · obtain ⟨lower, upper⟩ := positive.getD_le bet.userId
      obtain ⟨sum, added, value⟩ := checkedPointsAdd_of_bounds
        (a := totals[bet.userId]?.getD ⟨0⟩) (b := bet.amount) (by omega) (by omega)
      have moved := sumPoints_insert totals bet.userId sum
      obtain ⟨result, run, kept⟩ := ih (totals.insert bet.userId sum) (by
        intro user points found
        rw [BTreeMap.getElem?_insert_eq] at found
        split at found
        · rename_i same
          cases found
          exact ⟨by omega, same ▸ enrolled⟩
        · exact positive user points found) later (by omega)
      refine ⟨result, ?_, kept⟩
      rw [List.foldlM_cons, addStake, if_pos chosen, added]
      exact run
    · obtain ⟨result, run, kept⟩ := ih totals positive later (by omega)
      refine ⟨result, ?_, kept⟩
      rw [List.foldlM_cons, addStake, if_neg chosen]
      exact run

theorem Points.toInt_le_max (points : Points) : points.toInt ≤ i64Max := by
  have bound := points.val.toInt_lt
  unfold Points.toInt i64Max
  omega

theorem stakes_ok {market : Market} {member : UserId → Prop}
    (staked : market.totalStaked.toInt = sumBets market.bets)
    (positive : ∀ bet ∈ market.bets, 0 < bet.amount.toInt ∧ member bet.userId)
    (outcome : Option OutcomeIndex) :
    ∃ totals, stakes market outcome = .ok totals ∧ PositiveTotals totals member := by
  refine foldlM_addStake_ok ∅ ?_ positive ?_
  · intro user points found
    simp at found
  · have bound := market.totalStaked.toInt_le_max
    have empty : sumPoints ∅ = 0 := BTreeMap.total_empty _
    omega

theorem sumBets_selected_le {bets : List Bet} {outcome : Option OutcomeIndex}
    (positive : ∀ bet ∈ bets, 0 < bet.amount.toInt) : sumBets (selected bets outcome) ≤ sumBets bets := by
  induction bets with
  | nil => simp [selected]
  | cons bet rest ih =>
    have first := positive bet List.mem_cons_self
    have later := ih fun other member => positive other (List.mem_cons_of_mem _ member)
    simp only [selected, List.filter_cons, sumBets] at later ⊢
    split <;> simp only [List.map_cons, List.sum_cons] <;> omega

def share (totalPool totalWinningStake : Int) (winner : UserId × Points) : UserId × Int64 × Int :=
  (winner.1,
    Int64.ofInt (floorShare totalPool totalWinningStake (fun winner => winner.2.toInt) winner),
    totalPool * winner.2.toInt % totalWinningStake)

def raise (entry : UserId × Int64 × Int) : UserId × Int64 × Int :=
  (entry.1, Int64.ofInt (entry.2.1.toInt + 1), entry.2.2)

theorem toInt_ofInt_of_max {i : Int} (nonneg : 0 ≤ i) (bound : i ≤ i64Max) : (Int64.ofInt i).toInt = i := by
  unfold i64Max at bound
  exact Int64.toInt_ofInt_of_le (by omega) (by omega)

theorem baseEntry_eq_share {totalPool totalWinningStake : Int} {winner : UserId × Points}
    (pool : 0 ≤ totalPool) (stake : 0 ≤ winner.2.toInt)
    (nonneg : 0 ≤ floorShare totalPool totalWinningStake (fun winner : UserId × Points => winner.2.toInt) winner)
    (bound : floorShare totalPool totalWinningStake (fun winner : UserId × Points => winner.2.toInt) winner ≤
      i64Max) :
    baseEntry totalPool totalWinningStake winner = .ok (share totalPool totalWinningStake winner) := by
  have numerator : 0 ≤ totalPool * winner.2.toInt := mul_nonneg pool stake
  have quotient : (totalPool * winner.2.val.toInt).tdiv totalWinningStake =
      floorShare totalPool totalWinningStake (fun winner : UserId × Points => winner.2.toInt) winner :=
    Int.tdiv_eq_ediv_of_nonneg numerator
  have remainder : (totalPool * winner.2.val.toInt).tmod totalWinningStake =
      totalPool * winner.2.toInt % totalWinningStake := Int.tmod_eq_emod_of_nonneg numerator
  have converted : tryFrom (floorShare totalPool totalWinningStake (fun winner => winner.2.toInt) winner) =
      some (Int64.ofInt (floorShare totalPool totalWinningStake (fun winner => winner.2.toInt) winner)) :=
    tryFrom_eq_some.mpr (toInt_ofInt_of_max nonneg bound)
  simp only [baseEntry, quotient, remainder, converted, okOr, ok_bind]
  rfl

theorem raiseEntry_eq_raise {entry : UserId × Int64 × Int} (nonneg : 0 ≤ entry.2.1.toInt)
    (bound : entry.2.1.toInt + 1 ≤ i64Max) : raiseEntry entry = .ok (raise entry) := by
  have one : (1 : Int64).toInt = 1 := rfl
  have added : Library.checkedAdd entry.2.1 1 = some (Int64.ofInt (entry.2.1.toInt + 1)) :=
    checkedAdd_eq_some.mpr (by rw [toInt_ofInt_of_max (by omega) bound, one])
  simp only [raiseEntry, checkedAdd, added, okOr, ok_bind]
  rfl

def sumEntries (entries : List (UserId × Int64 × Int)) : Int := (entries.map (fun entry => entry.2.1.toInt)).sum

theorem sumEntries_perm {left right : List (UserId × Int64 × Int)} (perm : left.Perm right) :
    sumEntries left = sumEntries right :=
  (perm.map _).sum_eq

theorem sumEntries_raise {entries : List (UserId × Int64 × Int)}
    (bounds : ∀ entry ∈ entries, 0 ≤ entry.2.1.toInt ∧ entry.2.1.toInt + 1 ≤ i64Max) :
    sumEntries (entries.map raise) = sumEntries entries + entries.length := by
  induction entries with
  | nil => rfl
  | cons entry rest ih =>
    obtain ⟨nonneg, bound⟩ := bounds entry List.mem_cons_self
    have later := ih fun other member => bounds other (List.mem_cons_of_mem _ member)
    have first : (raise entry).2.1.toInt = entry.2.1.toInt + 1 :=
      toInt_ofInt_of_max (by omega) bound
    simp only [sumEntries, List.map_cons, List.sum_cons, List.length_cons] at later ⊢
    rw [later, first]
    push_cast
    omega

/-- What a payout list promises: one allocation for each winner, none below the stake, all of the pool. -/
structure PaysWinners (winners : BTreeMap UserId Points) (pool : Int) (entries : List Allocation) : Prop where
  users : (entries.map Allocation.userId).Perm (winners.toList.map Prod.fst)
  covers : ∀ entry ∈ entries, ∃ stake, winners[entry.userId]? = some stake ∧ stake.toInt ≤ entry.amount.toInt
  whole : sumAmounts entries = pool

/-- Rounding: the floors, a unit more for the first ranks, and the order of the users restored. -/
theorem settled_entries {entries ranked raised : List (UserId × Int64 × Int)} {remainder : Nat}
    (floor : UserId × Int64 × Int → Prop) (ranks : ranked.Perm entries)
    (short : remainder ≤ entries.length)
    (bounds : ∀ entry ∈ ranked.take remainder, 0 ≤ entry.2.1.toInt ∧ entry.2.1.toInt + 1 ≤ i64Max)
    (base : ∀ entry ∈ entries, floor entry) (above : ∀ entry, 0 ≤ entry.2.1.toInt →
      entry.2.1.toInt + 1 ≤ i64Max → floor entry → floor (raise entry))
    (computed : raised = (ranked.take remainder).map raise) :
    ((raised ++ ranked.drop remainder).map Prod.fst).Perm (entries.map Prod.fst) ∧
      (∀ entry ∈ raised ++ ranked.drop remainder, floor entry) ∧
      sumEntries (raised ++ ranked.drop remainder) = sumEntries entries + remainder := by
  subst computed
  refine ⟨?_, ?_, ?_⟩
  · have keys : ((ranked.take remainder).map raise ++ ranked.drop remainder).map Prod.fst =
        ranked.map Prod.fst := by
      rw [List.map_append, List.map_map]
      have same : Prod.fst ∘ raise = (Prod.fst : UserId × Int64 × Int → UserId) := rfl
      rw [same, ← List.map_append, List.take_append_drop]
    rw [keys]
    exact ranks.map _
  · intro entry member
    rcases List.mem_append.mp member with lifted | kept
    · obtain ⟨original, taken, rfl⟩ := List.mem_map.mp lifted
      obtain ⟨nonneg, bound⟩ := bounds original taken
      exact above original nonneg bound (base original (ranks.subset (List.mem_of_mem_take taken)))
    · exact base entry (ranks.subset (List.mem_of_mem_drop kept))
  · have split : sumEntries ranked =
        sumEntries (ranked.take remainder) + sumEntries (ranked.drop remainder) := by
      conv_lhs => rw [← List.take_append_drop remainder ranked]
      simp [sumEntries]
    have length : (ranked.take remainder).length = remainder := by
      rw [List.length_take, ranks.length_eq]
      omega
    have joined : sumEntries ((ranked.take remainder).map raise ++ ranked.drop remainder) =
        sumEntries ((ranked.take remainder).map raise) + sumEntries (ranked.drop remainder) := by
      simp [sumEntries]
    rw [joined, sumEntries_raise bounds, length, ← sumEntries_perm ranks, split]
    omega

/-- The entries before rounding: each winner's floor, together short of the pool by a unit each at most. -/
structure BaseEntries (winners : BTreeMap UserId Points) (pool : Int)
    (entries : List (UserId × Int64 × Int)) : Prop where
  computed : winners.toList.mapM (baseEntry pool (sumPoints winners)) = .ok entries
  users : entries.map Prod.fst = winners.toList.map Prod.fst
  nonneg : ∀ entry ∈ entries, 0 ≤ entry.2.1.toInt
  covers : ∀ entry ∈ entries, ∃ stake, winners[entry.1]? = some stake ∧ stake.toInt ≤ entry.2.1.toInt
  under : sumEntries entries ≤ pool
  short : pool - sumEntries entries ≤ entries.length

theorem PositiveTotals.sum_pos {winners : BTreeMap UserId Points} {member : UserId → Prop}
    (positive : PositiveTotals winners member) (nonempty : winners.isEmpty = false) : 0 < sumPoints winners := by
  refine List.sum_pos _ ?_ ?_
  · intro x listed
    obtain ⟨⟨user, points⟩, present, rfl⟩ := List.mem_map.mp listed
    exact (positive user points (BTreeMap.mem_toList.mp present)).1
  · intro none
    rw [List.map_eq_nil_iff, Std.ExtTreeMap.toList_eq_nil_iff] at none
    rw [none] at nonempty
    simp at nonempty

def floors (pool : Int) (winners : BTreeMap UserId Points) : List (UserId × Int64 × Int) :=
  winners.toList.map (share pool (sumPoints winners))

def ranked (pool : Int) (winners : BTreeMap UserId Points) : List (UserId × Int64 × Int) :=
  (floors pool winners).insertionSort remainderOrder

def leftover (pool : Int) (winners : BTreeMap UserId Points) : Nat :=
  (pool - sumEntries (floors pool winners)).toNat

def rounded (pool : Int) (winners : BTreeMap UserId Points) : List (UserId × Int64 × Int) :=
  ((ranked pool winners).take (leftover pool winners)).map raise ++
    (ranked pool winners).drop (leftover pool winners)

section Floors

variable {winners : BTreeMap UserId Points} {pool : Int} {member : UserId → Prop}
  (nonempty : winners.isEmpty = false) (positive : PositiveTotals winners member)
  (covered : sumPoints winners ≤ pool) (upper : pool ≤ i64Max)

include nonempty positive covered upper

theorem floor_bounds : ∀ winner ∈ winners.toList,
    0 ≤ floorShare pool (sumPoints winners) (fun winner => winner.2.toInt) winner ∧
      floorShare pool (sumPoints winners) (fun winner => winner.2.toInt) winner ≤ i64Max := by
  have whole := positive.sum_pos nonempty
  have poolNonneg : 0 ≤ pool := le_trans whole.le covered
  have floorNonneg : ∀ winner ∈ winners.toList,
      0 ≤ floorShare pool (sumPoints winners) (fun winner => winner.2.toInt) winner := by
    rintro ⟨user, points⟩ listed
    exact floorShare_nonneg poolNonneg (positive user points (BTreeMap.mem_toList.mp listed)).1.le whole
  have floorSum : (winners.toList.map
      (floorShare pool (sumPoints winners) (fun winner => winner.2.toInt))).sum ≤ pool := sum_floorShare_le whole
  intro winner listed
  exact ⟨floorNonneg winner listed,
    le_trans (floorShare_le_sum floorNonneg listed) (le_trans floorSum upper)⟩

theorem share_value : ∀ winner ∈ winners.toList, (share pool (sumPoints winners) winner).2.1.toInt =
    floorShare pool (sumPoints winners) (fun winner => winner.2.toInt) winner := by
  intro winner listed
  have bounds := floor_bounds nonempty positive covered upper winner listed
  exact toInt_ofInt_of_max bounds.1 bounds.2

theorem base_entries : BaseEntries winners pool (floors pool winners) := by
  have whole := positive.sum_pos nonempty
  have poolNonneg : 0 ≤ pool := le_trans whole.le covered
  have stake : ∀ winner ∈ winners.toList, 0 < winner.2.toInt := by
    rintro ⟨user, points⟩ listed
    exact (positive user points (BTreeMap.mem_toList.mp listed)).1
  have bounds := floor_bounds nonempty positive covered upper
  have shareValue := share_value nonempty positive covered upper
  have floorSum : (winners.toList.map
      (floorShare pool (sumPoints winners) (fun winner => winner.2.toInt))).sum ≤ pool := sum_floorShare_le whole
  have units : pool - (winners.toList.map
      (floorShare pool (sumPoints winners) (fun winner => winner.2.toInt))).sum ≤ winners.toList.length :=
    leftover_le_length whole
  have sum : sumEntries (floors pool winners) =
      (winners.toList.map (floorShare pool (sumPoints winners) (fun winner => winner.2.toInt))).sum := by
    unfold sumEntries floors
    rw [List.map_map]
    exact congrArg List.sum (List.map_congr_left shareValue)
  refine ⟨?_, ?_, ?_, ?_, ?_, ?_⟩
  · exact mapM_eq_ok_map fun winner listed => baseEntry_eq_share poolNonneg (stake winner listed).le
      (bounds winner listed).1 (bounds winner listed).2
  · unfold floors
    rw [List.map_map]
    rfl
  · intro entry listed
    obtain ⟨winner, present, rfl⟩ := List.mem_map.mp listed
    rw [shareValue winner present]
    exact (bounds winner present).1
  · intro entry listed
    obtain ⟨winner, present, rfl⟩ := List.mem_map.mp listed
    refine ⟨winner.2, BTreeMap.mem_toList.mp present, ?_⟩
    rw [shareValue winner present]
    exact weight_le_floorShare (fun winner : UserId × Points => winner.2.toInt) covered
      (stake winner present).le whole
  · rw [sum]
    exact floorSum
  · unfold floors at sum ⊢
    rw [sum, List.length_map]
    exact units

end Floors

theorem le_sumEntries {entries : List (UserId × Int64 × Int)} (nonneg : ∀ entry ∈ entries, 0 ≤ entry.2.1.toInt)
    {entry : UserId × Int64 × Int} (member : entry ∈ entries) : entry.2.1.toInt ≤ sumEntries entries := by
  refine List.single_le_sum ?_ _ (List.mem_map_of_mem member)
  intro x listed
  obtain ⟨other, present, rfl⟩ := List.mem_map.mp listed
  exact nonneg other present

section Rounding

variable {winners : BTreeMap UserId Points} {pool : Int} {member : UserId → Prop}
  (nonempty : winners.isEmpty = false) (positive : PositiveTotals winners member)
  (covered : sumPoints winners ≤ pool) (upper : pool ≤ i64Max)

include nonempty positive covered upper

theorem leftover_eq : (leftover pool winners : Int) = pool - sumEntries (floors pool winners) := by
  have under := (base_entries nonempty positive covered upper).under
  unfold leftover
  omega

theorem leftover_le : leftover pool winners ≤ (floors pool winners).length := by
  have short := (base_entries nonempty positive covered upper).short
  have counted := leftover_eq nonempty positive covered upper
  omega

theorem raised_bounds {entry : UserId × Int64 × Int}
    (taken : entry ∈ (ranked pool winners).take (leftover pool winners)) :
    0 ≤ entry.2.1.toInt ∧ entry.2.1.toInt + 1 ≤ i64Max := by
  have base := base_entries nonempty positive covered upper
  have counted := leftover_eq nonempty positive covered upper
  have present := (List.perm_insertionSort remainderOrder (floors pool winners)).subset (List.mem_of_mem_take taken)
  have single := le_sumEntries base.nonneg present
  have counts : leftover pool winners ≠ 0 := by
    intro none
    rw [none, List.take_zero] at taken
    cases taken
  exact ⟨base.nonneg entry present, by omega⟩

omit covered upper in
theorem payouts_rounded {market : Market} {outcome : OutcomeIndex} (computed : stakes market (some outcome) = .ok winners)
    (covered : sumPoints winners ≤ market.totalStaked.toInt) :
    payouts market outcome = .ok (((rounded market.totalStaked.toInt winners).insertionSort userOrder).map
      fun entry => ⟨entry.1, ⟨entry.2.1⟩⟩, false) := by
  have upper := market.totalStaked.toInt_le_max
  have base := base_entries nonempty positive covered upper
  have counted := leftover_eq nonempty positive covered upper
  have whole := positive.sum_pos nonempty
  have nonneg : 0 ≤ sumEntries (floors market.totalStaked.toInt winners) := by
    refine List.sum_nonneg ?_
    intro x listed
    obtain ⟨entry, present, rfl⟩ := List.mem_map.mp listed
    exact base.nonneg entry present
  have raises : ((ranked market.totalStaked.toInt winners).take (leftover market.totalStaked.toInt winners)).mapM
      raiseEntry = .ok (((ranked market.totalStaked.toInt winners).take
        (leftover market.totalStaked.toInt winners)).map raise) := by
    apply mapM_eq_ok_map
    intro entry taken
    have bounds := raised_bounds nonempty positive covered upper taken
    exact raiseEntry_eq_raise bounds.1 bounds.2
  have taken : PredictionBot.pool market = .ok market.totalStaked := pool_eq_ok.mpr ⟨by omega, rfl⟩
  have weighed : (winners.toList.map (fun winner => winner.2.val.toInt)).sum = sumPoints winners := rfl
  have mapped : winners.toList.mapM (baseEntry market.totalStaked.val.toInt (sumPoints winners)) =
      .ok (floors market.totalStaked.toInt winners) := base.computed
  have left : market.totalStaked.val.toInt -
      ((floors market.totalStaked.toInt winners).map (fun entry => entry.2.1.toInt)).sum =
        leftover market.totalStaked.toInt winners := counted.symm
  have small : ¬ ((leftover market.totalStaked.toInt winners : Int) < 0 ∨
      2^64 ≤ (leftover market.totalStaked.toInt winners : Int)) := by
    unfold i64Max at upper
    omega
  unfold ranked at raises
  simp only [payouts, computed, ok_bind, nonempty, taken, weighed, mapped, left, if_neg small,
    Int.toNat_natCast, raises, Bool.false_eq_true, if_false]
  rfl

omit covered upper in
theorem payouts_to_winners {market : Market} {outcome : OutcomeIndex}
    (computed : stakes market (some outcome) = .ok winners)
    (covered : sumPoints winners ≤ market.totalStaked.toInt) :
    ∃ entries, payouts market outcome = .ok (entries, false) ∧
      PaysWinners winners market.totalStaked.toInt entries := by
  have upper := market.totalStaked.toInt_le_max
  have base := base_entries nonempty positive covered upper
  have counted := leftover_eq nonempty positive covered upper
  have short := leftover_le nonempty positive covered upper
  have ranks := List.perm_insertionSort remainderOrder (floors market.totalStaked.toInt winners)
  obtain ⟨keys, floors, sum⟩ := settled_entries (fun entry =>
      ∃ stake, winners[entry.1]? = some stake ∧ stake.toInt ≤ entry.2.1.toInt) ranks short
    (fun entry taken => raised_bounds nonempty positive covered upper taken) base.covers
    (by
      rintro entry nonneg bound ⟨stake, found, enough⟩
      refine ⟨stake, found, ?_⟩
      have value : (raise entry).2.1.toInt = entry.2.1.toInt + 1 := toInt_ofInt_of_max (by omega) bound
      omega) rfl
  have sorted := List.perm_insertionSort userOrder (rounded market.totalStaked.toInt winners)
  refine ⟨_, payouts_rounded nonempty positive computed covered, ?_, ?_, ?_⟩
  · rw [List.map_map]
    refine ((sorted.map _).trans keys).trans ?_
    rw [base.users]
  · intro entry listed
    obtain ⟨settled, present, rfl⟩ := List.mem_map.mp listed
    exact floors settled (sorted.subset present)
  · have amounts := sumEntries_perm sorted
    have total : sumEntries (rounded market.totalStaked.toInt winners) = market.totalStaked.toInt := by
      rw [counted] at sum
      exact sum.trans (by omega)
    rw [total] at amounts
    simp only [sumAmounts, List.map_map]
    exact amounts

end Rounding

end PredictionBot

import BazelRepo.PredictionBot.Payouts

namespace PredictionBot

open Library

theorem foldlM_recordAllocation_ok {accounts : BTreeMap UserId Account} :
    ∀ {entries : List Allocation} (recorded : BTreeMap UserId Points), (entries.map Allocation.userId).Nodup →
      (∀ entry ∈ entries, 0 < entry.amount.toInt ∧ Enrolled accounts entry.userId ∧
        recorded[entry.userId]? = none) →
      ∃ result, entries.foldlM (recordAllocation accounts) recorded = .ok result ∧
        ∀ (user : UserId) (points : Points), result[user]? = some points ↔
          recorded[user]? = some points ∨ ⟨user, points⟩ ∈ entries := by
  intro entries
  induction entries with
  | nil =>
    intro recorded _ _
    exact ⟨recorded, rfl, by simp⟩
  | cons entry rest ih =>
    intro recorded distinct allowed
    rw [List.map_cons, List.nodup_cons] at distinct
    obtain ⟨positive, enrolled, fresh⟩ := allowed entry List.mem_cons_self
    have step := recordAllocation_eq_ok.mpr ⟨positive, enrolled, fresh, rfl⟩
    have other : ∀ later ∈ rest, later.userId ≠ entry.userId := by
      intro later member same
      exact distinct.1 (same ▸ List.mem_map_of_mem member)
    obtain ⟨result, run, found⟩ := ih (recorded.insert entry.userId entry.amount) distinct.2 (by
      intro later member
      obtain ⟨positive, enrolled, fresh⟩ := allowed later (List.mem_cons_of_mem _ member)
      rw [BTreeMap.getElem?_insert_eq, if_neg (other later member)]
      exact ⟨positive, enrolled, fresh⟩)
    refine ⟨result, ?_, ?_⟩
    · rw [List.foldlM_cons, step]
      exact run
    · intro user points
      rw [found, BTreeMap.getElem?_insert_eq, List.mem_cons]
      by_cases same : user = entry.userId
      · subst same
        rw [if_pos rfl, fresh]
        constructor
        · rintro (stored | listed)
          · cases stored
            exact .inr (.inl rfl)
          · exact .inr (.inr listed)
        · rintro (stored | listed | listed)
          · cases stored
          · exact .inl (congrArg (fun entry => some entry.amount) listed.symm)
          · exact .inr listed
      · rw [if_neg same]
        constructor
        · rintro (stored | listed)
          · exact .inl stored
          · exact .inr (.inr listed)
        · rintro (stored | listed | listed)
          · exact .inl stored
          · exact absurd (congrArg Allocation.userId listed) same
          · exact .inr listed

theorem recordedAllocations_ok {accounts : BTreeMap UserId Account} {entries : List Allocation}
    (distinct : (entries.map Allocation.userId).Nodup)
    (allowed : ∀ entry ∈ entries, 0 < entry.amount.toInt ∧ Enrolled accounts entry.userId) :
    ∃ recorded, recordedAllocations entries accounts = .ok recorded ∧
      ∀ (user : UserId) (points : Points), recorded[user]? = some points ↔ ⟨user, points⟩ ∈ entries := by
  obtain ⟨recorded, run, found⟩ := foldlM_recordAllocation_ok ∅ distinct (by
    intro entry member
    obtain ⟨positive, enrolled⟩ := allowed entry member
    exact ⟨positive, enrolled, by simp⟩)
  refine ⟨recorded, run, ?_⟩
  intro user points
  rw [found]
  simp

theorem allocations_users (totals : BTreeMap UserId Points) :
    (allocations totals).map Allocation.userId = totals.toList.map Prod.fst := by
  simp [allocations, Function.comp_def]

theorem mem_allocations {totals : BTreeMap UserId Points} {user : UserId} {points : Points} :
    (⟨user, points⟩ : Allocation) ∈ allocations totals ↔ totals[user]? = some points := by
  rw [← BTreeMap.mem_toList]
  simp [allocations]

theorem recordedAllocations_allocations {accounts : BTreeMap UserId Account} {totals : BTreeMap UserId Points}
    (positive : PositiveTotals totals (Enrolled accounts)) :
    recordedAllocations (allocations totals) accounts = .ok totals := by
  have distinct : ((allocations totals).map Allocation.userId).Nodup := by
    rw [allocations_users]
    exact BTreeMap.nodup_keys totals
  obtain ⟨recorded, run, found⟩ := recordedAllocations_ok distinct
    (fun entry member => positive entry.userId entry.amount (mem_allocations.mp member))
  rw [run]
  congr 1
  apply Std.ExtTreeMap.ext_getElem?
  intro user
  apply Option.ext
  intro points
  rw [found, mem_allocations]

theorem foldlM_points_ok :
    ∀ {entries : List (UserId × Points)} (start : Points), (∀ entry ∈ entries, 0 ≤ entry.2.toInt) →
      0 ≤ start.toInt → start.toInt + (entries.map (fun entry => entry.2.toInt)).sum ≤ i64Max →
      ∃ result, entries.foldlM (fun total entry => checkedPointsAdd total entry.2) start = .ok result := by
  intro entries
  induction entries with
  | nil =>
    intro start _ _ _
    exact ⟨start, rfl⟩
  | cons entry rest ih =>
    intro start nonneg initial fits
    rw [List.map_cons, List.sum_cons] at fits
    have first := nonneg entry List.mem_cons_self
    have later := fun other member => nonneg other (List.mem_cons_of_mem entry member)
    have remaining : 0 ≤ (rest.map (fun entry => entry.2.toInt)).sum := by
      refine List.sum_nonneg ?_
      intro x listed
      obtain ⟨other, member, rfl⟩ := List.mem_map.mp listed
      exact later other member
    obtain ⟨sum, added, value⟩ := checkedPointsAdd_of_bounds (a := start) (b := entry.2) (by omega) (by omega)
    obtain ⟨result, run⟩ := ih sum later (by omega) (by omega)
    refine ⟨result, ?_⟩
    rw [List.foldlM_cons, added]
    exact run

theorem checkResolution_winners {market : Market} {outcome : OutcomeIndex}
    {winners recorded : BTreeMap UserId Points} {entries : List Allocation} {accounts : BTreeMap UserId Account}
    (computed : stakes market (some outcome) = .ok winners) (nonempty : winners.isEmpty = false)
    (pays : PaysWinners winners market.totalStaked.toInt entries) (pooled : 0 ≤ market.totalStaked.toInt)
    (run : recordedAllocations entries accounts = .ok recorded)
    (found : ∀ (user : UserId) (points : Points), recorded[user]? = some points ↔ ⟨user, points⟩ ∈ entries) :
    checkResolution market outcome recorded false = .ok () := by
  have listed : ∀ user : UserId, (∃ points, recorded[user]? = some points) ↔ ∃ stake, winners[user]? = some stake := by
    intro user
    rw [← BTreeMap.mem_keys (m := winners), ← pays.users.mem_iff, List.mem_map]
    constructor
    · rintro ⟨points, stored⟩
      exact ⟨_, (found user points).mp stored, rfl⟩
    · rintro ⟨entry, member, rfl⟩
      exact ⟨entry.amount, (found _ _).mpr member⟩
  have sizes : recorded.size = winners.size := BTreeMap.size_eq_of_keys listed
  have above : ∀ short : UserId × Points → Bool, (∀ user stake, short (user, stake) =
      recorded[user]?.all (fun amount => Decidable.decide (amount.val < stake.val))) → winners.toList.any short = false := by
    intro short same
    rw [List.any_eq_false]
    rintro ⟨user, stake⟩ present
    rw [same]
    have winner := BTreeMap.mem_toList.mp present
    obtain ⟨points, stored⟩ := (listed user).mpr ⟨stake, winner⟩
    obtain ⟨least, held, enough⟩ := pays.covers _ ((found user points).mp stored)
    dsimp only at held enough
    rw [winner] at held
    cases held
    simp only [stored, Option.all_some, decide_eq_true_eq, Points.val_lt_iff, not_lt]
    exact enough
  obtain ⟨total, amounts⟩ := recordedAllocations_total run
  have whole : sumPoints recorded = market.totalStaked.toInt := total.trans pays.whole
  have nonneg : ∀ entry ∈ recorded.toList, 0 ≤ entry.2.toInt := by
    rintro ⟨user, points⟩ present
    exact (amounts _ ((found user points).mp (BTreeMap.mem_toList.mp present))).le
  obtain ⟨allocated, summed⟩ := foldlM_points_ok ⟨0⟩ nonneg (le_refl _) (by
    have value : (⟨0⟩ : Points).toInt + (recorded.toList.map (fun entry => entry.2.toInt)).sum =
        sumPoints recorded := Int.zero_add _
    rw [value, whole]
    exact market.totalStaked.toInt_le_max)
  have conserves : allocated = market.totalStaked := by
    rw [← Points.toInt_inj, sumRecorded_total summed, whole]
  have taken : pool market = .ok market.totalStaked := pool_eq_ok.mpr ⟨pooled, rfl⟩
  have folded : sumRecorded recorded = .ok allocated := summed
  simp only [checkResolution, computed, ok_bind, nonempty, sizes, folded, taken, conserves,
    Bool.false_eq_true, ne_eq, not_true_eq_false, false_or, if_false]
  rw [above, if_neg Bool.false_ne_true]
  exact fun _ _ => rfl

theorem checkResolution_refunds {market : Market} {outcome : OutcomeIndex}
    {winners all : BTreeMap UserId Points} (computed : stakes market (some outcome) = .ok winners)
    (empty : winners.isEmpty = true) (every : stakes market none = .ok all) :
    checkResolution market outcome all true = .ok () := by
  simp only [checkResolution, computed, every, empty, ok_bind, not_true_eq_false, if_true, if_false, ne_eq]

def Overflows (accounts : BTreeMap UserId Account) (entries : List Allocation) : Prop :=
  ∃ entry ∈ entries, ∃ account, accounts[entry.userId]? = some account ∧
    i64Max < account.balance.toInt + entry.amount.toInt

theorem creditAllocation_overflow {accounts : BTreeMap UserId Account} {entry : Allocation} {account : Account}
    (found : accounts[entry.userId]? = some account)
    (above : i64Max < account.balance.toInt + entry.amount.toInt) :
    creditAllocation accounts entry = .error .overflow := by
  simp only [creditAllocation, found, okOr, ok_bind, checkedPointsAdd_overflow above, error_bind]

theorem creditAllocations_cases :
    ∀ {entries : List Allocation} (accounts : BTreeMap UserId Account), (entries.map Allocation.userId).Nodup →
      (∀ entry ∈ entries, 0 < entry.amount.toInt ∧ Enrolled accounts entry.userId) →
      (∃ result, creditAllocations accounts entries = .ok result) ∨
        (creditAllocations accounts entries = .error .overflow ∧ Overflows accounts entries) := by
  intro entries
  induction entries with
  | nil =>
    intro accounts _ _
    exact .inl ⟨accounts, rfl⟩
  | cons entry rest ih =>
    intro accounts distinct allowed
    rw [List.map_cons, List.nodup_cons] at distinct
    obtain ⟨positive, account, found⟩ := allowed entry List.mem_cons_self
    have lower := account.balance.val.le_toInt
    have other : ∀ later ∈ rest, later.userId ≠ entry.userId := by
      intro later member same
      exact distinct.1 (same ▸ List.mem_map_of_mem member)
    by_cases above : i64Max < account.balance.toInt + entry.amount.toInt
    · refine .inr ⟨?_, entry, List.mem_cons_self, account, found, above⟩
      rw [creditAllocations, List.foldlM_cons, creditAllocation_overflow found above]
      rfl
    · obtain ⟨balance, added, value⟩ := checkedPointsAdd_of_bounds (a := account.balance) (b := entry.amount)
        (by unfold Points.toInt at positive ⊢; omega) (by omega)
      have step := creditAllocation_eq_ok.mpr ⟨account, balance, found, value, rfl⟩
      have unfolded : creditAllocations accounts (entry :: rest) = creditAllocations
          (accounts.insert entry.userId { account with balance := balance }) rest := by
        rw [creditAllocations, List.foldlM_cons, step]
        rfl
      rw [unfolded]
      rcases ih (accounts.insert entry.userId { account with balance := balance }) distinct.2
        (fun later member => by
          obtain ⟨positive, enrolled⟩ := allowed later (List.mem_cons_of_mem _ member)
          exact ⟨positive, enrolled.insert⟩) with credited | ⟨failed, later, member, stored, holds, above⟩
      · exact .inl credited
      · refine .inr ⟨failed, later, List.mem_cons_of_mem _ member, stored, ?_, above⟩
        rwa [BTreeMap.getElem?_insert_eq, if_neg (other later member)] at holds

def MayResolve (state : State) (actor : Actor) (market : Market) (membership : Option MembershipEvidence) :
    Prop :=
  actor.bot = false ∧ actor.userId ≠ ⟨0⟩ ∧
    (actor.moderator = true ∨ actor.userId = market.creator ∨
      (actor.userId ∈ market.resolvers ∧ membership = some (.present actor.userId false) ∧
        Enrolled state.accounts actor.userId))

theorem resolveAuthority_ok {state : State} {actor : Actor} {market : Market}
    {membership : Option MembershipEvidence} (authorised : MayResolve state actor market membership) :
    resolveAuthority state actor market membership = .ok () := by
  unfold resolveAuthority
  obtain ⟨_, _, moderator | creator | ⟨assigned, evidence, account, enrolled⟩⟩ := authorised
  · simp [moderator]
  · simp [creator]
  · split
    · simp [evidence, resolverEvidence, Std.ExtTreeMap.contains_eq_isSome_getElem?, enrolled]
    · rfl

/-- A settlement command succeeds, or overflows because a credited account cannot hold its allocation. -/
def SettlesOrOverflows (state : State) (entries : List Allocation) (result : Except DomainError Decision) :
    Prop :=
  (∃ decision, result = .ok decision) ∨ (result = .error .overflow ∧ Overflows state.accounts entries)

theorem finish_single [Lowercase] {state : State} (event : Event) (response : String)
    {entries : List Allocation}
    (applied : (∃ next, applyInner state event = .ok next) ∨
      (applyInner state event = .error .overflow ∧ Overflows state.accounts entries)) :
    SettlesOrOverflows state entries (finish state [event] response) := by
  rcases applied with ⟨next, applied⟩ | ⟨failed, overflows⟩
  · refine .inl ⟨⟨[event], response⟩, ?_⟩
    rw [finish, List.foldlM_cons, applied]
    rfl
  · refine .inr ⟨?_, overflows⟩
    rw [finish, List.foldlM_cons, failed]
    rfl

structure Settleable (state : State) (market : Market) : Prop where
  staked : market.totalStaked.toInt = sumBets market.bets
  stakes : ∀ bet ∈ market.bets, 0 < bet.amount.toInt ∧ Enrolled state.accounts bet.userId

theorem Settleable.pool_nonneg {state : State} {market : Market} (settleable : Settleable state market) :
    0 ≤ market.totalStaked.toInt := by
  rw [settleable.staked]
  exact sumBets_nonneg fun bet member => (settleable.stakes bet member).1

/-- The allocations a settlement computes: they pass the checks of its event and fit the pool. -/
structure Payable (state : State) (market : Market) (entries : List Allocation) : Prop where
  distinct : (entries.map Allocation.userId).Nodup
  allowed : ∀ entry ∈ entries, 0 < entry.amount.toInt ∧ Enrolled state.accounts entry.userId
  whole : sumAmounts entries = market.totalStaked.toInt

theorem Settleable.refunds_ok {state : State} {market : Market} (settleable : Settleable state market) :
    ∃ all, PredictionBot.stakes market none = .ok all ∧
      recordedAllocations (allocations all) state.accounts = .ok all ∧
      Payable state market (allocations all) := by
  obtain ⟨all, computed, positive⟩ := stakes_ok settleable.staked settleable.stakes none
  have recorded := recordedAllocations_allocations positive
  refine ⟨all, computed, recorded, ?_, ?_, ?_⟩
  · rw [allocations_users]
    exact BTreeMap.nodup_keys all
  · intro entry member
    exact positive entry.userId entry.amount (mem_allocations.mp member)
  · rw [← (recordedAllocations_total recorded).1, stakes_total computed, selected_all, settleable.staked]

theorem Settleable.payouts_ok {state : State} {market : Market} (settleable : Settleable state market)
    (outcome : OutcomeIndex) :
    ∃ entries refunded recorded, payouts market outcome = .ok (entries, refunded) ∧
      recordedAllocations entries state.accounts = .ok recorded ∧
      checkResolution market outcome recorded refunded = .ok () ∧ Payable state market entries := by
  obtain ⟨winners, computed, positive⟩ := stakes_ok settleable.staked settleable.stakes (some outcome)
  cases empty : winners.isEmpty with
  | true =>
    obtain ⟨all, every, recorded, payable⟩ := settleable.refunds_ok
    refine ⟨allocations all, true, all, ?_, recorded, checkResolution_refunds computed empty every, payable⟩
    simp only [payouts, computed, ok_bind, empty, if_true, every]
  | false =>
    have covered : sumPoints winners ≤ market.totalStaked.toInt := by
      rw [stakes_total computed, settleable.staked]
      exact sumBets_selected_le fun bet member => (settleable.stakes bet member).1
    obtain ⟨entries, paid, pays⟩ := payouts_to_winners empty positive computed covered
    have distinct : (entries.map Allocation.userId).Nodup :=
      pays.users.nodup_iff.mpr (BTreeMap.nodup_keys winners)
    have allowed : ∀ entry ∈ entries, 0 < entry.amount.toInt ∧ Enrolled state.accounts entry.userId := by
      intro entry member
      obtain ⟨stake, found, enough⟩ := pays.covers entry member
      obtain ⟨least, enrolled⟩ := positive entry.userId stake found
      exact ⟨by omega, enrolled⟩
    obtain ⟨recorded, run, found⟩ := recordedAllocations_ok distinct allowed
    exact ⟨entries, false, recorded, paid, run,
      checkResolution_winners computed empty pays settleable.pool_nonneg run found,
      distinct, allowed, pays.whole⟩

theorem Payable.no_overflow {state : State} {market : Market} {entries : List Allocation} {id : MarketId}
    (payable : Payable state market entries) (nonneg : NonnegBalances state.accounts)
    (pools : ∀ (id : MarketId) (market : Market), state.markets[id]? = some market → 0 ≤ market.held)
    (found : state.markets[id]? = some market) (isOpen : market.status = .opened)
    (fits : state.points ≤ i64Max) : ¬ Overflows state.accounts entries := by
  rintro ⟨entry, member, account, stored, above⟩
  have balance : account.balance.toInt ≤ sumBalances state.accounts :=
    BTreeMap.le_total (f := fun _ (account : Account) => account.balance.toInt) nonneg stored
  have held : market.held ≤ sumOpenPools state.markets :=
    BTreeMap.le_total (f := fun _ (market : Market) => market.held) pools found
  have amount : entry.amount.toInt ≤ sumAmounts entries := by
    refine List.single_le_sum ?_ _ (List.mem_map_of_mem member)
    intro x listed
    obtain ⟨other, present, rfl⟩ := List.mem_map.mp listed
    exact (payable.allowed other present).1.le
  have pool : market.held = market.totalStaked.toInt := if_pos isOpen
  have whole := payable.whole
  unfold State.points at fits
  omega

theorem applyResolution_cases {state : State} {id : MarketId} {market : Market} {outcome : OutcomeIndex}
    {resolver : UserId} {settledAt : Int64} {entries : List Allocation} {refunded : Bool}
    {recorded : BTreeMap UserId Points} (found : state.markets[id]? = some market)
    (isOpen : market.status = .opened) (listed : outcome.val < market.options.length)
    (due : market.closesAt ≤ settledAt) (human : resolver ≠ ⟨0⟩)
    (run : recordedAllocations entries state.accounts = .ok recorded)
    (checked : checkResolution market outcome recorded refunded = .ok ())
    (payable : Payable state market entries) :
    (∃ next, applyResolution state id outcome resolver settledAt entries refunded = .ok next) ∨
      (applyResolution state id outcome resolver settledAt entries refunded = .error .overflow ∧
        Overflows state.accounts entries) := by
  have accepted : ¬ (market.status ≠ .opened ∨ market.options.length ≤ outcome.val ∨
      settledAt < market.closesAt ∨ resolver = ⟨0⟩) := by
    simp only [not_or, not_not, ne_eq, not_le, Int64.not_lt]
    exact ⟨isOpen, listed, due, human⟩
  rcases creditAllocations_cases state.accounts payable.distinct payable.allowed with ⟨accounts, credited⟩ | ⟨failed, overflows⟩
  · left
    simp only [applyResolution, found, okOr, ok_bind, if_neg accepted, run, checked, credited]
    exact ⟨_, rfl⟩
  · right
    simp only [applyResolution, found, okOr, ok_bind, if_neg accepted, run, checked, failed, error_bind]
    exact ⟨trivial, overflows⟩

theorem applyCancellation_cases {state : State} {id : MarketId} {market : Market} {moderator : UserId}
    {all : BTreeMap UserId Points} (found : state.markets[id]? = some market)
    (isOpen : market.status = .opened) (human : moderator ≠ ⟨0⟩) (computed : stakes market none = .ok all)
    (run : recordedAllocations (allocations all) state.accounts = .ok all)
    (payable : Payable state market (allocations all)) :
    (∃ next, applyCancellation state id moderator (allocations all) = .ok next) ∨
      (applyCancellation state id moderator (allocations all) = .error .overflow ∧
        Overflows state.accounts (allocations all)) := by
  have accepted : ¬ (market.status ≠ .opened ∨ moderator = ⟨0⟩) := by
    simp only [not_or, not_not, ne_eq]
    exact ⟨isOpen, human⟩
  rcases creditAllocations_cases state.accounts payable.distinct payable.allowed with ⟨accounts, credited⟩ | ⟨failed, overflows⟩
  · left
    simp only [applyCancellation, found, okOr, ok_bind, if_neg accepted, run, computed, ne_eq,
      not_true_eq_false, if_false, credited]
    exact ⟨_, rfl⟩
  · right
    simp only [applyCancellation, found, okOr, ok_bind, if_neg accepted, run, computed, ne_eq,
      not_true_eq_false, if_false, failed, error_bind]
    exact ⟨trivial, overflows⟩

theorem SettlesOrOverflows.settles {state : State} {entries : List Allocation}
    {result : Except DomainError Decision} (settles : SettlesOrOverflows state entries result)
    (fits : ¬ Overflows state.accounts entries) : ∃ decision, result = .ok decision := by
  rcases settles with settled | ⟨_, overflows⟩
  · exact settled
  · exact absurd overflows fits

/-- Both ways to settle an open market, with the allocations each one credits. -/
structure NeverStuck [Lowercase] (state : State) (id : MarketId) (market : Market) : Prop where
  resolve : ∀ actor outcome now defaults membership, MayResolve state actor market membership →
    market.closesAt ≤ now → outcome.val < market.options.length →
    ∃ entries refunded recorded, payouts market outcome = .ok (entries, refunded) ∧
      recordedAllocations entries state.accounts = .ok recorded ∧
      checkResolution market outcome recorded refunded = .ok () ∧
      SettlesOrOverflows state entries
        (decideWithMembership state actor (.resolve id outcome) now defaults membership) ∧
      (state.points ≤ i64Max → ∃ decision,
        decideWithMembership state actor (.resolve id outcome) now defaults membership = .ok decision)
  cancel : ∀ actor now defaults membership, actor.moderator = true → actor.bot = false →
    actor.userId ≠ ⟨0⟩ →
    ∃ all, stakes market none = .ok all ∧
      SettlesOrOverflows state (allocations all)
        (decideWithMembership state actor (.cancel id) now defaults membership) ∧
      (state.points ≤ i64Max → ∃ decision,
        decideWithMembership state actor (.cancel id) now defaults membership = .ok decision)

theorem open_markets_never_stick [Lowercase] (events : List Event) (state : State) (id : MarketId)
    (market : Market) (reached : replay events = .ok state) (found : state.markets[id]? = some market)
    (isOpen : market.status = .opened) : NeverStuck state id market := by
  have conserved := replay_conserves reached
  have stakes := replay_stakes reached
  have settleable : Settleable state market := ⟨conserved.staked id market found, stakes id market found⟩
  have pools : ∀ (id : MarketId) (market : Market), state.markets[id]? = some market → 0 ≤ market.held := by
    intro other stored present
    have settleable : Settleable state stored :=
      ⟨conserved.staked other stored present, stakes other stored present⟩
    have pool := settleable.pool_nonneg
    unfold Market.held
    split
    · exact pool
    · exact le_refl _
  constructor
  · intro actor outcome now defaults membership authorised due listed
    obtain ⟨entries, refunded, recorded, paid, run, checked, payable⟩ := settleable.payouts_ok outcome
    have result : SettlesOrOverflows state entries
        (decideWithMembership state actor (.resolve id outcome) now defaults membership) := by
      have event := finish_single (.marketResolved id outcome actor.userId now entries refunded)
        (if refunded then "Market resolved; stakes refunded." else "Market resolved.")
        (applyResolution_cases found isOpen listed due authorised.2.1 run checked payable)
      have ready : ¬ (market.status ≠ .opened ∨ now < market.closesAt) := by
        simp only [not_or, not_not, ne_eq, Int64.not_lt]
        exact ⟨isOpen, due⟩
      have human : ¬ (actor.bot = true ∨ actor.userId = ⟨0⟩) := by
        simp [authorised.1, authorised.2.1]
      simpa only [decideWithMembership, decideResolve, if_neg human, found, okOr, ok_bind,
        resolveAuthority_ok authorised, if_neg ready, if_neg (not_le.mpr listed), paid] using event
    exact ⟨entries, refunded, recorded, paid, run, checked, result, fun fits =>
      result.settles (payable.no_overflow conserved.nonneg pools found isOpen fits)⟩
  · intro actor now defaults membership moderator human present
    obtain ⟨all, computed, run, payable⟩ := settleable.refunds_ok
    have result : SettlesOrOverflows state (allocations all)
        (decideWithMembership state actor (.cancel id) now defaults membership) := by
      have event := finish_single (.marketCancelled id actor.userId now (allocations all))
        "Market cancelled; stakes refunded."
        (applyCancellation_cases found isOpen present computed run payable)
      have allowed : ¬ (actor.moderator = false ∨ actor.bot = true ∨ actor.userId = ⟨0⟩) := by
        simp [moderator, human, present]
      simpa only [decideWithMembership, decideCancel, if_neg allowed, found, okOr, ok_bind, isOpen, ne_eq,
        not_true_eq_false, if_false, computed] using event
    exact ⟨all, computed, result, fun fits =>
      result.settles (payable.no_overflow conserved.nonneg pools found isOpen fits)⟩

theorem open_markets_never_stick_rain :
    letI : Lowercase := asciiLowercase
    ∃ state market, replay rainHistory = .ok state ∧ NeverStuck state rainId market := by
  let : Lowercase := asciiLowercase
  obtain ⟨state, reached⟩ := exists_eq_ok (x := replay rainHistory) (by decide +kernel)
  have stored : (replay rainHistory).toOption.bind (fun state => state.markets[rainId]?.map Market.status) =
      some .opened := by decide +kernel
  rw [reached] at stored
  obtain ⟨market, found, isOpen⟩ := Option.map_eq_some_iff.mp stored
  exact ⟨state, market, reached, open_markets_never_stick rainHistory state rainId market reached found isOpen⟩

end PredictionBot

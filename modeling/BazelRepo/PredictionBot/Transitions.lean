import BazelRepo.PredictionBot.Decide

namespace PredictionBot

open Library

def Points.toInt (points : Points) : Int := points.val.toInt

theorem checkedPointsAdd_eq_ok {a b c : Points} :
    checkedPointsAdd a b = .ok c ↔ c.toInt = a.toInt + b.toInt := by
  unfold checkedPointsAdd checkedAdd Points.toInt
  constructor
  · intro added
    cases sum : Library.checkedAdd a.val b.val with
    | none => simp [sum, okOr, Except.map] at added
    | some value =>
      simp only [sum, okOr, Except.map, Except.ok.injEq] at added
      subst added
      exact checkedAdd_eq_some.mp sum
  · intro value
    rw [checkedAdd_eq_some.mpr value]
    rfl

theorem Points.toInt_inj {a b : Points} : a.toInt = b.toInt ↔ a = b := by
  cases a
  cases b
  simp [Points.toInt, Int64.toInt_inj]

theorem Points.nonpos_iff {points : Points} : points.val ≤ 0 ↔ points.toInt ≤ 0 := by
  rw [Int64.le_iff_toInt_le]
  rfl

theorem Points.val_lt_iff {a b : Points} : a.val < b.val ↔ a.toInt < b.toInt :=
  Int64.lt_iff_toInt_lt

theorem pool_eq_ok {market : Market} {staked : Points} :
    pool market = .ok staked ↔ 0 ≤ market.totalStaked.toInt ∧ market.totalStaked = staked := by
  unfold pool Points.toInt
  rw [reject_eq_ok, Except.ok.injEq, Int64.lt_iff_toInt_lt]
  simp

theorem recordAllocation_eq_ok {accounts : BTreeMap UserId Account} {recorded result : BTreeMap UserId Points}
    {allocation : Allocation} :
    recordAllocation accounts recorded allocation = .ok result ↔
      0 < allocation.amount.toInt ∧ (∃ account, accounts[allocation.userId]? = some account) ∧
        recorded[allocation.userId]? = none ∧
        result = recorded.insert allocation.userId allocation.amount := by
  unfold recordAllocation Points.toInt
  rw [reject_eq_ok, Except.ok.injEq, Int64.le_iff_toInt_le]
  simp only [Std.ExtTreeMap.contains_eq_isSome_getElem?, Option.isSome_iff_exists, not_or, not_not,
    Int64.toInt_zero, not_le, eq_comm (a := result)]
  simp only [not_exists, and_assoc]
  rw [← Option.eq_none_iff_forall_ne_some]

theorem creditAllocation_eq_ok {accounts result : BTreeMap UserId Account} {entry : Allocation} :
    creditAllocation accounts entry = .ok result ↔
      ∃ account balance, accounts[entry.userId]? = some account ∧
        balance.toInt = account.balance.toInt + entry.amount.toInt ∧
        result = accounts.insert entry.userId { account with balance := balance } := by
  unfold creditAllocation
  simp only [bind_eq_ok, okOr_eq_ok, checkedPointsAdd_eq_ok, Except.ok.injEq, eq_comm (a := result)]
  constructor
  · rintro ⟨account, found, balance, added, stored⟩
    exact ⟨account, balance, found, added, stored⟩
  · rintro ⟨account, balance, found, added, stored⟩
    exact ⟨account, found, balance, added, stored⟩

theorem applyInitialization_inv {state result : State} {policy : Policy}
    (applied : applyInitialization state policy = .ok result) :
    0 < policy.amount.toInt ∧ 0 < policy.interval.toInt ∧ state.policy = none ∧
      result = { state with policy := some policy } := by
  unfold applyInitialization positivePolicy at applied
  simp only [bind_eq_ok, reject_eq_ok, Except.ok.injEq, not_or, not_le, Int64.le_iff_toInt_le,
    Int64.toInt_zero, Option.not_isSome_iff_eq_none] at applied
  obtain ⟨_, ⟨⟨amount, interval⟩, _⟩, ⟨fresh, _⟩, stored⟩ := applied
  exact ⟨amount, interval, fresh, stored.symm⟩

theorem applyEnrollment_inv {state result : State} {userId : UserId} {enrolledAt : Int64}
    (applied : applyEnrollment state userId enrolledAt = .ok result) :
    userId ≠ ⟨0⟩ ∧ state.policy ≠ none ∧ state.accounts[userId]? = none ∧
      result = { state with accounts := state.accounts.insert userId ⟨⟨0⟩, enrolledAt⟩ } := by
  obtain ⟨accepted, stored⟩ := reject_eq_ok.mp applied
  cases stored
  simp only [not_or, Std.ExtTreeMap.contains_eq_isSome_getElem?, Option.not_isSome_iff_eq_none,
    Option.isNone_iff_eq_none] at accepted
  exact ⟨accepted.2.1, accepted.1, accepted.2.2, rfl⟩

theorem applyGrant_inv {state result : State} {userId : UserId} {reason : GrantReason}
    {amount : Points} {fromDue throughDue nextGrant : Int64}
    (applied : applyGrant state userId reason amount fromDue throughDue nextGrant = .ok result) :
    ∃ policy account balance, state.policy = some policy ∧ state.accounts[userId]? = some account ∧
      0 < amount.toInt ∧ balance.toInt = account.balance.toInt + amount.toInt ∧
      result = { state with accounts := state.accounts.insert userId ⟨balance, nextGrant⟩ } := by
  unfold applyGrant at applied
  simp only [bind_eq_ok, reject_eq_ok, okOr_eq_ok, Except.ok.injEq, not_or, Points.nonpos_iff, not_le,
    checkedPointsAdd_eq_ok] at applied
  obtain ⟨policy, configured, _, _, account, found, ⟨_, _, positive⟩, _, _, _, _, _, _, _, _, _, _,
    balance, added, stored⟩ := applied
  exact ⟨policy, account, balance, configured, found, positive, added, stored.symm⟩

theorem applyMarketCreation_inv [Lowercase] {state result : State} {id : MarketId} {creator : UserId}
    {question : String} {options : List String} {createdAt closesAt : Int64}
    (applied : applyMarketCreation state id creator question options createdAt closesAt = .ok result) :
    state.markets[id]? = none ∧ result = { state with
      markets := state.markets.insert id
        { creator, question, options, closesAt, createdAt, status := .opened, bets := [],
          totalStaked := ⟨0⟩, payouts := [], resolvers := ∅ } } := by
  unfold applyMarketCreation at applied
  simp only [bind_eq_ok, reject_eq_ok, Except.ok.injEq, not_or, Std.ExtTreeMap.contains_eq_isSome_getElem?,
    Option.not_isSome_iff_eq_none] at applied
  obtain ⟨⟨_, _, fresh, _⟩, _, _, stored⟩ := applied
  exact ⟨fresh, stored.symm⟩

theorem applyBet_inv {state result : State} {id : MarketId} {userId : UserId}
    {outcome : OutcomeIndex} {amount : Points} {acceptedAt : Int64}
    (applied : applyBet state id userId outcome amount acceptedAt = .ok result) :
    ∃ market account nextPool, state.markets[id]? = some market ∧ market.status = .opened ∧
      state.accounts[userId]? = some account ∧ 0 < amount.toInt ∧
      amount.toInt ≤ account.balance.toInt ∧
      nextPool.toInt = market.totalStaked.toInt + amount.toInt ∧
      result = { state with
        accounts := state.accounts.insert userId
          { account with balance := ⟨account.balance.val - amount.val⟩ }
        markets := state.markets.insert id (market.placeBet ⟨userId, outcome, amount⟩ nextPool) } := by
  unfold applyBet at applied
  simp only [bind_eq_ok, reject_eq_ok, okOr_eq_ok, Except.ok.injEq, pool_eq_ok, checkedPointsAdd_eq_ok,
    not_or, not_not, ne_eq, Points.nonpos_iff, Points.val_lt_iff, not_lt] at applied
  obtain ⟨market, found, ⟨isOpen, _, _, _, positive⟩, _, ⟨_, rfl⟩, nextPool, added, account, member,
    enough, stored⟩ := applied
  exact ⟨market, account, nextPool, found, isOpen, member, not_le.mp positive, enough, added, stored.symm⟩

theorem applyResolution_inv {state result : State} {id : MarketId} {outcome : OutcomeIndex}
    {resolver : UserId} {settledAt : Int64} {payouts : List Allocation} {refunded : Bool}
    (applied : applyResolution state id outcome resolver settledAt payouts refunded = .ok result) :
    ∃ market recorded accounts, state.markets[id]? = some market ∧ market.status = .opened ∧
      recordedAllocations payouts state.accounts = .ok recorded ∧
      checkResolution market outcome recorded refunded = .ok () ∧
      creditAllocations state.accounts payouts = .ok accounts ∧
      result = { state with
        accounts := accounts
        markets := state.markets.insert id
          { market with payouts := payouts, status := .resolved outcome refunded } } := by
  unfold applyResolution at applied
  simp only [bind_eq_ok, reject_eq_ok, okOr_eq_ok, Except.ok.injEq, not_or, not_not, ne_eq] at applied
  obtain ⟨market, found, ⟨isOpen, _⟩, recorded, entries, _, checked, accounts, credited, stored⟩ := applied
  exact ⟨market, recorded, accounts, found, isOpen, entries, checked, credited, stored.symm⟩

theorem applyCancellation_inv {state result : State} {id : MarketId} {moderator : UserId}
    {refunds : List Allocation} (applied : applyCancellation state id moderator refunds = .ok result) :
    ∃ market recorded accounts, state.markets[id]? = some market ∧ market.status = .opened ∧
      recordedAllocations refunds state.accounts = .ok recorded ∧
      stakes market none = .ok recorded ∧
      creditAllocations state.accounts refunds = .ok accounts ∧
      result = { state with
        accounts := accounts
        markets := state.markets.insert id { market with status := .cancelled } } := by
  unfold applyCancellation at applied
  simp only [bind_eq_ok, reject_eq_ok, okOr_eq_ok, Except.ok.injEq, not_or, not_not, ne_eq] at applied
  obtain ⟨market, found, ⟨isOpen, _⟩, recorded, entries, _, computed, rfl, accounts, credited, stored⟩ :=
    applied
  exact ⟨market, recorded, accounts, found, isOpen, entries, computed, credited, stored.symm⟩

theorem applyResolverAdded_inv {state result : State} {id : MarketId} {userId addedBy : UserId}
    {addedAt : Int64} (applied : applyResolverAdded state id userId addedBy addedAt = .ok result) :
    ∃ market, state.markets[id]? = some market ∧ market.status = .opened ∧ result = { state with
      markets := state.markets.insert id
        { market with resolvers := insert userId market.resolvers } } := by
  unfold applyResolverAdded at applied
  simp only [bind_eq_ok, reject_eq_ok, okOr_eq_ok, Except.ok.injEq, not_or, not_not, ne_eq] at applied
  obtain ⟨market, found, ⟨_, _, isOpen, _⟩, stored⟩ := applied
  exact ⟨market, found, isOpen, stored.symm⟩

theorem applyResolverRemoved_inv {state result : State} {id : MarketId} {userId removedBy : UserId}
    {removedAt : Int64} (applied : applyResolverRemoved state id userId removedBy removedAt = .ok result) :
    ∃ market, state.markets[id]? = some market ∧ market.status = .opened ∧ result = { state with
      markets := state.markets.insert id
        { market with resolvers := market.resolvers.erase userId } } := by
  unfold applyResolverRemoved at applied
  simp only [bind_eq_ok, reject_eq_ok, okOr_eq_ok, Except.ok.injEq, not_or, not_not, ne_eq] at applied
  obtain ⟨market, found, ⟨_, _, isOpen, _⟩, stored⟩ := applied
  exact ⟨market, found, isOpen, stored.symm⟩

end PredictionBot

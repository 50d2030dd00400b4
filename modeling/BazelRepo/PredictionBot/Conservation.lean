import BazelRepo.PredictionBot.Transitions

namespace PredictionBot

open Library

def sumAmounts (entries : List Allocation) : Int := (entries.map (fun entry => entry.amount.toInt)).sum

def sumBets (bets : List Bet) : Int := (bets.map (fun bet => bet.amount.toInt)).sum

def sumPoints (totals : BTreeMap UserId Points) : Int := totals.total (fun _ points => points.toInt)

def sumBalances (accounts : BTreeMap UserId Account) : Int :=
  accounts.total (fun _ account => account.balance.toInt)

/-- What a market holds of its members' points: its pool while it is open, nothing after. -/
def Market.held (market : Market) : Int :=
  if market.status = .opened then market.totalStaked.toInt else 0

def sumOpenPools (markets : BTreeMap MarketId Market) : Int := markets.total (fun _ market => market.held)

def State.points (state : State) : Int := sumBalances state.accounts + sumOpenPools state.markets

def Event.granted : Event → Int
  | .pointsGranted _ _ amount _ _ _ => amount.toInt
  | _ => 0

def sumGranted (events : List Event) : Int := (events.map Event.granted).sum

/-- The state holds exactly the issued points, market by market and account by account. -/
structure Conserved (state : State) (issued : Int) : Prop where
  balanced : state.points = issued
  staked : ∀ (id : MarketId) (market : Market), state.markets[id]? = some market →
    market.totalStaked.toInt = sumBets market.bets
  nonneg : ∀ (user : UserId) (account : Account), state.accounts[user]? = some account → 0 ≤ account.balance.toInt

def selected (bets : List Bet) (outcome : Option OutcomeIndex) : List Bet :=
  bets.filter (fun bet => outcome = none ∨ outcome = some bet.outcome)

theorem sumPoints_insert (totals : BTreeMap UserId Points) (user : UserId) (points : Points) :
    sumPoints (totals.insert user points) + (totals[user]?.getD ⟨0⟩).toInt =
      sumPoints totals + points.toInt := by
  have balance := BTreeMap.total_insert (fun _ (points : Points) => points.toInt) totals user points
  unfold sumPoints
  cases found : totals[user]? <;> simpa [found, Points.toInt] using balance

theorem foldlM_addStake_total {outcome : Option OutcomeIndex} :
    ∀ {bets : List Bet} {totals result : BTreeMap UserId Points},
      bets.foldlM (addStake outcome) totals = .ok result →
      sumPoints result = sumPoints totals + sumBets (selected bets outcome) := by
  intro bets
  induction bets with
  | nil =>
    intro totals result run
    cases run
    simp [selected, sumBets]
  | cons bet rest ih =>
    intro totals result run
    rw [List.foldlM_cons, bind_eq_ok] at run
    obtain ⟨middle, first, run⟩ := run
    rw [ih run]
    unfold addStake at first
    split at first
    · rename_i chosen
      obtain ⟨sum, added, stored⟩ := bind_eq_ok.mp first
      cases stored
      have balance := sumPoints_insert totals bet.userId sum
      rw [checkedPointsAdd_eq_ok.mp added] at balance
      simp only [selected, List.filter_cons, chosen, decide_true, if_true, sumBets, List.map_cons,
        List.sum_cons]
      omega
    · rename_i skipped
      cases first
      simp [selected, skipped, sumBets]

theorem stakes_total {market : Market} {outcome : Option OutcomeIndex} {totals : BTreeMap UserId Points}
    (computed : stakes market outcome = .ok totals) :
    sumPoints totals = sumBets (selected market.bets outcome) := by
  have total := foldlM_addStake_total computed
  simpa [sumPoints] using total

theorem selected_all (bets : List Bet) : selected bets none = bets := by
  simp [selected]

theorem foldlM_recordAllocation_total {accounts : BTreeMap UserId Account} :
    ∀ {entries : List Allocation} {recorded result : BTreeMap UserId Points},
      entries.foldlM (recordAllocation accounts) recorded = .ok result →
      sumPoints result = sumPoints recorded + sumAmounts entries ∧
        ∀ entry ∈ entries, 0 < entry.amount.toInt := by
  intro entries
  induction entries with
  | nil =>
    intro recorded result run
    cases run
    simp [sumAmounts]
  | cons entry rest ih =>
    intro recorded result run
    rw [List.foldlM_cons, bind_eq_ok] at run
    obtain ⟨middle, first, run⟩ := run
    obtain ⟨positive, _, fresh, rfl⟩ := recordAllocation_eq_ok.mp first
    obtain ⟨total, later⟩ := ih run
    have balance := sumPoints_insert recorded entry.userId entry.amount
    simp only [fresh, Option.getD_none, Points.toInt, Int64.toInt_zero] at balance
    refine ⟨?_, ?_⟩
    · simp only [sumAmounts, List.map_cons, List.sum_cons] at total ⊢
      simp only [Points.toInt] at total ⊢
      omega
    · intro other member
      rcases List.mem_cons.mp member with rfl | member
      · exact positive
      · exact later other member

theorem recordedAllocations_total {accounts : BTreeMap UserId Account} {entries : List Allocation}
    {recorded : BTreeMap UserId Points} (run : recordedAllocations entries accounts = .ok recorded) :
    sumPoints recorded = sumAmounts entries ∧ ∀ entry ∈ entries, 0 < entry.amount.toInt := by
  have total := foldlM_recordAllocation_total run
  simpa [sumPoints] using total

theorem sumBalances_insert (accounts : BTreeMap UserId Account) {user : UserId} {old : Account}
    (account : Account) (found : accounts[user]? = some old) :
    sumBalances (accounts.insert user account) + old.balance.toInt =
      sumBalances accounts + account.balance.toInt := by
  have balance := BTreeMap.total_insert (fun _ (account : Account) => account.balance.toInt) accounts user account
  rw [found] at balance
  simpa [sumBalances] using balance

theorem sumOpenPools_insert (markets : BTreeMap MarketId Market) {id : MarketId} {old : Market}
    (market : Market) (found : markets[id]? = some old) :
    sumOpenPools (markets.insert id market) + old.held = sumOpenPools markets + market.held := by
  have balance := BTreeMap.total_insert (fun _ (market : Market) => market.held) markets id market
  rw [found] at balance
  simpa [sumOpenPools] using balance

theorem creditAllocations_total :
    ∀ {entries : List Allocation} {accounts result : BTreeMap UserId Account},
      creditAllocations accounts entries = .ok result →
      sumBalances result = sumBalances accounts + sumAmounts entries := by
  intro entries
  induction entries with
  | nil =>
    intro accounts result run
    cases run
    simp [sumAmounts]
  | cons entry rest ih =>
    intro accounts result run
    rw [creditAllocations, List.foldlM_cons, bind_eq_ok] at run
    obtain ⟨middle, first, run⟩ := run
    obtain ⟨account, balance, found, added, rfl⟩ := creditAllocation_eq_ok.mp first
    have later := ih run
    have moved := sumBalances_insert accounts { account with balance := balance } found
    dsimp only at moved
    simp only [sumAmounts, List.map_cons, List.sum_cons] at later ⊢
    omega

def NonnegBalances (accounts : BTreeMap UserId Account) : Prop :=
  ∀ (user : UserId) (account : Account), accounts[user]? = some account → 0 ≤ account.balance.toInt

theorem NonnegBalances.insert {accounts : BTreeMap UserId Account} (nonneg : NonnegBalances accounts)
    {user : UserId} {account : Account} (credit : 0 ≤ account.balance.toInt) :
    NonnegBalances (accounts.insert user account) := by
  intro other stored found
  rw [BTreeMap.getElem?_insert_eq] at found
  split at found
  · cases found
    exact credit
  · exact nonneg other stored found

theorem creditAllocations_nonneg {entries : List Allocation} {accounts result : BTreeMap UserId Account}
    (nonneg : NonnegBalances accounts) (positive : ∀ entry ∈ entries, 0 < entry.amount.toInt)
    (run : creditAllocations accounts entries = .ok result) : NonnegBalances result := by
  induction entries generalizing accounts with
  | nil =>
    cases run
    exact nonneg
  | cons entry rest ih =>
    rw [creditAllocations, List.foldlM_cons, bind_eq_ok] at run
    obtain ⟨middle, first, run⟩ := run
    obtain ⟨account, balance, found, added, rfl⟩ := creditAllocation_eq_ok.mp first
    refine ih (nonneg.insert ?_) (fun other member => positive other (List.mem_cons_of_mem _ member)) run
    have before := nonneg _ _ found
    have credit := positive entry (List.mem_cons_self)
    simp only
    omega

theorem foldlM_points_total :
    ∀ {entries : List (UserId × Points)} {start result : Points},
      entries.foldlM (fun total entry => checkedPointsAdd total entry.2) start = .ok result →
      result.toInt = start.toInt + (entries.map (fun entry => entry.2.toInt)).sum := by
  intro entries
  induction entries with
  | nil =>
    intro start result run
    cases run
    simp
  | cons entry rest ih =>
    intro start result run
    rw [List.foldlM_cons, bind_eq_ok] at run
    obtain ⟨middle, first, run⟩ := run
    rw [ih run, checkedPointsAdd_eq_ok.mp first, List.map_cons, List.sum_cons]
    omega

theorem sumRecorded_total {recorded : BTreeMap UserId Points} {allocated : Points}
    (run : sumRecorded recorded = .ok allocated) : allocated.toInt = sumPoints recorded := by
  have total := foldlM_points_total run
  simpa [Points.toInt, sumPoints, BTreeMap.total] using total

theorem checkResolution_total {market : Market} {outcome : OutcomeIndex}
    {recorded : BTreeMap UserId Points} {refunded : Bool}
    (staked : market.totalStaked.toInt = sumBets market.bets)
    (checked : checkResolution market outcome recorded refunded = .ok ()) :
    sumPoints recorded = market.totalStaked.toInt := by
  unfold checkResolution at checked
  obtain ⟨winningStakes, _, checked⟩ := bind_eq_ok.mp checked
  split at checked
  · obtain ⟨_, checked⟩ := reject_eq_ok.mp checked
    obtain ⟨all, computed, checked⟩ := bind_eq_ok.mp checked
    obtain ⟨same, _⟩ := reject_eq_ok.mp checked
    rw [not_not.mp same, stakes_total computed, selected_all, staked]
  · obtain ⟨_, checked⟩ := reject_eq_ok.mp checked
    obtain ⟨allocated, summed, checked⟩ := bind_eq_ok.mp checked
    obtain ⟨pooled, taken, checked⟩ := bind_eq_ok.mp checked
    obtain ⟨same, _⟩ := reject_eq_ok.mp checked
    rw [← sumRecorded_total summed, not_not.mp same, ← (pool_eq_ok.mp taken).2]

theorem Conserved.market_insert {state : State} {issued : Int} (conserved : Conserved state issued)
    {id : MarketId} {old market : Market} (found : state.markets[id]? = some old)
    (held : market.held = old.held) (staked : market.totalStaked.toInt = sumBets market.bets) :
    Conserved { state with markets := state.markets.insert id market } issued := by
  refine ⟨?_, ?_, conserved.nonneg⟩
  · have moved := sumOpenPools_insert state.markets market found
    have balanced := conserved.balanced
    simp only [State.points] at balanced ⊢
    omega
  · intro other stored present
    rw [BTreeMap.getElem?_insert_eq] at present
    split at present
    · cases present
      exact staked
    · exact conserved.staked other stored present

theorem Conserved.settle {state : State} {issued : Int} (conserved : Conserved state issued)
    {id : MarketId} {old market : Market} {entries : List Allocation} {accounts : BTreeMap UserId Account}
    (found : state.markets[id]? = some old) (isOpen : old.status = .opened) (closed : market.status ≠ .opened)
    (sameBets : market.bets = old.bets) (samePool : market.totalStaked = old.totalStaked)
    (positive : ∀ entry ∈ entries, 0 < entry.amount.toInt)
    (credited : creditAllocations state.accounts entries = .ok accounts)
    (whole : sumAmounts entries = old.totalStaked.toInt) :
    Conserved { state with accounts := accounts, markets := state.markets.insert id market } issued := by
  refine ⟨?_, ?_, creditAllocations_nonneg conserved.nonneg positive credited⟩
  · have moved := sumOpenPools_insert state.markets market found
    have credit := creditAllocations_total credited
    have balanced := conserved.balanced
    simp only [Market.held, isOpen, closed, if_true, if_false] at moved
    simp only [State.points] at balanced ⊢
    omega
  · intro other stored present
    rw [BTreeMap.getElem?_insert_eq] at present
    split at present
    · cases present
      rw [sameBets, samePool]
      exact conserved.staked id old found
    · exact conserved.staked other stored present

theorem applyInitialization_conserves {state result : State} {policy : Policy} {issued : Int}
    (conserved : Conserved state issued) (applied : applyInitialization state policy = .ok result) :
    Conserved result issued := by
  obtain ⟨_, _, _, rfl⟩ := applyInitialization_inv applied
  exact ⟨conserved.balanced, conserved.staked, conserved.nonneg⟩

theorem applyEnrollment_conserves {state result : State} {userId : UserId} {enrolledAt : Int64}
    {issued : Int} (conserved : Conserved state issued)
    (applied : applyEnrollment state userId enrolledAt = .ok result) : Conserved result issued := by
  obtain ⟨_, _, fresh, rfl⟩ := applyEnrollment_inv applied
  refine ⟨?_, conserved.staked, NonnegBalances.insert conserved.nonneg (le_refl _)⟩
  have added := BTreeMap.total_insert_new (f := fun _ (account : Account) => account.balance.toInt)
    (v := ⟨⟨0⟩, enrolledAt⟩) fresh
  have balanced := conserved.balanced
  simp only [State.points, sumBalances] at balanced ⊢
  rw [added]
  simpa [Points.toInt] using balanced

theorem applyGrant_conserves {state result : State} {userId : UserId} {reason : GrantReason}
    {amount : Points} {fromDue throughDue nextGrant : Int64} {issued : Int}
    (conserved : Conserved state issued)
    (applied : applyGrant state userId reason amount fromDue throughDue nextGrant = .ok result) :
    Conserved result (issued + amount.toInt) := by
  obtain ⟨_, account, balance, _, found, positive, added, rfl⟩ := applyGrant_inv applied
  have before := conserved.nonneg _ _ found
  refine ⟨?_, conserved.staked, NonnegBalances.insert conserved.nonneg (by dsimp only; omega)⟩
  have moved := sumBalances_insert state.accounts ⟨balance, nextGrant⟩ found
  have balanced := conserved.balanced
  simp only [State.points] at balanced ⊢
  dsimp only at moved
  omega

theorem applyMarketCreation_conserves [Lowercase] {state result : State} {id : MarketId} {creator : UserId}
    {question : String} {options : List String} {createdAt closesAt : Int64} {issued : Int}
    (conserved : Conserved state issued)
    (applied : applyMarketCreation state id creator question options createdAt closesAt = .ok result) :
    Conserved result issued := by
  obtain ⟨fresh, rfl⟩ := applyMarketCreation_inv applied
  refine ⟨?_, ?_, conserved.nonneg⟩
  · have balanced := conserved.balanced
    simp only [State.points, sumOpenPools] at balanced ⊢
    rw [BTreeMap.total_insert_new fresh]
    simpa [Market.held, Points.toInt] using balanced
  · intro other stored present
    rw [BTreeMap.getElem?_insert_eq] at present
    split at present
    · cases present
      simp [Points.toInt, sumBets]
    · exact conserved.staked other stored present

theorem applyBet_conserves {state result : State} {id : MarketId} {userId : UserId}
    {outcome : OutcomeIndex} {amount : Points} {acceptedAt : Int64} {issued : Int}
    (conserved : Conserved state issued)
    (applied : applyBet state id userId outcome amount acceptedAt = .ok result) :
    Conserved result issued := by
  obtain ⟨market, account, nextPool, found, isOpen, member, positive, enough, added, rfl⟩ :=
    applyBet_inv applied
  have debit : (⟨account.balance.val - amount.val⟩ : Points).toInt =
      account.balance.toInt - amount.toInt := toInt_sub_of_bounds positive.le enough
  refine ⟨?_, ?_, NonnegBalances.insert conserved.nonneg ?_⟩
  · have spent := sumBalances_insert state.accounts
      { account with balance := ⟨account.balance.val - amount.val⟩ } member
    have pooled := sumOpenPools_insert state.markets
      (market.placeBet ⟨userId, outcome, amount⟩ nextPool) found
    have held : market.held = market.totalStaked.toInt := if_pos isOpen
    have heldNext : (market.placeBet ⟨userId, outcome, amount⟩ nextPool).held = nextPool.toInt :=
      if_pos isOpen
    have balanced := conserved.balanced
    simp only [State.points] at balanced ⊢
    dsimp only at spent
    omega
  · intro other stored present
    rw [BTreeMap.getElem?_insert_eq] at present
    split at present
    · cases present
      have staked := conserved.staked id market found
      simp only [Market.placeBet, sumBets, List.map_append, List.sum_append] at staked ⊢
      rw [added, staked]
      simp
    · exact conserved.staked other stored present
  · dsimp only
    omega

theorem applyResolution_conserves {state result : State} {id : MarketId} {outcome : OutcomeIndex}
    {resolver : UserId} {settledAt : Int64} {payouts : List Allocation} {refunded : Bool} {issued : Int}
    (conserved : Conserved state issued)
    (applied : applyResolution state id outcome resolver settledAt payouts refunded = .ok result) :
    Conserved result issued := by
  obtain ⟨market, recorded, accounts, found, isOpen, entries, checked, credited, rfl⟩ :=
    applyResolution_inv applied
  obtain ⟨total, positive⟩ := recordedAllocations_total entries
  have whole := checkResolution_total (conserved.staked id market found) checked
  exact conserved.settle found isOpen (by simp) rfl rfl positive credited (total ▸ whole)

theorem applyCancellation_conserves {state result : State} {id : MarketId} {moderator : UserId}
    {refunds : List Allocation} {issued : Int} (conserved : Conserved state issued)
    (applied : applyCancellation state id moderator refunds = .ok result) : Conserved result issued := by
  obtain ⟨market, recorded, accounts, found, isOpen, entries, computed, credited, rfl⟩ :=
    applyCancellation_inv applied
  obtain ⟨total, positive⟩ := recordedAllocations_total entries
  have whole : sumPoints recorded = market.totalStaked.toInt := by
    rw [stakes_total computed, selected_all, conserved.staked id market found]
  exact conserved.settle found isOpen (by simp) rfl rfl positive credited (total ▸ whole)

theorem applyResolverAdded_conserves {state result : State} {id : MarketId} {userId addedBy : UserId}
    {addedAt : Int64} {issued : Int} (conserved : Conserved state issued)
    (applied : applyResolverAdded state id userId addedBy addedAt = .ok result) :
    Conserved result issued := by
  obtain ⟨market, found, _, rfl⟩ := applyResolverAdded_inv applied
  exact conserved.market_insert found rfl (conserved.staked id market found)

theorem applyResolverRemoved_conserves {state result : State} {id : MarketId} {userId removedBy : UserId}
    {removedAt : Int64} {issued : Int} (conserved : Conserved state issued)
    (applied : applyResolverRemoved state id userId removedBy removedAt = .ok result) :
    Conserved result issued := by
  obtain ⟨market, found, _, rfl⟩ := applyResolverRemoved_inv applied
  exact conserved.market_insert found rfl (conserved.staked id market found)

/-- One event keeps the books: a grant issues its amount, every other event moves points only. -/
theorem applyInner_conserves [Lowercase] {state result : State} {event : Event} {issued : Int}
    (conserved : Conserved state issued) (applied : applyInner state event = .ok result) :
    Conserved result (issued + event.granted) := by
  cases event with
  | announcementsEnabled channelId moderator enabledAt =>
    obtain ⟨_, _, stored⟩ := bind_eq_ok.mp applied
    cases stored
    simpa [Event.granted] using conserved
  | guildEconomyInitialized amount interval =>
    simpa [Event.granted] using applyInitialization_conserves conserved applied
  | memberEnrolled userId enrolledAt =>
    simpa [Event.granted] using applyEnrollment_conserves conserved applied
  | pointsGranted userId reason amount fromDue throughDue nextGrant =>
    exact applyGrant_conserves conserved applied
  | marketCreated id creator question options createdAt closesAt =>
    simpa [Event.granted] using applyMarketCreation_conserves conserved applied
  | betPlaced id userId outcome amount acceptedAt =>
    simpa [Event.granted] using applyBet_conserves conserved applied
  | marketResolved id outcome resolver settledAt payouts refunded =>
    simpa [Event.granted] using applyResolution_conserves conserved applied
  | marketResolverAdded id userId addedBy addedAt =>
    simpa [Event.granted] using applyResolverAdded_conserves conserved applied
  | marketResolverRemoved id userId removedBy removedAt =>
    simpa [Event.granted] using applyResolverRemoved_conserves conserved applied
  | marketCancelled id moderator cancelledAt refunds =>
    simpa [Event.granted] using applyCancellation_conserves conserved applied

theorem foldlM_applyInner_conserves [Lowercase] :
    ∀ {events : List Event} {state result : State} {issued : Int}, Conserved state issued →
      events.foldlM applyInner state = .ok result → Conserved result (issued + sumGranted events) := by
  intro events
  induction events with
  | nil =>
    intro state result issued conserved run
    cases run
    simpa [sumGranted] using conserved
  | cons event rest ih =>
    intro state result issued conserved run
    rw [List.foldlM_cons, bind_eq_ok] at run
    obtain ⟨middle, first, run⟩ := run
    have later := ih (applyInner_conserves conserved first) run
    simpa [sumGranted, Int.add_assoc] using later

theorem conserved_empty : Conserved {} 0 := by
  refine ⟨?_, ?_, ?_⟩
  · simp [State.points, sumBalances, sumOpenPools]
  · intro id market found
    simp at found
  · intro user account found
    simp at found

theorem replay_conserves [Lowercase] {events : List Event} {state : State}
    (accepted : replay events = .ok state) : Conserved state (sumGranted events) := by
  simpa using foldlM_applyInner_conserves conserved_empty accepted

/-- What a caller sends to the decider: who asks, what, when, and the evidence about a member. -/
structure Request where
  actor : Actor
  command : Command
  now : Int64
  defaults : Policy
  membership : Option MembershipEvidence

/-- One decision followed by the application of its events; a rejection changes nothing. -/
def perform [Lowercase] (run : State × List Event) (request : Request) : State × List Event :=
  match decideWithMembership run.1 request.actor request.command request.now request.defaults
      request.membership with
  | .error _ => run
  | .ok decision =>
    match decision.events.foldlM apply run.1 with
    | .error _ => run
    | .ok next => (next, run.2 ++ decision.events)

def performAll [Lowercase] (requests : List Request) : State × List Event :=
  requests.foldl perform ({}, [])

theorem perform_replays [Lowercase] {run : State × List Event} (request : Request)
    (replayed : replay run.2 = .ok run.1) :
    replay (perform run request).2 = .ok (perform run request).1 := by
  unfold perform
  split
  · exact replayed
  · split
    · exact replayed
    · rename_i decision _ next applied
      exact foldlM_append_ok replayed applied

theorem performAll_replays [Lowercase] (requests : List Request) :
    replay (performAll requests).2 = .ok (performAll requests).1 := by
  unfold performAll
  induction requests using List.reverseRecOn with
  | nil => rfl
  | append_singleton earlier request ih =>
    rw [List.foldl_append]
    exact perform_replays request ih

theorem points_are_conserved [Lowercase] :
    (∀ events state, replay events = .ok state → Conserved state (sumGranted events)) ∧
      ∀ requests, replay (performAll requests).2 = .ok (performAll requests).1 ∧
        Conserved (performAll requests).1 (sumGranted (performAll requests).2) :=
  ⟨fun _ _ accepted => replay_conserves accepted,
    fun requests => ⟨performAll_replays requests, replay_conserves (performAll_replays requests)⟩⟩

def rainId : MarketId := ⟨"00000000-0000-4000-8000-000000000000"⟩

def rainHistory : List Event :=
  [.guildEconomyInitialized ⟨100⟩ 60, .memberEnrolled ⟨7⟩ 0, .pointsGranted ⟨7⟩ .initial ⟨100⟩ 0 0 60,
    .marketCreated rainId ⟨7⟩ "Rain?" ["Yes", "No"] 1 9, .betPlaced rainId ⟨7⟩ ⟨1⟩ ⟨30⟩ 2]

theorem points_are_conserved_rain :
    letI : Lowercase := asciiLowercase
    ∃ state, replay rainHistory = .ok state ∧ Conserved state 100 := by
  let : Lowercase := asciiLowercase
  obtain ⟨state, accepted⟩ := exists_eq_ok (x := replay rainHistory) (by decide +kernel)
  exact ⟨state, accepted, points_are_conserved.1 _ _ accepted⟩

end PredictionBot

import BazelRepo.PredictionBot.Events
import BazelRepo.PredictionBot.Payouts
import Mathlib.Algebra.BigOperators.Ring.Finset

namespace PredictionBot

open Library

/-- What one event does to the market it names, absent before its creation. -/
inductive MarketStep [Lowercase] (id : MarketId) : Option Market → Market → Prop where
  | created {creator : UserId} {question : String} {options : List String} {createdAt closesAt : Int64}
      (identified : validMarketId id = true) (described : validMarket question options = .ok ()) :
      MarketStep id none
        { creator, question, options, closesAt, createdAt, status := .opened, bets := [],
          totalStaked := ⟨0⟩, payouts := [], resolvers := ∅ }
  | placed {market : Market} {bet : Bet} {nextPool : Points} (isOpen : market.status = .opened)
      (listed : bet.outcome.val < market.options.length) (positive : 0 < bet.amount.toInt)
      (added : nextPool.toInt = market.totalStaked.toInt + bet.amount.toInt) :
      MarketStep id (some market) (market.placeBet bet nextPool)
  | resolved {market : Market} {outcome : OutcomeIndex} {refunded : Bool} {payouts : List Allocation}
      {accounts : BTreeMap UserId Account} {recorded : BTreeMap UserId Points}
      (isOpen : market.status = .opened) (listed : outcome.val < market.options.length)
      (entries : recordedAllocations payouts accounts = .ok recorded)
      (checked : checkResolution market outcome recorded refunded = .ok ()) :
      MarketStep id (some market) { market with payouts := payouts, status := .resolved outcome refunded }
  | cancelled {market : Market} (isOpen : market.status = .opened) :
      MarketStep id (some market) { market with status := .cancelled }
  | delegated {market : Market} {resolvers : Finset UserId} (isOpen : market.status = .opened) :
      MarketStep id (some market) { market with resolvers := resolvers }

theorem applyMarketCreation_valid [Lowercase] {state result : State} {id : MarketId} {creator : UserId}
    {question : String} {options : List String} {createdAt closesAt : Int64}
    (applied : applyMarketCreation state id creator question options createdAt closesAt = .ok result) :
    validMarketId id = true ∧ validMarket question options = .ok () := by
  unfold applyMarketCreation at applied
  simp only [bind_eq_ok, reject_eq_ok, not_or, not_not] at applied
  rcases applied with ⟨⟨_, identified, _⟩, _, described, _⟩
  exact ⟨identified, described⟩

theorem applyBet_listed {state result : State} {id : MarketId} {userId : UserId} {outcome : OutcomeIndex}
    {amount : Points} {acceptedAt : Int64} {market : Market} (found : state.markets[id]? = some market)
    (applied : applyBet state id userId outcome amount acceptedAt = .ok result) :
    outcome.val < market.options.length := by
  unfold applyBet at applied
  simp only [found, okOr, ok_bind, reject_eq_ok, not_or, not_le] at applied
  exact applied.1.2.2.2.1

theorem applyResolution_listed {state result : State} {id : MarketId} {outcome : OutcomeIndex}
    {resolver : UserId} {settledAt : Int64} {payouts : List Allocation} {refunded : Bool} {market : Market}
    (found : state.markets[id]? = some market)
    (applied : applyResolution state id outcome resolver settledAt payouts refunded = .ok result) :
    outcome.val < market.options.length := by
  unfold applyResolution at applied
  simp only [found, okOr, ok_bind, reject_eq_ok, not_or, not_le] at applied
  exact applied.1.2.1

theorem insert_marketStep [Lowercase] {markets : BTreeMap MarketId Market} {named id : MarketId}
    {placed market : Market} (step : MarketStep named markets[named]? placed)
    (found : (markets.insert named placed)[id]? = some market) :
    markets[id]? = some market ∨ MarketStep id markets[id]? market := by
  rw [BTreeMap.getElem?_insert_eq] at found
  split at found
  · rename_i same
    cases same
    cases found
    exact .inr step
  · exact .inl found

theorem applyInner_marketStep [Lowercase] {state result : State} {event : Event} {id : MarketId} {market : Market}
    (applied : applyInner state event = .ok result) (found : result.markets[id]? = some market) :
    state.markets[id]? = some market ∨ MarketStep id state.markets[id]? market := by
  cases event with
  | announcementsEnabled channelId moderator enabledAt =>
    rcases bind_eq_ok.mp applied with ⟨_, _, same⟩
    cases same
    exact .inl found
  | guildEconomyInitialized amount interval =>
    rcases applyInitialization_inv applied with ⟨_, _, _, rfl⟩
    exact .inl found
  | memberEnrolled userId enrolledAt =>
    rcases applyEnrollment_inv applied with ⟨_, _, _, rfl⟩
    exact .inl found
  | pointsGranted userId reason amount fromDue throughDue nextGrant =>
    rcases applyGrant_inv applied with ⟨_, _, _, _, _, _, _, rfl⟩
    exact .inl found
  | marketCreated created creator question options createdAt closesAt =>
    rcases applyMarketCreation_valid applied with ⟨identified, described⟩
    rcases applyMarketCreation_inv applied with ⟨fresh, rfl⟩
    apply insert_marketStep _ found
    rw [fresh]
    exact .created identified described
  | betPlaced placed userId outcome amount acceptedAt =>
    rcases applyBet_inv applied with ⟨old, _, _, present, isOpen, _, positive, _, added, rfl⟩
    have listed := applyBet_listed present applied
    apply insert_marketStep _ found
    rw [present]
    exact .placed isOpen listed positive added
  | marketResolved resolved outcome resolver settledAt payouts refunded =>
    rcases applyResolution_inv applied with ⟨old, _, _, present, isOpen, entries, checked, _, rfl⟩
    have listed := applyResolution_listed present applied
    apply insert_marketStep _ found
    rw [present]
    exact .resolved isOpen listed entries checked
  | marketResolverAdded changed userId addedBy addedAt =>
    rcases applyResolverAdded_inv applied with ⟨old, present, isOpen, rfl⟩
    apply insert_marketStep _ found
    rw [present]
    exact .delegated isOpen
  | marketResolverRemoved changed userId removedBy removedAt =>
    rcases applyResolverRemoved_inv applied with ⟨old, present, isOpen, rfl⟩
    apply insert_marketStep _ found
    rw [present]
    exact .delegated isOpen
  | marketCancelled cancelled moderator cancelledAt refunds =>
    rcases applyCancellation_inv applied with ⟨old, _, _, present, isOpen, _, _, _, rfl⟩
    apply insert_marketStep _ found
    rw [present]
    exact .cancelled isOpen

theorem replay_markets [Lowercase] {P : MarketId → Market → Prop} {events : List Event} {state : State}
    (keeps : ∀ id old market, MarketStep id old market → (∀ before, old = some before → P id before) → P id market)
    (reached : replay events = .ok state) :
    ∀ (id : MarketId) (market : Market), state.markets[id]? = some market → P id market := by
  have start : ∀ (id : MarketId) (market : Market), ({} : State).markets[id]? = some market → P id market := by
    intro id market found
    simp at found
  unfold replay at reached
  refine foldlM_invariant (P := fun (state : State) => ∀ (id : MarketId) (market : Market),
    state.markets[id]? = some market → P id market) ?_ events {} state start reached
  intro before event after holds step id market found
  rcases applyInner_marketStep step found with same | stepped
  · exact holds id market same
  · exact keeps id _ market stepped fun old present => holds id old present

def Market.Paid (market : Market) (outcome : OutcomeIndex) (refunded : Bool) : Prop :=
  ∃ accounts recorded, recordedAllocations market.payouts accounts = .ok recorded ∧
    checkResolution market outcome recorded refunded = .ok ()

structure Market.Valid [Lowercase] (id : MarketId) (market : Market) : Prop where
  identified : validMarketId id = true
  described : validMarket market.question market.options = .ok ()
  listed : ∀ bet ∈ market.bets, bet.outcome.val < market.options.length
  positive : ∀ bet ∈ market.bets, 0 < bet.amount.toInt
  staked : market.totalStaked.toInt = sumBets market.bets
  settled : ∀ outcome refunded, market.status = .resolved outcome refunded →
    outcome.val < market.options.length ∧ market.Paid outcome refunded

theorem MarketStep.valid [Lowercase] {id : MarketId} {old : Option Market} {market : Market}
    (step : MarketStep id old market) (valid : ∀ before, old = some before → before.Valid id) : market.Valid id := by
  cases step with
  | created identified described =>
    exact ⟨identified, described, by simp, by simp, by simp [sumBets, Points.toInt], by simp⟩
  | placed isOpen listed positive added =>
    rename_i before bet nextPool
    have earlier := valid before rfl
    refine ⟨earlier.identified, earlier.described, ?_, ?_, ?_, ?_⟩
    · intro other member
      rcases List.mem_append.mp member with member | member
      · exact earlier.listed other member
      · cases List.mem_singleton.mp member
        exact listed
    · intro other member
      rcases List.mem_append.mp member with member | member
      · exact earlier.positive other member
      · cases List.mem_singleton.mp member
        exact positive
    · have staked := earlier.staked
      simp only [Market.placeBet, sumBets, List.map_append, List.sum_append, List.map_cons, List.map_nil,
        List.sum_singleton] at staked ⊢
      omega
    · intro outcome refunded resolved
      cases isOpen.symm.trans resolved
  | resolved isOpen listed entries checked =>
    have earlier := valid _ rfl
    refine ⟨earlier.identified, earlier.described, earlier.listed, earlier.positive, earlier.staked, ?_⟩
    intro outcome refunded same
    cases same
    exact ⟨listed, _, _, entries, checked⟩
  | cancelled isOpen =>
    have earlier := valid _ rfl
    exact ⟨earlier.identified, earlier.described, earlier.listed, earlier.positive, earlier.staked, by simp⟩
  | delegated isOpen =>
    have earlier := valid _ rfl
    refine ⟨earlier.identified, earlier.described, earlier.listed, earlier.positive, earlier.staked, ?_⟩
    intro outcome refunded resolved
    cases isOpen.symm.trans resolved

theorem replay_valid [Lowercase] {events : List Event} {state : State} (reached : replay events = .ok state) :
    ∀ (id : MarketId) (market : Market), state.markets[id]? = some market → market.Valid id :=
  replay_markets (P := fun id market => market.Valid id) (fun _ _ _ step valid => step.valid valid) reached

/-- The conversion to an unsigned 16-bit number; the source expects it to succeed. -/
def u16TryFrom (value : Int) : Option Nat :=
  if 0 ≤ value ∧ value < 2^16 then some value.toNat else none

/-- A step of the widened arithmetic, absent where it would leave 128 bits. -/
def i128 (value : Int) : Option Int :=
  if -2^127 ≤ value ∧ value < 2^127 then some value else none

def Market.amountsOn (market : Market) (index : Nat) : List Int64 :=
  (market.bets.filter (fun bet => bet.outcome.val = index)).map (fun bet => bet.amount.val)

def Market.sumOn (market : Market) (index : Nat) : Option Int :=
  (market.amountsOn index).foldlM (fun total amount => i128 (total + amount.toInt)) 0

/-- The tenths of a percent of one outcome, absent where the source would panic. -/
def Market.tenthsOn (market : Market) (index : Nat) : Option Nat := do
  let staked ← market.sumOn index
  let scaled ← i128 (staked * 1000)
  let raised ← i128 (scaled + market.totalStaked.val.toInt.tdiv 2)
  u16TryFrom (raised.tdiv market.totalStaked.val.toInt)

def OutcomeOdds.forMarketChecked (market : Market) : Option (List OutcomeOdds) :=
  market.options.zipIdx.mapM fun (label, index) =>
    if 0 < market.totalStaked.val.toInt then do
      let tenths ← market.tenthsOn index
      some { label, tenthsPercent := some tenths, movement := none, unchanged := false }
    else some { label, tenthsPercent := none, movement := none, unchanged := false }

/-- The amounts of a summary, absent where their 64-bit sum would overflow. -/
def StakeSummary.forMarketChecked (market : Market) : Option StakeSummary := do
  let outcomes ← market.options.zipIdx.mapM fun (_, index) =>
    (market.amountsOn index).foldlM Library.checkedAdd 0
  some { total := market.totalStaked, outcomes := outcomes.map Points.mk }

theorem foldlM_checkedAdd {amounts : List Int64} (nonneg : ∀ amount ∈ amounts, 0 ≤ amount.toInt)
    (fits : (amounts.map Int64.toInt).sum ≤ i64Max) :
    ∃ total, amounts.foldlM Library.checkedAdd 0 = some total ∧ total.toInt = (amounts.map Int64.toInt).sum := by
  have adds : ∀ s a : Int64, 0 ≤ s.toInt → 0 ≤ a.toInt → s.toInt + a.toInt ≤ i64Max →
      ∃ next, Library.checkedAdd s a = some next ∧ next.toInt = s.toInt + a.toInt := by
    intro s a held gained bound
    unfold i64Max at bound
    exact tryFrom_of_bounds (by omega) (by omega)
  have start : (0 : Int64).toInt = 0 := by decide
  rcases foldlM_checked_sum adds start.ge nonneg (by rwa [start, Int.zero_add]) with ⟨total, run, same⟩
  exact ⟨total, run, by rwa [start, Int.zero_add] at same⟩

theorem sum_toInt {amounts : List Int64} (nonneg : ∀ amount ∈ amounts, 0 ≤ amount.toInt)
    (fits : (amounts.map Int64.toInt).sum ≤ i64Max) : amounts.sum.toInt = (amounts.map Int64.toInt).sum := by
  induction amounts with
  | nil => decide
  | cons amount rest ih =>
    have others : ∀ other ∈ rest, 0 ≤ other.toInt := fun other member => nonneg other (List.mem_cons_of_mem _ member)
    have mine := nonneg amount List.mem_cons_self
    have remaining : 0 ≤ (rest.map Int64.toInt).sum := by
      apply List.sum_nonneg
      intro value member
      rcases List.mem_map.mp member with ⟨other, present, rfl⟩
      exact others other present
    rw [List.map_cons, List.sum_cons] at fits ⊢
    have later := ih others (by omega)
    unfold i64Max at fits
    rw [List.sum_cons, toInt_add_of_bounds (by omega) (by omega), later]

theorem i128_within {value : Int} (nonneg : 0 ≤ value) (bound : value < 2^127) : i128 value = some value := by
  unfold i128
  rw [if_pos (by omega)]

theorem foldlM_i128 {amounts : List Int64} (nonneg : ∀ amount ∈ amounts, 0 ≤ amount.toInt)
    (fits : (amounts.map Int64.toInt).sum ≤ i64Max) :
    amounts.foldlM (fun total amount => i128 (total + amount.toInt)) 0 = some (amounts.map Int64.toInt).sum := by
  have adds : ∀ (s : Int) (a : Int64), 0 ≤ s → 0 ≤ a.toInt → s + a.toInt ≤ i64Max →
      ∃ next, i128 (s + a.toInt) = some next ∧ next = s + a.toInt := by
    intro s a held gained bound
    unfold i64Max at bound
    exact ⟨_, i128_within (by omega) (by omega), rfl⟩
  rcases foldlM_checked_sum adds (le_refl 0) nonneg (by rwa [Int.zero_add]) with ⟨total, run, same⟩
  rw [run, same, Int.zero_add]

theorem stakedOn_eq (market : Market) (index : Nat) :
    stakedOn market index = ((market.amountsOn index).map Int64.toInt).sum := by
  unfold stakedOn Market.amountsOn
  rw [List.map_map]
  rfl

theorem sum_stakedOn {market : Market} {count : Nat} (listed : ∀ bet ∈ market.bets, bet.outcome.val < count) :
    ((List.range count).map (stakedOn market)).sum = sumBets market.bets := by
  apply sum_classes List.nodup_range (fun bet : Bet => bet.outcome.val) (fun bet => bet.amount.toInt)
  intro bet member
  exact List.mem_range.mpr (listed bet member)

section

variable [Lowercase] {id : MarketId} {market : Market} (valid : market.Valid id)

include valid

theorem amount_nonneg {index : Nat} : ∀ amount ∈ market.amountsOn index, 0 ≤ amount.toInt := by
  intro amount member
  rcases List.mem_map.mp member with ⟨bet, placed, rfl⟩
  exact (valid.positive bet (List.mem_of_mem_filter placed)).le

theorem stakedOn_bounds (index : Nat) : 0 ≤ stakedOn market index ∧ stakedOn market index ≤ market.totalStaked.toInt := by
  constructor
  · rw [stakedOn_eq]
    apply List.sum_nonneg
    intro value member
    rcases List.mem_map.mp member with ⟨amount, placed, rfl⟩
    exact amount_nonneg valid amount placed
  · rw [valid.staked]
    exact sum_filter_le _ fun bet member => (valid.positive bet member).le

theorem amountsOn_fit (index : Nat) : ((market.amountsOn index).map Int64.toInt).sum ≤ i64Max := by
  have bounds := stakedOn_bounds valid index
  have most := market.totalStaked.toInt_le_max
  rw [stakedOn_eq] at bounds
  exact bounds.2.trans most

theorem sumOn_eq (index : Nat) : market.sumOn index = some (stakedOn market index) := by
  rw [stakedOn_eq]
  exact foldlM_i128 (amount_nonneg valid) (amountsOn_fit valid index)

theorem tenthsOn_eq (index : Nat) (positive : 0 < market.totalStaked.toInt) :
    market.tenthsOn index = some (nearestShare 1000 market.totalStaked.toInt (stakedOn market index)).toNat ∧
      nearestShare 1000 market.totalStaked.toInt (stakedOn market index) ≤ 1000 := by
  rcases stakedOn_bounds valid index with ⟨nonneg, part⟩
  have most := market.totalStaked.toInt_le_max
  unfold i64Max at most
  have capped := nearestShare_le positive part (by decide : (0 : Int) ≤ 1000)
  have least := nearestShare_nonneg positive nonneg (by decide : (0 : Int) ≤ 1000)
  have half : market.totalStaked.toInt.tdiv 2 = market.totalStaked.toInt / 2 :=
    Int.tdiv_eq_ediv_of_nonneg positive.le
  have share : (stakedOn market index * 1000 + market.totalStaked.toInt / 2).tdiv market.totalStaked.toInt =
      nearestShare 1000 market.totalStaked.toInt (stakedOn market index) :=
    Int.tdiv_eq_ediv_of_nonneg (by omega)
  refine ⟨?_, capped⟩
  unfold Market.tenthsOn
  rw [sumOn_eq valid, Option.bind_eq_bind, Option.bind_some, i128_within (by omega) (by omega), Option.bind_some]
  change (i128 (_ + market.totalStaked.toInt.tdiv 2)).bind
    (fun raised => u16TryFrom (raised.tdiv market.totalStaked.toInt)) = _
  rw [half, i128_within (by omega) (by omega), Option.bind_some, share]
  unfold u16TryFrom
  rw [if_pos (by omega)]

theorem forMarket_checked : OutcomeOdds.forMarketChecked market = some (OutcomeOdds.forMarket market) := by
  apply mapM_eq_some_map
  rintro ⟨label, index⟩ member
  by_cases positive : 0 < market.totalStaked.val.toInt
  · dsimp only
    rw [if_pos positive, if_pos positive, (tenthsOn_eq valid index positive).1]
    rcases stakedOn_bounds valid index with ⟨nonneg, _⟩
    have share : (stakedOn market index * 1000 + market.totalStaked.val.toInt.tdiv 2).tdiv market.totalStaked.val.toInt =
        nearestShare 1000 market.totalStaked.toInt (stakedOn market index) := by
      rw [Int.tdiv_eq_ediv_of_nonneg positive.le, Int.tdiv_eq_ediv_of_nonneg (by omega)]
      rfl
    rw [share]
    rfl
  · dsimp only
    rw [if_neg positive, if_neg positive]

theorem tenths_eq (positive : 0 < market.totalStaked.toInt) :
    (OutcomeOdds.forMarket market).map OutcomeOdds.tenthsPercent =
      (List.range market.options.length).map fun index =>
        some (nearestShare 1000 market.totalStaked.toInt (stakedOn market index)).toNat := by
  have shares : ∀ entry : String × Nat, (if 0 < market.totalStaked.val.toInt then
        some ((stakedOn market entry.2 * 1000 + market.totalStaked.val.toInt.tdiv 2).tdiv market.totalStaked.val.toInt).toNat
      else none) = some (nearestShare 1000 market.totalStaked.toInt (stakedOn market entry.2)).toNat := by
    intro entry
    rcases stakedOn_bounds valid entry.2 with ⟨nonneg, _⟩
    have whole : 0 < market.totalStaked.val.toInt := positive
    rw [if_pos whole, Int.tdiv_eq_ediv_of_nonneg whole.le, Int.tdiv_eq_ediv_of_nonneg (by omega)]
    rfl
  unfold OutcomeOdds.forMarket
  rw [List.map_map, List.range_eq_range', ← List.zipIdx_map_snd 0 market.options, List.map_map]
  exact List.map_congr_left fun entry _ => shares entry

theorem summary_checked : StakeSummary.forMarketChecked market = some (StakeSummary.forMarket market) ∧
    (StakeSummary.forMarket market).outcomes.map Points.toInt =
      (List.range market.options.length).map (stakedOn market) := by
  have sums : ∀ index, (market.amountsOn index).sum.toInt = stakedOn market index := fun index =>
    (sum_toInt (amount_nonneg valid) (amountsOn_fit valid index)).trans (stakedOn_eq market index).symm
  constructor
  · have checked : ∀ index, (market.amountsOn index).foldlM Library.checkedAdd 0 = some (market.amountsOn index).sum := by
      intro index
      rcases foldlM_checkedAdd (amount_nonneg valid) (amountsOn_fit valid index) with ⟨total, run, same⟩
      rw [run, Int64.toInt_inj.mp (same.trans (sum_toInt (amount_nonneg valid) (amountsOn_fit valid index)).symm)]
    unfold StakeSummary.forMarketChecked
    rw [mapM_eq_some_map fun entry _ => checked entry.2, Option.bind_eq_bind, Option.bind_some, List.map_map]
    rfl
  · unfold StakeSummary.forMarket
    rw [List.map_map, List.range_eq_range', ← List.zipIdx_map_snd 0 market.options, List.map_map]
    exact List.map_congr_left fun entry _ => sums entry.2

end

structure Market.Priced (market : Market) : Prop where
  /-- Neither the 16-bit conversion nor the widened arithmetic before it fails. -/
  odds : OutcomeOdds.forMarketChecked market = some (OutcomeOdds.forMarket market)
  capped : ∀ outcome ∈ OutcomeOdds.forMarket market, ∀ tenths, outcome.tenthsPercent = some tenths → tenths ≤ 1000
  rounded : 0 < market.totalStaked.toInt → ∃ tenths : List Nat,
    (OutcomeOdds.forMarket market).map OutcomeOdds.tenthsPercent = tenths.map some ∧
      2 * |(tenths.sum : Int) - 1000| ≤ market.options.length
  /-- No 64-bit sum of the summary overflows. -/
  summary : StakeSummary.forMarketChecked market = some (StakeSummary.forMarket market)
  amounts : ((StakeSummary.forMarket market).outcomes.map Points.toInt).sum = market.totalStaked.toInt

theorem Market.Valid.priced [Lowercase] {id : MarketId} {market : Market} (valid : market.Valid id) : market.Priced := by
  rcases summary_checked valid with ⟨summary, amounts⟩
  constructor
  · exact forMarket_checked valid
  · intro outcome member tenths shown
    by_cases positive : 0 < market.totalStaked.toInt
    · have listed := List.mem_map_of_mem (f := OutcomeOdds.tenthsPercent) member
      rw [tenths_eq valid positive, List.mem_map] at listed
      rcases listed with ⟨index, _, same⟩
      rw [shown] at same
      have capped := (tenthsOn_eq valid index positive).2
      cases same
      omega
    · rcases List.mem_map.mp member with ⟨entry, _, rfl⟩
      have none_staked : ¬ 0 < market.totalStaked.val.toInt := positive
      simp [none_staked] at shown
  · intro positive
    refine ⟨(List.range market.options.length).map fun index =>
      (nearestShare 1000 market.totalStaked.toInt (stakedOn market index)).toNat, ?_, ?_⟩
    · rw [tenths_eq valid positive, List.map_map]
      rfl
    · have exhausted : ((List.range market.options.length).map (stakedOn market)).sum = market.totalStaked.toInt := by
        rw [sum_stakedOn valid.listed, valid.staked]
      have near := sum_nearestShare_near 1000 positive exhausted
      have casts : (((List.range market.options.length).map fun index =>
          (nearestShare 1000 market.totalStaked.toInt (stakedOn market index)).toNat).sum : Int) =
            (((List.range market.options.length).map (stakedOn market)).map
              (nearestShare 1000 market.totalStaked.toInt)).sum := by
        rw [Nat.cast_list_sum, List.map_map, List.map_map]
        congr 1
        apply List.map_congr_left
        intro index _
        exact Int.toNat_of_nonneg (nearestShare_nonneg positive (stakedOn_bounds valid index).1 (by decide))
      rw [casts]
      simpa using near
  · exact summary
  · rw [amounts, sum_stakedOn valid.listed, valid.staked]

/-- Every market of a guild's history shows odds and amounts that add up. -/
theorem odds_add_up [Lowercase] (events : List Event) (state : State) (id : MarketId) (market : Market)
    (reached : replay events = .ok state) (found : state.markets[id]? = some market) : market.Priced :=
  (replay_valid reached id market found).priced

theorem odds_add_up_rain :
    letI : Lowercase := asciiLowercase
    ∃ state market, replay rainHistory = .ok state ∧ state.markets[rainId]? = some market ∧ market.Priced := by
  let : Lowercase := asciiLowercase
  rcases exists_eq_ok (x := replay rainHistory) (by decide +kernel) with ⟨state, reached⟩
  have stored : (replay rainHistory).toOption.bind (fun state => state.markets[rainId]?.map Market.status) =
      some .opened := by decide +kernel
  rw [reached] at stored
  rcases Option.map_eq_some_iff.mp stored with ⟨market, found, _⟩
  exact ⟨state, market, reached, found, odds_add_up rainHistory state rainId market reached found⟩

end PredictionBot

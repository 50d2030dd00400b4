import BazelRepo.Library.Fitting
import BazelRepo.Library.Ranking
import BazelRepo.PredictionBot.Odds
import BazelRepo.PredictionBot.Settlement

namespace PredictionBot

open Library

/-- The characters kept from the units used so far; what does not fit is cut with an ellipsis. -/
def truncateLoop (limit : Nat) : Nat → List Char → List Char
  | _, [] => []
  | units, c :: rest =>
    if limit - 1 < units + utf16Units c then ['…']
    else c :: truncateLoop limit (units + utf16Units c) rest

def truncateTo (content : String) (limit : Nat) : String :=
  String.ofList (truncateLoop limit 0 content.toList)

structure Position where
  user : UserId
  net : Int64
  block : String
  deriving DecidableEq

/-- A bet added to its member's amounts, absent where the index or the sum would fail. -/
def addAmount (market : Market) (totals : BTreeMap UserId (List Int64)) (bet : Bet) :
    Option (BTreeMap UserId (List Int64)) := do
  let amounts := totals[bet.userId]?.getD (List.replicate market.options.length 0)
  let held ← amounts[bet.outcome.val]?
  let sum ← Library.checkedAdd held bet.amount.val
  some (totals.insert bet.userId (amounts.set bet.outcome.val sum))

def memberStakes (market : Market) : Option (BTreeMap UserId (List Int64)) :=
  market.bets.foldlM (addAmount market) ∅

def recordedPayouts (market : Market) : BTreeMap UserId Int64 :=
  market.payouts.foldl (fun payouts allocation => payouts.insert allocation.userId allocation.amount.val) ∅

def signed (value : Int64) : String :=
  if value < 0 then toString value else "+" ++ toString value

def stakeLine (market : Market) (entry : Int64 × Nat) : Option String := do
  let option ← market.options[entry.2]?
  some (toString (entry.2 + 1) ++ ". " ++ truncateTo option 48 ++ ": " ++ toString entry.1 ++ " points\n")

def position (market : Market) (payouts : BTreeMap UserId Int64) (member : UserId × List Int64) : Option Position := do
  let total ← member.2.foldlM Library.checkedAdd 0
  let payout := payouts[member.1]?.getD 0
  let net ← Library.checkedSub payout total
  let lines ← (member.2.zipIdx.filter fun entry => 0 < entry.1).mapM (stakeLine market)
  some
    { user := member.1
      net := net
      block := "<@" ++ toString member.1 ++ ">\n" ++ String.join lines ++ "Total stake: " ++ toString total ++
        " · Payout: " ++ toString payout ++ " · Net: " ++ signed net ++ "\n\n" }

def Position.key (position : Position) : Intᵒᵈ ×ₗ Nat :=
  toLex (OrderDual.toDual position.net.toInt, position.user.val.toNat)

def positions (market : Market) : Option (List Position) := do
  let stakes ← memberStakes market
  let result ← stakes.toList.mapM (position market (recordedPayouts market))
  some (sortByKey Position.key result)

/-- What heads every page of a resolved market, absent where the outcome is not listed. -/
def settlementHeader (id : MarketId) (market : Market) (outcome : OutcomeIndex) (refunded : Bool) : Option String := do
  let winner ← market.options[outcome.val]?
  some ("ID: " ++ id.val ++ "\nWinning outcome: " ++ toString (outcome.val + 1) ++ ". " ++ truncateTo winner 80 ++ "\n" ++
    (if refunded then "Refunded: no bets backed the winning outcome; stakes were returned."
      else "Settlement: recorded payouts.") ++ "\n\n")

/-- Space is reserved for the page indicator; the subtraction fails when the header leaves none. -/
def pageBudget (header : String) : Option Nat :=
  if utf16Len header + 100 ≤ 4096 then some (4096 - utf16Len header - 100) else none

def positionPages (budget : Nat) (positions : List Position) : List (List Position) :=
  pack (fun position => utf16Len position.block) budget positions

def pageText (page : List Position) : String :=
  String.join (page.map Position.block)

def describePage (header : String) (noBets : Bool) (pages page : Nat) (text : String) : String :=
  header ++ "Bettors · Page " ++ toString (page + 1) ++ " of " ++ toString pages ++ "\n\n" ++
    (if noBets then "No bets were placed in this market." else text)

/-- A panel as it is sent: its text, the embed, and the buttons with the controls they name. -/
structure Panel where
  content : String
  title : String
  description : String
  buttons : List (String × String)

def Status.isResolved : Status → Bool
  | .resolved .. => true
  | _ => false

def marketPageSize : Nat := 25

def controlPrefix (guild : GuildId) (actor : Actor) : String :=
  s!"pm:{guild.val}:{actor.userId}"

/-- The panel of one resolved market; nothing inside where the source would panic. -/
def marketPanel (state : State) (guild : GuildId) (actor : Actor) (id : MarketId) (requestedPage : Nat) :
    Except String (Option Panel) :=
  if ¬ state.accounts.contains actor.userId then .error "You are not enrolled. Use /market join first."
  else do
    let market ← okOr state.markets[id]? "This market does not exist in this server."
    match market.status with
    | .resolved outcome refunded => .ok do
      let header ← settlementHeader id market outcome refunded
      let budget ← pageBudget header
      let listed ← positions market
      let pages := positionPages budget listed
      let page := min requestedPage (pages.length - 1)
      let shown ← pages[page]?
      let control := controlPrefix guild actor
      let previous := if 0 < page then [("Previous", s!"{control}:ps:{id}:{page - 1}")] else []
      let next := if page + 1 < pages.length then [("Next", s!"{control}:ps:{id}:{page + 1}")] else []
      let resolvedMarkets := state.markets.toList.filter fun entry => entry.2.status.isResolved
      let marketPage := (resolvedMarkets.findIdx? fun entry => entry.1 = id).getD 0 / marketPageSize
      some
        { content := "Recorded positions and settlement results."
          title := truncateTo market.question 256
          description := describePage header market.bets.isEmpty pages.length page (pageText shown)
          buttons := previous ++ next ++ [("Back to markets", s!"{control}:pp:{marketPage}")] }
    | _ => .error "Positions are available only for resolved markets."

def memberStake (bets : List Bet) (user : UserId) (index : Nat) : Int :=
  (((bets.filter fun bet => bet.userId = user).filter fun bet => bet.outcome.val = index).map
    fun bet => bet.amount.toInt).sum

def stakedBy (bets : List Bet) (user : UserId) : Int :=
  sumBets (bets.filter fun bet => bet.userId = user)

theorem memberStake_append (bets : List Bet) (bet : Bet) (user : UserId) (index : Nat) :
    memberStake (bets ++ [bet]) user index =
      memberStake bets user index + if bet.userId = user ∧ bet.outcome.val = index then bet.amount.toInt else 0 := by
  unfold memberStake
  by_cases mine : bet.userId = user
  · by_cases chosen : bet.outcome.val = index <;> simp [List.filter_append, mine, chosen]
  · simp [List.filter_append, mine]

theorem sum_memberStake {bets : List Bet} {count : Nat} (listed : ∀ bet ∈ bets, bet.outcome.val < count) (user : UserId) :
    ((List.range count).map (memberStake bets user)).sum = stakedBy bets user := by
  apply sum_classes List.nodup_range (fun bet : Bet => bet.outcome.val) (fun bet => bet.amount.toInt)
  intro bet member
  exact List.mem_range.mpr (listed bet (List.mem_of_mem_filter member))

theorem memberStake_le {bets : List Bet} (positive : ∀ bet ∈ bets, 0 < bet.amount.toInt) (user : UserId) (index : Nat) :
    0 ≤ memberStake bets user index ∧ memberStake bets user index ≤ stakedBy bets user ∧ stakedBy bets user ≤ sumBets bets := by
  have gains : ∀ bet ∈ bets, 0 ≤ bet.amount.toInt := fun bet member => (positive bet member).le
  have mine : ∀ bet ∈ bets.filter (fun bet => bet.userId = user), 0 ≤ bet.amount.toInt :=
    fun bet member => gains bet (List.mem_of_mem_filter member)
  refine ⟨?_, sum_filter_le _ mine, sum_filter_le _ gains⟩
  apply List.sum_nonneg
  intro amount member
  rcases List.mem_map.mp member with ⟨bet, chosen, rfl⟩
  exact mine bet (List.mem_of_mem_filter chosen)

structure Tracks (count : Nat) (bets : List Bet) (totals : BTreeMap UserId (List Int64)) : Prop where
  amounts : ∀ (user : UserId) (held : List Int64), totals[user]? = some held →
    held.map Int64.toInt = (List.range count).map (memberStake bets user)
  members : ∀ user : UserId, (∃ held, totals[user]? = some held) ↔ ∃ bet ∈ bets, bet.userId = user

theorem Tracks.current {count : Nat} {bets : List Bet} {totals : BTreeMap UserId (List Int64)}
    (tracks : Tracks count bets totals) (user : UserId) :
    (totals[user]?.getD (List.replicate count 0)).map Int64.toInt = (List.range count).map (memberStake bets user) := by
  cases found : totals[user]? with
  | some held => exact tracks.amounts user held found
  | none =>
    have absent : bets.filter (fun bet => bet.userId = user) = [] := by
      rw [List.filter_eq_nil_iff]
      intro bet member same
      rcases (tracks.members user).mpr ⟨bet, member, of_decide_eq_true same⟩ with ⟨held, present⟩
      rw [found] at present
      cases present
    have empty : ∀ index, memberStake bets user index = 0 := by
      intro index
      unfold memberStake
      rw [absent]
      rfl
    rw [Option.getD_none, List.map_replicate, List.map_congr_left fun index _ => empty index, List.map_const',
      List.length_range]
    rfl

theorem Tracks.add {market : Market} {bets : List Bet} {totals : BTreeMap UserId (List Int64)} {bet : Bet}
    (tracks : Tracks market.options.length bets totals) (listed : bet.outcome.val < market.options.length)
    (positive : ∀ other ∈ bets ++ [bet], 0 < other.amount.toInt) (fits : sumBets (bets ++ [bet]) ≤ i64Max) :
    ∃ next, addAmount market totals bet = some next ∧ Tracks market.options.length (bets ++ [bet]) next := by
  have current := tracks.current bet.userId
  have length := congrArg List.length current
  rw [List.length_map, List.length_map, List.length_range] at length
  unfold addAmount
  dsimp only
  generalize totals[bet.userId]?.getD (List.replicate market.options.length 0) = amounts at current length
  have inside : bet.outcome.val < amounts.length := by omega
  have held : amounts[bet.outcome.val].toInt = memberStake bets bet.userId bet.outcome.val := by
    have at_index := congrArg (fun values => values[bet.outcome.val]?) current
    simpa [inside, listed] using at_index
  have grown := memberStake_append bets bet bet.userId bet.outcome.val
  rw [if_pos ⟨rfl, rfl⟩] at grown
  have bounds := memberStake_le positive bet.userId bet.outcome.val
  unfold i64Max at fits
  rcases tryFrom_of_bounds (i := amounts[bet.outcome.val].toInt + bet.amount.val.toInt)
    (by unfold Points.toInt at grown; omega) (by unfold Points.toInt at grown; omega) with ⟨sum, added, same⟩
  have checked : Library.checkedAdd amounts[bet.outcome.val] bet.amount.val = some sum := added
  refine ⟨totals.insert bet.userId (amounts.set bet.outcome.val sum), ?_, ?_, ?_⟩
  · rw [List.getElem?_eq_getElem inside, Option.bind_eq_bind, Option.bind_some, checked]
    rfl
  · intro user kept found
    rw [BTreeMap.getElem?_insert_eq] at found
    by_cases mine : user = bet.userId
    · subst mine
      rw [if_pos rfl] at found
      cases found
      apply List.ext_getElem
      · simpa using length
      · intro index first second
        rw [List.length_map, List.length_range] at second
        have before := congrArg (fun values => values[index]?) current
        have present : index < amounts.length := by omega
        simp only [List.getElem?_map, List.getElem?_eq_getElem present, Option.map_some, List.getElem?_range second,
          Option.some.injEq] at before
        rw [List.getElem_map, List.getElem_set, List.getElem_map, List.getElem_range, memberStake_append]
        by_cases chosen : bet.outcome.val = index
        · rw [if_pos chosen, if_pos ⟨rfl, chosen⟩, ← chosen]
          rw [held] at same
          exact same
        · rw [if_neg chosen, if_neg fun both => chosen both.2, before, Int.add_zero]
    · rw [if_neg mine] at found
      rw [tracks.amounts user kept found]
      apply List.map_congr_left
      intro index _
      rw [memberStake_append, if_neg fun both => mine both.1.symm, Int.add_zero]
  · intro user
    rw [BTreeMap.getElem?_insert_eq]
    by_cases mine : user = bet.userId
    · subst mine
      simp
    · rw [if_neg mine, tracks.members user]
      simp [Ne.symm mine]

theorem memberStakes_tracks [Lowercase] {id : MarketId} {market : Market} (valid : market.Valid id) :
    ∃ totals, memberStakes market = some totals ∧ Tracks market.options.length market.bets totals := by
  have most := market.totalStaked.toInt_le_max
  rw [valid.staked] at most
  have listed := valid.listed
  have positive := valid.positive
  unfold memberStakes
  generalize market.bets = bets at most listed positive ⊢
  induction bets using List.reverseRecOn with
  | nil =>
    refine ⟨∅, rfl, ?_, ?_⟩
    · intro user held found
      simp at found
    · simp
  | append_singleton earlier bet ih =>
    have gains : ∀ other ∈ earlier, 0 < other.amount.toInt := fun other member => positive other (List.mem_append_left _ member)
    have split : sumBets (earlier ++ [bet]) = sumBets earlier + bet.amount.toInt := by simp [sumBets]
    have last := positive bet (by simp)
    rcases ih (by omega) (fun other member => listed other (List.mem_append_left _ member)) gains with
      ⟨totals, run, tracks⟩
    rcases tracks.add (listed bet (by simp)) positive most with ⟨next, added, after⟩
    refine ⟨next, ?_, after⟩
    rw [List.foldlM_append, run, Option.bind_eq_bind, Option.bind_some]
    simpa using added

def paidTo (payouts : BTreeMap UserId Int64) (user : UserId) : Int :=
  (payouts[user]?.getD 0).toInt

theorem recorded_payouts {accounts : BTreeMap UserId Account} : ∀ {entries : List Allocation}
    {recorded result : BTreeMap UserId Points} {payouts : BTreeMap UserId Int64},
    entries.foldlM (recordAllocation accounts) recorded = .ok result →
    (∀ user : UserId, payouts[user]? = recorded[user]?.map Points.val) →
    (∀ user : UserId, paidTo (entries.foldl (fun payouts entry => payouts.insert entry.userId entry.amount.val) payouts)
      user = paidTo payouts user + ((entries.filter fun entry => entry.userId = user).map
        fun entry => entry.amount.toInt).sum) ∧
      (∀ user : UserId, (∃ points, result[user]? = some points) ↔
        (∃ points, recorded[user]? = some points) ∨ ∃ entry ∈ entries, entry.userId = user) := by
  intro entries
  induction entries with
  | nil =>
    intro recorded result payouts run _
    cases run
    simp
  | cons entry rest ih =>
    intro recorded result payouts run same
    rw [List.foldlM_cons, bind_eq_ok] at run
    rcases run with ⟨middle, first, run⟩
    rcases recordAllocation_eq_ok.mp first with ⟨_, _, fresh, rfl⟩
    have next : ∀ user : UserId, (payouts.insert entry.userId entry.amount.val)[user]? =
        (recorded.insert entry.userId entry.amount)[user]?.map Points.val := by
      intro user
      rw [BTreeMap.getElem?_insert_eq, BTreeMap.getElem?_insert_eq]
      by_cases mine : user = entry.userId
      · rw [if_pos mine, if_pos mine]
        rfl
      · rw [if_neg mine, if_neg mine, same user]
    rcases ih run next with ⟨paid, keys⟩
    constructor
    · intro user
      rw [List.foldl_cons, paid user]
      unfold paidTo
      rw [BTreeMap.getElem?_insert_eq]
      by_cases mine : user = entry.userId
      · subst mine
        simp [same, fresh, Points.toInt]
      · simp [mine, Ne.symm mine]
    · intro user
      rw [keys user, BTreeMap.getElem?_insert_eq]
      by_cases mine : user = entry.userId
      · subst mine
        simp
      · simp [mine, Ne.symm mine]

theorem recorded_bettors [Lowercase] {id : MarketId} {market : Market} {outcome : OutcomeIndex} {refunded : Bool}
    {recorded : BTreeMap UserId Points} (valid : market.Valid id)
    (checked : checkResolution market outcome recorded refunded = .ok ()) {user : UserId} {points : Points}
    (found : recorded[user]? = some points) : ∃ bet ∈ market.bets, bet.userId = user := by
  have bettors : ∀ (chosen : Option OutcomeIndex) (totals : BTreeMap UserId Points), stakes market chosen = .ok totals →
      ∀ points : Points, totals[user]? = some points → ∃ bet ∈ market.bets, bet.userId = user := by
    intro chosen totals computed points present
    rcases @stakes_ok market (fun user => ∃ bet ∈ market.bets, bet.userId = user) valid.staked
      (fun bet member => ⟨valid.positive bet member, bet, member, rfl⟩) chosen with ⟨other, same, positive⟩
    rw [computed] at same
    cases same
    exact (positive user points present).2
  unfold checkResolution at checked
  rcases bind_eq_ok.mp checked with ⟨winningStakes, computed, checked⟩
  split at checked
  · rcases reject_eq_ok.mp checked with ⟨_, checked⟩
    rcases bind_eq_ok.mp checked with ⟨all, every, checked⟩
    rcases reject_eq_ok.mp checked with ⟨same, _⟩
    rw [not_not.mp same] at found
    exact bettors none all every points found
  · rcases reject_eq_ok.mp checked with ⟨agrees, _⟩
    simp only [not_or, not_not] at agrees
    rcases agrees with ⟨_, sizes, covers⟩
    have paid : ∀ (winner : UserId) (stake : Points), winningStakes[winner]? = some stake →
        ∃ amount, recorded[winner]? = some amount := by
      intro winner stake present
      cases entry : recorded[winner]? with
      | some amount => exact ⟨amount, rfl⟩
      | none =>
        refine (covers ?_).elim
        rw [List.any_eq_true]
        exact ⟨(winner, stake), BTreeMap.mem_toList.mpr present, by simp [entry]⟩
    rcases BTreeMap.keys_of_size_le paid sizes.le found with ⟨stake, won⟩
    exact bettors (some outcome) winningStakes computed stake won

end PredictionBot

import BazelRepo.PredictionBot.Positions

namespace PredictionBot

open Library

theorem utf16Len_truncateLoop {limit : Nat} {characters : List Char} : ∀ {units : Nat}, units ≤ limit - 1 →
    units + ((truncateLoop limit units characters).map utf16Units).sum ≤ limit - 1 + 1 := by
  induction characters with
  | nil =>
    intro units within
    simp only [truncateLoop, List.map_nil, List.sum_nil]
    omega
  | cons c rest ih =>
    intro units within
    unfold truncateLoop
    by_cases full : limit - 1 < units + utf16Units c
    · have ellipsis : utf16Units '…' = 1 := by decide
      rw [if_pos full]
      simp only [List.map_cons, List.map_nil, List.sum_singleton, ellipsis]
      omega
    · rw [if_neg full, List.map_cons, List.sum_cons, ← Nat.add_assoc]
      exact ih (Nat.le_of_not_lt full)

theorem utf16Len_truncateTo (content : String) {limit : Nat} (positive : 0 < limit) :
    utf16Len (truncateTo content limit) ≤ limit := by
  have bound := @utf16Len_truncateLoop limit content.toList 0 (Nat.zero_le _)
  unfold truncateTo
  rw [utf16Len_ofList]
  omega

theorem utf16Len_signed (n : Int64) : utf16Len (signed n) ≤ 21 := by
  have digits := utf16Len_i64 n
  unfold signed
  split
  · omega
  · rw [utf16Len_append]
    have plus : utf16Len "+" = 1 := by decide
    omega

theorem utf16Len_stakeLine {market : Market} {entry : Int64 × Nat} {line : String}
    (made : stakeLine market entry = some line) (few : entry.2 < 10) : utf16Len line ≤ 82 := by
  rcases Option.bind_eq_some_iff.mp made with ⟨option, _, same⟩
  cases same
  have number : utf16Len (toString (entry.2 + 1)) ≤ 2 := utf16Len_repr (by decide) (by omega)
  have label := utf16Len_truncateTo option (by decide : 0 < 48)
  have amount := utf16Len_i64 entry.1
  have dot : utf16Len ". " = 2 := by decide
  have colon : utf16Len ": " = 2 := by decide
  have points : utf16Len " points\n" = 8 := by decide
  simp only [utf16Len_append]
  omega

structure Position.Of (market : Market) (member : UserId) (position : Position) : Prop where
  user : position.user = member
  net : position.net.toInt = paidTo (recordedPayouts market) member - stakedBy market.bets member
  small : utf16Len position.block ≤ 1000

theorem position_of [Lowercase] {id : MarketId} {market : Market} (valid : market.Valid id) (few : market.options.length ≤ 10)
    {user : UserId} {held : List Int64} (paid : 0 ≤ paidTo (recordedPayouts market) user)
    (amounts : held.map Int64.toInt = (List.range market.options.length).map (memberStake market.bets user)) :
    ∃ p, position market (recordedPayouts market) (user, held) = some p ∧ p.Of market user := by
  have most := market.totalStaked.toInt_le_max
  rw [valid.staked] at most
  have length : held.length = market.options.length := by simpa using congrArg List.length amounts
  have sums : (held.map Int64.toInt).sum = stakedBy market.bets user := by rw [amounts, sum_memberStake valid.listed]
  have nonneg : ∀ amount ∈ held, 0 ≤ amount.toInt := by
    intro amount member
    have value := List.mem_map_of_mem (f := Int64.toInt) member
    rw [amounts] at value
    rcases List.mem_map.mp value with ⟨index, _, same⟩
    rw [← same]
    exact (memberStake_le valid.positive user index).1
  have bounds := (memberStake_le valid.positive user 0).2.2
  have positive : 0 ≤ stakedBy market.bets user := by
    rw [← sums]
    apply List.sum_nonneg
    intro value member
    rcases List.mem_map.mp member with ⟨amount, present, rfl⟩
    exact nonneg amount present
  rcases foldlM_checkedAdd nonneg (by omega) with ⟨total, summed, whole⟩
  have upper := ((recordedPayouts market)[user]?.getD 0).toInt_lt
  unfold i64Max at most
  unfold paidTo at paid
  rcases tryFrom_of_bounds (i := ((recordedPayouts market)[user]?.getD 0).toInt - total.toInt) (by omega) (by omega) with ⟨net, fits, value⟩
  have subtracted : Library.checkedSub ((recordedPayouts market)[user]?.getD 0) total = some net := fits
  have entries : ∀ entry ∈ held.zipIdx.filter (fun entry => 0 < entry.1), entry.2 < held.length := by
    intro entry member
    have placed := List.mem_zipIdx (List.mem_of_mem_filter member)
    omega
  have made : ∀ entry ∈ held.zipIdx.filter (fun entry => 0 < entry.1),
      stakeLine market entry = some ((stakeLine market entry).getD "") := by
    intro entry member
    have inside := entries entry member
    unfold stakeLine
    rw [List.getElem?_eq_getElem (by omega)]
    rfl
  have written := mapM_eq_some_map made
  have lines : utf16Len (String.join ((held.zipIdx.filter fun entry => 0 < entry.1).map
      fun entry => (stakeLine market entry).getD "")) ≤ 820 := by
    have short := @utf16Len_lines ((held.zipIdx.filter fun entry => 0 < entry.1).map
      fun entry => (stakeLine market entry).getD "") 82 (by
        intro line member
        rcases List.mem_map.mp member with ⟨entry, present, rfl⟩
        have inside := entries entry present
        exact utf16Len_stakeLine (made entry present) (by omega))
    have count := List.length_filter_le (fun entry : Int64 × Nat => Decidable.decide (0 < entry.1)) held.zipIdx
    rw [List.length_map] at short
    rw [List.length_zipIdx] at count
    omega
  obtain ⟨p, computed, owner, result, text⟩ : ∃ p, position market (recordedPayouts market) (user, held) = some p ∧
      p.user = user ∧ p.net = net ∧ p.block = "<@" ++ toString user ++ ">\n" ++
        String.join ((held.zipIdx.filter fun entry => 0 < entry.1).map fun entry => (stakeLine market entry).getD "") ++
        "Total stake: " ++ toString total ++ " · Payout: " ++ toString ((recordedPayouts market)[user]?.getD 0) ++
        " · Net: " ++ signed net ++ "\n\n" := by
    refine ⟨⟨user, net, _⟩, ?_, rfl, rfl, rfl⟩
    unfold position
    dsimp only
    rw [summed, Option.bind_eq_bind, Option.bind_some, subtracted, Option.bind_some, written]
    rfl
  refine ⟨p, computed, owner, ?_, ?_⟩
  · rw [result, value, whole, sums]
    rfl
  · have name := utf16Len_u64 user.val
    have stake := utf16Len_i64 total
    have payout := utf16Len_i64 ((recordedPayouts market)[user]?.getD 0)
    have sign := utf16Len_signed net
    have mention : utf16Len "<@" = 2 := by decide
    have closing : utf16Len ">\n" = 2 := by decide
    have first : utf16Len "Total stake: " = 13 := by decide
    have second : utf16Len " · Payout: " = 11 := by decide
    have third : utf16Len " · Net: " = 8 := by decide
    have blank : utf16Len "\n\n" = 2 := by decide
    have shown : utf16Len (toString user) ≤ 20 := name
    rw [text]
    simp only [utf16Len_append]
    omega

/-- The positions of a settled market: every bettor once, in order, and what they gain is what others lose. -/
structure Accounted (market : Market) (listed : List Position) : Prop where
  everyone : ∀ user, user ∈ listed.map Position.user ↔ ∃ bet ∈ market.bets, bet.userId = user
  once : (listed.map Position.user).Nodup
  ordered : listed.Pairwise fun a b => b.net.toInt < a.net.toInt ∨ a.net = b.net ∧ a.user.val < b.user.val
  nets : ∀ p ∈ listed, p.net.toInt = paidTo (recordedPayouts market) p.user - stakedBy market.bets p.user
  balanced : (listed.map fun p => p.net.toInt).sum = 0
  small : ∀ p ∈ listed, utf16Len p.block ≤ 1000

theorem validMarket_options [Lowercase] {question : String} {options : List String}
    (described : validMarket question options = .ok ()) : options.length ≤ 10 := by
  unfold validMarket at described
  simp only [reject_eq_ok, not_not] at described
  exact described.2.1.2

theorem paid_total [Lowercase] {id : MarketId} {market : Market} {outcome : OutcomeIndex} {refunded : Bool}
    (valid : market.Valid id) (paid : market.Paid outcome refunded) :
    (∀ user, 0 ≤ paidTo (recordedPayouts market) user) ∧
      ∀ users : List UserId, users.Nodup → (∀ bet ∈ market.bets, bet.userId ∈ users) →
        (users.map (paidTo (recordedPayouts market))).sum = sumBets market.bets := by
  rcases paid with ⟨accounts, recorded, run, checked⟩
  rcases recordedAllocations_total run with ⟨total, positive⟩
  rcases @recorded_payouts accounts market.payouts ∅ recorded ∅ run (by simp) with ⟨amounts, keys⟩
  have each : ∀ user, paidTo (recordedPayouts market) user =
      ((market.payouts.filter fun entry => entry.userId = user).map fun entry => entry.amount.toInt).sum := by
    intro user
    have mine := amounts user
    have start : paidTo (∅ : BTreeMap UserId Int64) user = 0 := by
      unfold paidTo
      simp
    rw [start, Int.zero_add] at mine
    exact mine
  constructor
  · intro user
    rw [each user]
    apply List.sum_nonneg
    intro amount member
    rcases List.mem_map.mp member with ⟨entry, present, rfl⟩
    exact (positive entry (List.mem_of_mem_filter present)).le
  · intro users distinct covers
    have listed : ∀ entry ∈ market.payouts, entry.userId ∈ users := by
      intro entry member
      rcases (keys entry.userId).mpr (.inr ⟨entry, member, rfl⟩) with ⟨points, found⟩
      rcases recorded_bettors valid checked found with ⟨bet, placed, same⟩
      rw [← same]
      exact covers bet placed
    rw [List.map_congr_left fun user _ => each user,
      sum_classes distinct (fun entry : Allocation => entry.userId) (fun entry => entry.amount.toInt) listed]
    rw [← valid.staked, ← checkResolution_total valid.staked checked, total]
    rfl

theorem positions_accounted [Lowercase] {id : MarketId} {market : Market} {outcome : OutcomeIndex} {refunded : Bool}
    (valid : market.Valid id) (paid : market.Paid outcome refunded) :
    ∃ listed, positions market = some listed ∧ Accounted market listed := by
  rcases memberStakes_tracks valid with ⟨totals, staked, tracks⟩
  rcases paid_total valid paid with ⟨nonneg, whole⟩
  have few := validMarket_options valid.described
  have made : ∀ entry ∈ totals.toList, ∃ p, position market (recordedPayouts market) entry = some p ∧ p.Of market entry.1 := by
    intro entry member
    exact position_of valid few (nonneg entry.1) (tracks.amounts entry.1 entry.2 (BTreeMap.mem_toList.mp member))
  have inhabited : Nonempty Position := ⟨⟨⟨0⟩, 0, ""⟩⟩
  choose! entryOf computed shape using made
  have run := mapM_eq_some_map computed
  have users : (totals.toList.map entryOf).map Position.user = totals.toList.map Prod.fst := by
    rw [List.map_map]
    exact List.map_congr_left fun entry member => (shape entry member).user
  have perm := perm_sortByKey Position.key (totals.toList.map entryOf)
  have owners : ((sortByKey Position.key (totals.toList.map entryOf)).map Position.user).Perm (totals.toList.map Prod.fst) := by
    rw [← users]
    exact perm.map _
  have distinct := BTreeMap.nodup_keys totals
  have keys : ((totals.toList.map entryOf).map Position.key).Nodup := by
    apply List.Nodup.of_map fun key => (ofLex key).2
    have numbers : ((totals.toList.map entryOf).map Position.key).map (fun key => (ofLex key).2) =
        (totals.toList.map Prod.fst).map fun user => user.val.toNat := by
      rw [← users]
      simp only [List.map_map]
      rfl
    rw [numbers]
    apply distinct.map
    intro a b same
    cases a
    cases b
    exact congrArg UserId.mk (UInt64.toNat_inj.mp same)
  refine ⟨sortByKey Position.key (totals.toList.map entryOf), ?_, ?_, ?_, ?_, ?_, ?_, ?_⟩
  · unfold positions
    rw [staked, Option.bind_eq_bind, Option.bind_some, run]
    rfl
  · intro user
    rw [owners.mem_iff, BTreeMap.mem_keys, tracks.members]
  · exact owners.nodup_iff.mpr distinct
  · apply (strict_sortByKey keys).imp
    intro a b less
    rcases Prod.Lex.toLex_lt_toLex.mp less with more | ⟨same, earlier⟩
    · exact .inl more
    · exact .inr ⟨Int64.toInt_inj.mp same, UInt64.lt_iff_toNat_lt.mpr earlier⟩
  · intro p member
    rcases List.mem_map.mp (mem_sortByKey.mp member) with ⟨entry, present, rfl⟩
    rw [(shape entry present).user]
    exact (shape entry present).net
  · have covers : ∀ bet ∈ market.bets, bet.userId ∈ totals.toList.map Prod.fst := by
      intro bet member
      exact BTreeMap.mem_keys.mpr ((tracks.members bet.userId).mpr ⟨bet, member, rfl⟩)
    have staked : ((totals.toList.map Prod.fst).map (stakedBy market.bets)).sum = sumBets market.bets :=
      sum_classes distinct (fun bet : Bet => bet.userId) (fun bet => bet.amount.toInt) covers
    have nets : (totals.toList.map entryOf).map (fun p => p.net.toInt) = (totals.toList.map Prod.fst).map
        fun user => paidTo (recordedPayouts market) user - stakedBy market.bets user := by
      rw [List.map_map, List.map_map]
      exact List.map_congr_left fun entry member => (shape entry member).net
    have split : ((totals.toList.map Prod.fst).map (paidTo (recordedPayouts market))).sum =
        ((totals.toList.map entryOf).map fun p => p.net.toInt).sum +
          ((totals.toList.map Prod.fst).map (stakedBy market.bets)).sum := by
      rw [nets, ← List.sum_map_add]
      congr 1
      apply List.map_congr_left
      intro user _
      omega
    rw [(perm.map fun p => p.net.toInt).sum_eq]
    rw [whole _ distinct covers, staked] at split
    omega
  · intro p member
    rcases List.mem_map.mp (mem_sortByKey.mp member) with ⟨entry, present, rfl⟩
    exact (shape entry present).small

theorem settlementHeader_small [Lowercase] {id : MarketId} {market : Market} {outcome : OutcomeIndex} {refunded : Bool}
    (valid : market.Valid id) (listed : outcome.val < market.options.length) :
    ∃ header, settlementHeader id market outcome refunded = some header ∧ utf16Len header ≤ 249 := by
  have few := validMarket_options valid.described
  have identified := valid.identified
  have name := utf16Len_le id.val
  simp only [validMarketId, Bool.and_eq_true, beq_iff_eq, String.length_toList] at identified
  unfold settlementHeader
  rw [List.getElem?_eq_getElem listed]
  refine ⟨_, rfl, ?_⟩
  have number : utf16Len (toString (outcome.val + 1)) ≤ 2 := utf16Len_repr (by decide) (by omega)
  have winner := utf16Len_truncateTo market.options[outcome.val] (by decide : 0 < 80)
  have first : utf16Len "ID: " = 4 := by decide
  have second : utf16Len "\nWinning outcome: " = 18 := by decide
  have dot : utf16Len ". " = 2 := by decide
  have line : utf16Len "\n" = 1 := by decide
  have blank : utf16Len "\n\n" = 2 := by decide
  have settlement : utf16Len (if refunded then "Refunded: no bets backed the winning outcome; stakes were returned."
      else "Settlement: recorded payouts.") ≤ 67 := by
    cases refunded <;> decide
  simp only [utf16Len_append]
  omega

structure Inspected (state : State) (id : MarketId) (market : Market) (header : String) (budget : Nat)
    (listed : List Position) : Prop where
  accounted : Accounted market listed
  complete : String.join ((positionPages budget listed).map pageText) = String.join (listed.map Position.block)
  whole : (positionPages budget listed).flatten = listed
  fits : ∀ page ∈ positionPages budget listed, utf16Len (pageText page) ≤ budget
  shown : ∀ guild actor requested, state.accounts.contains actor.userId = true →
    ∃ panel text, marketPanel state guild actor id requested = .ok (some panel) ∧
      ((positionPages budget listed).map pageText)[min requested ((positionPages budget listed).length - 1)]? = some text ∧
      panel.description = describePage header market.bets.isEmpty (positionPages budget listed).length
        (min requested ((positionPages budget listed).length - 1)) text ∧
      utf16Len panel.description ≤ 4096

theorem utf16Len_pageText (page : List Position) :
    utf16Len (pageText page) = (page.map fun p => utf16Len p.block).sum := by
  unfold pageText
  rw [utf16Len_join, List.map_map]
  rfl

theorem join_pageText (pages : List (List Position)) :
    String.join (pages.map pageText) = String.join (pages.flatten.map Position.block) := by
  induction pages with
  | nil => rfl
  | cons page rest ih =>
    rw [List.map_cons, String.join_cons, ih, List.flatten_cons, List.map_append, String.join_append]
    rfl

/-- Users are 64-bit numbers, so the page numbers stay within their reserve. -/
theorem Accounted.few_pages {market : Market} {listed : List Position} (accounted : Accounted market listed) :
    listed.length ≤ 2 ^ 64 := by
  have numbers : (listed.map fun p => p.user.val.toNat).Nodup := by
    have distinct := accounted.once.map (f := fun user : UserId => user.val.toNat) (by
      intro a b same
      cases a
      cases b
      exact congrArg UserId.mk (UInt64.toNat_inj.mp same))
    rwa [List.map_map] at distinct
  have part : (listed.map fun p => p.user.val.toNat) ⊆ List.range (2 ^ 64) := by
    intro n member
    rcases List.mem_map.mp member with ⟨p, _, rfl⟩
    exact List.mem_range.mpr p.user.val.toNat_lt
  have bound := (List.subperm_of_subset numbers part).length_le
  rwa [List.length_map, List.length_range] at bound

theorem utf16Len_describePage {header text : String} {noBets : Bool} {pages page : Nat} (many : pages ≤ 2 ^ 64 + 1)
    (inside : page < pages) (room : utf16Len header + 249 ≤ 4096) (fits : utf16Len text ≤ 4096 - utf16Len header - 100) :
    utf16Len (describePage header noBets pages page text) ≤ 4096 := by
  have number : utf16Len (toString (page + 1)) ≤ 20 := utf16Len_repr (by decide) (by omega)
  have count : utf16Len (toString pages) ≤ 20 := utf16Len_repr (by decide) (by omega)
  have first : utf16Len "Bettors · Page " = 15 := by decide
  have second : utf16Len " of " = 4 := by decide
  have blank : utf16Len "\n\n" = 2 := by decide
  have nobody : utf16Len "No bets were placed in this market." = 35 := by decide
  unfold describePage
  simp only [utf16Len_append]
  cases noBets
  · rw [if_neg (by decide)]
    omega
  · rw [if_pos rfl]
    omega

theorem positions_lose_nobody [Lowercase] (events : List Event) (state : State) (id : MarketId) (market : Market)
    (outcome : OutcomeIndex) (refunded : Bool) (reached : replay events = .ok state)
    (found : state.markets[id]? = some market) (resolved : market.status = .resolved outcome refunded) :
    ∃ header budget listed, settlementHeader id market outcome refunded = some header ∧ pageBudget header = some budget ∧
      positions market = some listed ∧ Inspected state id market header budget listed := by
  have valid := replay_valid reached id market found
  rcases valid.settled outcome refunded resolved with ⟨named, paid⟩
  rcases settlementHeader_small valid named with ⟨header, headed, short⟩
  rcases positions_accounted valid paid with ⟨listed, computed, accounted⟩
  have budgeted : pageBudget header = some (4096 - utf16Len header - 100) := by
    unfold pageBudget
    rw [if_pos (by omega)]
  have small : ∀ p ∈ listed, utf16Len p.block ≤ 4096 - utf16Len header - 100 := by
    intro p member
    have block := accounted.small p member
    omega
  have pages : positionPages (4096 - utf16Len header - 100) listed = pack (fun p => utf16Len p.block)
      (4096 - utf16Len header - 100) listed := rfl
  have holds := pack_holds listed small
  have fits : ∀ page ∈ positionPages (4096 - utf16Len header - 100) listed,
      utf16Len (pageText page) ≤ 4096 - utf16Len header - 100 := by
    intro page member
    rw [utf16Len_pageText]
    exact holds.fits page member
  have whole : (positionPages (4096 - utf16Len header - 100) listed).flatten = listed := holds.items
  have count : (positionPages (4096 - utf16Len header - 100) listed).length ≤ listed.length + 1 := holds.pages
  have some_page : 0 < (positionPages (4096 - utf16Len header - 100) listed).length := by
    unfold positionPages pack Packing.pages
    simp
  refine ⟨header, _, listed, headed, budgeted, computed, accounted, ?_, whole, fits, ?_⟩
  · rw [join_pageText, whole]
  · intro guild actor requested enrolled
    have users := accounted.few_pages
    have allowed : ¬ ¬ state.accounts.contains actor.userId := not_not.mpr enrolled
    unfold marketPanel
    rw [if_neg allowed, found, okOr_some, ok_bind]
    simp only [resolved, headed, budgeted, computed, Option.bind_eq_bind, Option.bind_some]
    generalize positionPages (4096 - utf16Len header - 100) listed = pages at fits whole count some_page ⊢
    have inside : min requested (pages.length - 1) < pages.length := by omega
    rw [List.getElem?_eq_getElem inside, Option.bind_some]
    refine ⟨_, pageText pages[min requested (pages.length - 1)], rfl, ?_, rfl, ?_⟩
    · rw [List.getElem?_map, List.getElem?_eq_getElem inside]
      rfl
    · exact utf16Len_describePage (by omega) inside (by omega) (fits _ (List.getElem_mem inside))

def settledHistory : List Event :=
  rainHistory ++ [.marketResolved rainId ⟨1⟩ ⟨7⟩ 9 [⟨⟨7⟩, ⟨30⟩⟩] false]

theorem positions_lose_nobody_rain :
    letI : Lowercase := asciiLowercase
    ∃ state market header budget listed, replay settledHistory = .ok state ∧
      settlementHeader rainId market ⟨1⟩ false = some header ∧ pageBudget header = some budget ∧
      positions market = some listed ∧ Inspected state rainId market header budget listed := by
  let : Lowercase := asciiLowercase
  rcases exists_eq_ok (x := replay settledHistory) (by decide +kernel) with ⟨state, reached⟩
  have stored : (replay settledHistory).toOption.bind (fun state => state.markets[rainId]?.map Market.status) =
      some (.resolved ⟨1⟩ false) := by decide +kernel
  rw [reached] at stored
  rcases Option.map_eq_some_iff.mp stored with ⟨market, found, resolved⟩
  rcases positions_lose_nobody settledHistory state rainId market ⟨1⟩ false reached found resolved with
    ⟨header, budget, listed, headed, budgeted, computed, inspected⟩
  exact ⟨state, market, header, budget, listed, reached, headed, budgeted, computed, inspected⟩

end PredictionBot

import BazelRepo.PredictionBot.RenderedSize

namespace PredictionBot

open Library

def Spaces (text : String) : Prop := ∀ c ∈ text.toList, c = ' '

/-- The line of an outcome: its number, its label on one line, and its amount in full. -/
def OutcomeLine (number : Nat) (amount line : String) : Prop :=
  ∃ label left right rest, '\n' ∉ label.toList ∧ '`' ∉ label.toList ∧ Spaces left ∧ Spaces right ∧
    line = toString number ++ ". " ++ label ++ left ++ " | " ++ (right ++ amount) ++ " | " ++ rest

def TotalLine (amount line : String) : Prop :=
  ∃ left right rest, Spaces left ∧ Spaces right ∧ line = "Total" ++ left ++ " | " ++ (right ++ amount) ++ " | " ++ rest

/-- A table with a line for every outcome, in order, between its heading and the total. -/
def TableOf (stakes : StakeSummary) (count : Nat) (table : String) : Prop :=
  ∃ heading lines total, table = "```\n" ++ "\n".intercalate (heading :: lines ++ [total]) ++ "\n```" ∧
    lines.length = count ∧
    (∀ index amount, index < count → stakes.outcomes[index]? = some amount →
      ∃ line, lines[index]? = some line ∧ OutcomeLine (index + 1) (formatPoints amount) line) ∧
    TotalLine (formatPoints stakes.total) total

theorem trimEnd_append {a b : String} (shown : ∃ c ∈ b.toList, isWhiteSpace c = false) :
    trimEnd (a ++ b) = a ++ trimEnd b := by
  rcases shown with ⟨c, member, visible⟩
  have kept : b.toList.reverse.dropWhile isWhiteSpace ≠ [] := by
    intro empty
    have blank := List.dropWhile_eq_nil_iff.mp empty c (List.mem_reverse.mpr member)
    rw [visible] at blank
    cases blank
  unfold trimEnd
  rw [String.toList_append, List.reverse_append, List.dropWhile_append, if_neg (by simpa using kept),
    List.reverse_append, List.reverse_reverse, String.ofList_append, String.ofList_toList]

theorem safeCharacter_line {c d : Char} (shown : safeCharacter c = some d) : d ≠ '\n' ∧ d ≠ '`' := by
  unfold safeCharacter at shown
  split at shown
  · cases shown
    decide
  · rename_i visible
    split at shown
    · cases shown
    · split at shown
      · cases shown
        decide
      · rename_i quote
        split at shown
        · cases shown
          decide
        · cases shown
          refine ⟨?_, quote⟩
          rintro rfl
          exact visible (by decide)

theorem mem_join {c : Char} {texts : List String} : c ∈ (String.join texts).toList ↔ ∃ text ∈ texts, c ∈ text.toList := by
  simp

section

variable [TextLayout]

theorem spaces_padding (width : Nat) (value : String) : Spaces (padding width value) := by
  intro c member
  unfold padding at member
  rw [String.toList_ofList] at member
  exact List.eq_of_mem_replicate member

theorem shortenLabel_subset {limit : Nat} {graphemes : List String} : ∀ {units columns : Nat},
    shortenLabel limit units columns graphemes ⊆ graphemes := by
  induction graphemes with
  | nil =>
    intro units columns
    exact List.nil_subset _
  | cons grapheme rest ih =>
    intro units columns
    unfold shortenLabel
    split
    · exact List.nil_subset _
    · exact List.cons_subset_cons grapheme ih

theorem tableLabel_line (documented : DocumentedLayout) (label : String) (limit : Nat) :
    '\n' ∉ (tableLabel label limit).toList ∧ '`' ∉ (tableLabel label limit).toList := by
  have safe : ∀ c ∈ label.toList.filterMap safeCharacter, c ≠ '\n' ∧ c ≠ '`' := by
    intro c member
    rcases List.mem_filterMap.mp member with ⟨d, _, shown⟩
    exact safeCharacter_line shown
  have plain : ∀ c ∈ (tableLabel label limit).toList, c ≠ '\n' ∧ c ≠ '`' := by
    intro c member
    unfold tableLabel at member
    split at member
    · simp at member
    · dsimp only at member
      split at member
      · rw [String.toList_ofList] at member
        exact safe c member
      · rw [String.toList_append] at member
        rcases List.mem_append.mp member with kept | marker
        · rcases mem_join.mp kept with ⟨grapheme, listed, inside⟩
          have whole := mem_join.mpr ⟨grapheme, shortenLabel_subset listed, inside⟩
          rw [documented.whole, String.toList_ofList] at whole
          exact safe c whole
        · cases List.mem_singleton.mp marker
          decide
  exact ⟨fun member => (plain _ member).1 rfl, fun member => (plain _ member).2 rfl⟩

theorem renderRow_amount {choiceWidth pointsWidth chanceWidth index : Nat} (row : TableRow) (below : index ≠ 0) :
    ∃ left right rest, Spaces left ∧ Spaces right ∧ renderRow choiceWidth pointsWidth chanceWidth index row =
      row.choice ++ left ++ " | " ++ (right ++ row.points) ++ " | " ++ rest := by
  refine ⟨padding choiceWidth row.choice, padding pointsWidth row.points,
    trimEnd (row.chance ++ padding chanceWidth row.chance ++ " | " ++ row.movement),
    spaces_padding _ _, spaces_padding _ _, ?_⟩
  have bar : ∃ c ∈ (row.chance ++ padding chanceWidth row.chance ++ " | " ++ row.movement).toList, isWhiteSpace c = false := by
    refine ⟨'|', ?_, by decide⟩
    simp [String.toList_append]
  rw [← trimEnd_append bar]
  unfold renderRow
  dsimp only
  rw [if_pos below]
  simp only [String.append_assoc]

theorem renderStakeTable_rows (documented : DocumentedLayout) (outcomes : List (String × String × String))
    (stakes : StakeSummary) (limit : Nat) : TableOf stakes outcomes.length (renderStakeTable outcomes stakes limit) := by
  unfold renderStakeTable
  dsimp only
  generalize columnWidth _ TableRow.choice = choiceWidth
  generalize columnWidth _ TableRow.points = pointsWidth
  generalize columnWidth _ TableRow.chance = chanceWidth
  rw [List.cons_append, List.zipIdx_cons, List.zipIdx_append, List.map_cons, List.map_append, List.zipIdx_singleton,
    List.map_singleton]
  refine ⟨_, _, _, rfl, ?_, ?_, ?_⟩
  · simp
  · intro index amount inside staked
    have line : (((outcomes.zipIdx.map fun entry => outcomeRow stakes limit entry.2 entry.1).zipIdx (0 + 1)).map
        fun entry => renderRow choiceWidth pointsWidth chanceWidth entry.2 entry.1)[index]? =
          some (renderRow choiceWidth pointsWidth chanceWidth (index + 1) (outcomeRow stakes limit index outcomes[index])) := by
      simp [inside, Nat.add_comm]
    refine ⟨_, line, ?_⟩
    rcases renderRow_amount (outcomeRow stakes limit index outcomes[index]) (Nat.succ_ne_zero index) with
      ⟨left, right, rest, blank, indent, same⟩
    rcases tableLabel_line documented outcomes[index].1 limit with ⟨single, closed⟩
    refine ⟨tableLabel outcomes[index].1 limit, left, right, rest, single, closed, blank, indent, ?_⟩
    rw [same]
    simp only [outcomeRow, staked, Option.map_some, Option.getD_some]
  · have below : 0 + 1 + (outcomes.zipIdx.map fun entry => outcomeRow stakes limit entry.2 entry.1).length ≠ 0 := by omega
    rcases renderRow_amount (totalRow stakes) below with ⟨left, right, rest, blank, indent, same⟩
    exact ⟨left, right, rest, blank, indent, same⟩

end

/-- The snapshots of a market as its events leave them; building one fails where a conversion or a sum does. -/
inductive BuiltFrom (id : MarketId) (market : Market) : SnapshotV1 → Prop where
  | betPlaced {stakes : StakeSummary} {odds previous : List OutcomeOdds} {betCount : Nat} {occurredAt : Int64}
      (summed : StakeSummary.forMarketChecked market = some stakes)
      (priced : OutcomeOdds.forMarketChecked market = some odds) (counted : betCount < 2 ^ 64) :
      BuiltFrom id market (.betPlaced (some stakes) id market.question betCount (withPreviousOdds previous odds) occurredAt)
  | created {stakes : StakeSummary} {creator : UserId} {closesAt occurredAt : Int64}
      (summed : StakeSummary.forMarketChecked market = some stakes) :
      BuiltFrom id market (.created (some stakes) id market.question creator market.options closesAt occurredAt)
  | resolved {stakes : StakeSummary} {odds : List OutcomeOdds} {winner : String} {refunded : Bool} {occurredAt : Int64}
      (summed : StakeSummary.forMarketChecked market = some stakes)
      (priced : OutcomeOdds.forMarketChecked market = some odds) :
      BuiltFrom id market (.resolved (some stakes) id market.question winner refunded odds occurredAt)
  | cancelled {stakes : StakeSummary} {odds : List OutcomeOdds} {occurredAt : Int64}
      (summed : StakeSummary.forMarketChecked market = some stakes)
      (priced : OutcomeOdds.forMarketChecked market = some odds) :
      BuiltFrom id market (.cancelled (some stakes) id market.question odds occurredAt)

/-- A message that fits, with the line and the amount of every outcome of its market and the total. -/
structure Announced (market : Market) (content : String) : Prop where
  fits : utf16Len content ≤ 2000
  rows : ∃ stakes before table following, StakeSummary.forMarketChecked market = some stakes ∧
    stakes.outcomes.length = market.options.length ∧ content = before ++ table ++ following ∧
    TableOf stakes market.options.length table

theorem mapM_some_length {α β : Type} {f : α → Option β} : ∀ {inputs : List α} {outputs : List β},
    inputs.mapM f = some outputs → outputs.length = inputs.length ∧ ∀ b ∈ outputs, ∃ a ∈ inputs, f a = some b := by
  intro inputs
  induction inputs with
  | nil =>
    intro outputs run
    cases run
    exact ⟨rfl, nofun⟩
  | cons a rest ih =>
    intro outputs run
    rw [List.mapM_cons] at run
    rcases Option.bind_eq_some_iff.mp run with ⟨b, first, run⟩
    rcases Option.bind_eq_some_iff.mp run with ⟨others, later, same⟩
    cases same
    rcases ih later with ⟨count, each⟩
    refine ⟨by rw [List.length_cons, List.length_cons, count], ?_⟩
    intro c member
    rcases List.mem_cons.mp member with rfl | member
    · exact ⟨a, List.mem_cons_self, first⟩
    · rcases each c member with ⟨input, listed, made⟩
      exact ⟨input, List.mem_cons_of_mem _ listed, made⟩

theorem summary_length {market : Market} {stakes : StakeSummary}
    (summed : StakeSummary.forMarketChecked market = some stakes) : stakes.outcomes.length = market.options.length := by
  rcases Option.bind_eq_some_iff.mp summed with ⟨outcomes, run, same⟩
  cases same
  rw [List.length_map, (mapM_some_length run).1, List.length_zipIdx]

theorem priced_fit {market : Market} {odds : List OutcomeOdds} (few : market.options.length ≤ 10)
    (priced : OutcomeOdds.forMarketChecked market = some odds) : odds.length = market.options.length ∧ OddsFit odds := by
  rcases mapM_some_length priced with ⟨count, each⟩
  rw [List.length_zipIdx] at count
  refine ⟨count, by omega, ?_⟩
  intro outcome member tenths shown
  rcases each outcome member with ⟨⟨label, index⟩, _, made⟩
  dsimp only at made
  split at made
  · rcases Option.bind_eq_some_iff.mp made with ⟨converted, computed, same⟩
    cases same
    cases shown
    rcases Option.bind_eq_some_iff.mp computed with ⟨_, _, scaled⟩
    rcases Option.bind_eq_some_iff.mp scaled with ⟨_, _, raised⟩
    rcases Option.bind_eq_some_iff.mp raised with ⟨_, _, narrowed⟩
    unfold u16TryFrom at narrowed
    split at narrowed
    · cases narrowed
      omega
    · cases narrowed
  · cases made
    cases shown

theorem OddsFit.withPrevious {odds : List OutcomeOdds} (fit : OddsFit odds) (previous : List OutcomeOdds) :
    (withPreviousOdds previous odds).length = odds.length ∧ OddsFit (withPreviousOdds previous odds) := by
  have count : (withPreviousOdds previous odds).length = odds.length := by
    unfold withPreviousOdds
    rw [List.length_map, List.length_zipIdx]
  refine ⟨count, by rw [count]; exact fit.1, ?_⟩
  intro outcome member tenths shown
  rcases List.mem_map.mp member with ⟨⟨priced, index⟩, placed, rfl⟩
  have listed := List.mem_map_of_mem (f := Prod.fst) placed
  rw [List.zipIdx_map_fst] at listed
  apply fit.2 priced listed tenths
  rw [← shown]
  dsimp only
  cases previous[index]? <;> rfl

theorem BuiltFrom.wellFormed {id : MarketId} {market : Market} {snapshot : SnapshotV1} (built : BuiltFrom id market snapshot)
    (identified : id.val.length = 36) (few : market.options.length ≤ 10) : snapshot.WellFormed := by
  cases built with
  | betPlaced summed priced counted => exact ⟨identified, counted, ((priced_fit few priced).2.withPrevious _).2⟩
  | created summed => exact ⟨identified, few⟩
  | resolved summed priced => exact ⟨identified, (priced_fit few priced).2⟩
  | cancelled summed priced => exact ⟨identified, (priced_fit few priced).2⟩

section

variable [TextLayout]

theorem renderOdds_table (documented : DocumentedLayout) {odds : List OutcomeOdds} (some_odds : odds ≠ [])
    (stakes : StakeSummary) (limit : Nat) :
    ∃ table, renderOdds odds (some stakes) limit = "\nOutcomes:\n" ++ table ∧ TableOf stakes odds.length table := by
  unfold renderOdds
  rw [if_neg some_odds]
  have rows := renderStakeTable_rows documented
    (odds.map fun outcome => (outcome.label, outcome.chance, trim outcome.movementIndicator)) stakes limit
  rw [List.length_map] at rows
  exact ⟨_, rfl, rows⟩

theorem BuiltFrom.table {id : MarketId} {market : Market} {snapshot : SnapshotV1} (built : BuiltFrom id market snapshot)
    (documented : DocumentedLayout) (few : market.options.length ≤ 10) (listed : market.options ≠ []) (limit : Nat) :
    ∃ stakes before table following, StakeSummary.forMarketChecked market = some stakes ∧
      stakes.outcomes.length = market.options.length ∧ renderContent snapshot limit = before ++ table ++ following ∧
      TableOf stakes market.options.length table := by
  have positive : 0 < market.options.length := List.length_pos_iff.mpr listed
  cases built with
  | betPlaced summed priced counted =>
    rename_i stakes odds previous betCount occurredAt
    rcases priced_fit few priced with ⟨count, fit⟩
    rcases fit.withPrevious previous with ⟨kept, _⟩
    have present : withPreviousOdds previous odds ≠ [] := List.length_pos_iff.mp (by omega)
    rcases renderOdds_table documented present stakes limit with ⟨table, shown, rows⟩
    rw [kept, count] at rows
    obtain ⟨lead, same⟩ : ∃ lead, renderContent (.betPlaced (some stakes) id market.question betCount (withPreviousOdds previous odds) occurredAt) limit =
        lead ++ renderOdds (withPreviousOdds previous odds) (some stakes) limit ++ eventTime occurredAt := ⟨_, rfl⟩
    refine ⟨stakes, lead ++ "\nOutcomes:\n", table, eventTime occurredAt, summed, summary_length summed, ?_, rows⟩
    rw [same, shown, ← String.append_assoc]
  | created summed =>
    rename_i stakes creator closesAt occurredAt
    have rows := renderStakeTable_rows documented (market.options.map fun label => (label, noChance, "")) stakes limit
    rw [List.length_map] at rows
    obtain ⟨lead, same⟩ : ∃ lead, renderContent
        (.created (some stakes) id market.question creator market.options closesAt occurredAt) limit =
          lead ++ renderCreated market.options (some stakes) limit ++ "\nCloses: <t:" ++ toString closesAt ++ ":F>" ++
            eventTime occurredAt := ⟨_, rfl⟩
    refine ⟨stakes, lead, _, "\nCloses: <t:" ++ toString closesAt ++ ":F>" ++ eventTime occurredAt, summed,
      summary_length summed, ?_, rows⟩
    rw [same]
    simp only [renderCreated, String.append_assoc]
  | resolved summed priced =>
    rename_i stakes odds winner refunded occurredAt
    rcases priced_fit few priced with ⟨count, fit⟩
    have present : odds ≠ [] := List.length_pos_iff.mp (by omega)
    rcases renderOdds_table documented present stakes limit with ⟨table, shown, rows⟩
    rw [count] at rows
    obtain ⟨lead, same⟩ : ∃ lead, renderContent (.resolved (some stakes) id market.question winner refunded odds occurredAt) limit =
        lead ++ renderOdds odds (some stakes) limit ++ eventTime occurredAt := ⟨_, rfl⟩
    refine ⟨stakes, lead ++ "\nOutcomes:\n", table, eventTime occurredAt, summed, summary_length summed, ?_, rows⟩
    rw [same, shown, ← String.append_assoc]
  | cancelled summed priced =>
    rename_i stakes odds occurredAt
    rcases priced_fit few priced with ⟨count, fit⟩
    have present : odds ≠ [] := List.length_pos_iff.mp (by omega)
    rcases renderOdds_table documented present stakes limit with ⟨table, shown, rows⟩
    rw [count] at rows
    obtain ⟨lead, same⟩ : ∃ lead, renderContent (.cancelled (some stakes) id market.question odds occurredAt) limit =
        lead ++ renderOdds odds (some stakes) limit ++ eventTime occurredAt := ⟨_, rfl⟩
    refine ⟨stakes, lead ++ "\nOutcomes:\n", table, eventTime occurredAt, summed, summary_length summed, ?_, rows⟩
    rw [same, shown, ← String.append_assoc]

theorem BuiltFrom.announced {id : MarketId} {market : Market} {snapshot : SnapshotV1} (built : BuiltFrom id market snapshot)
    (documented : DocumentedLayout) (identified : id.val.length = 36) (few : market.options.length ≤ 10)
    (listed : market.options ≠ []) : Announced market (render snapshot).content := by
  rcases render_spec documented (built.wellFormed identified few) with ⟨fits, limit, same⟩
  refine ⟨fits, ?_⟩
  rw [same]
  exact built.table documented few listed limit

end

/-- Every bet stakes a point at least, so there are fewer bets than points. -/
theorem length_le_sumBets {bets : List Bet} (positive : ∀ bet ∈ bets, 0 < bet.amount.toInt) :
    (bets.length : Int) ≤ sumBets bets := by
  unfold sumBets
  induction bets with
  | nil => simp
  | cons bet rest ih =>
    have later := ih fun other member => positive other (List.mem_cons_of_mem _ member)
    have first := positive bet List.mem_cons_self
    simp only [List.length_cons, List.map_cons, List.sum_cons, Nat.cast_add, Nat.cast_one]
    omega

/-- The announcement of an event is a snapshot of a market it left, unless it is about no market. -/
theorem eventSnapshot_built [Lowercase] {events : List Event} {before state : State} {event : Event}
    {previous : List OutcomeOdds} {snapshot : SnapshotV1} {time : Int64} (reached : replay events = .ok before)
    (applied : apply before event = .ok state) (made : eventSnapshot event state previous = .ok (some (snapshot, time))) :
    (∃ id market, state.markets[id]? = some market ∧ market.Valid id ∧ BuiltFrom id market snapshot) ∨
      (∃ occurredAt, snapshot = .enabled occurredAt) ∨ ∃ userId occurredAt, snapshot = .memberEnrolled userId occurredAt := by
  have history : replay (events ++ [event]) = .ok state := by
    apply foldlM_append_ok reached
    rw [List.foldlM_cons]
    exact bind_eq_ok.mpr ⟨state, applied, rfl⟩
  have valid := replay_valid history
  cases event with
  | announcementsEnabled channelId moderator enabledAt =>
    cases made
    exact .inr (.inl ⟨_, rfl⟩)
  | memberEnrolled userId enrolledAt =>
    cases made
    exact .inr (.inr ⟨_, _, rfl⟩)
  | betPlaced id userId outcome amount acceptedAt =>
    rcases bind_eq_ok.mp made with ⟨market, found, same⟩
    cases same
    have sound := valid id market (okOr_eq_ok.mp found)
    have counted := length_le_sumBets sound.positive
    have most := market.totalStaked.toInt_le_max
    rw [sound.staked] at most
    unfold i64Max at most
    exact .inl ⟨id, market, okOr_eq_ok.mp found, sound,
      .betPlaced (summary_checked sound).1 (forMarket_checked sound) (by omega)⟩
  | marketCreated id creator question options createdAt closesAt =>
    rcases bind_eq_ok.mp made with ⟨market, found, same⟩
    cases same
    have sound := valid id market (okOr_eq_ok.mp found)
    rcases applyMarketCreation_inv applied with ⟨_, rfl⟩
    have stored := okOr_eq_ok.mp found
    rw [BTreeMap.getElem?_insert_eq, if_pos rfl] at stored
    cases stored
    exact .inl ⟨id, _, okOr_eq_ok.mp found, sound, .created (summary_checked sound).1⟩
  | marketResolved id outcome resolver settledAt payouts refunded =>
    rcases bind_eq_ok.mp made with ⟨market, found, made⟩
    rcases bind_eq_ok.mp made with ⟨winner, _, same⟩
    cases same
    have sound := valid id market (okOr_eq_ok.mp found)
    exact .inl ⟨id, market, okOr_eq_ok.mp found, sound, .resolved (summary_checked sound).1 (forMarket_checked sound)⟩
  | marketCancelled id moderator cancelledAt refunds =>
    rcases bind_eq_ok.mp made with ⟨market, found, same⟩
    cases same
    have sound := valid id market (okOr_eq_ok.mp found)
    exact .inl ⟨id, market, okOr_eq_ok.mp found, sound, .cancelled (summary_checked sound).1 (forMarket_checked sound)⟩
  | guildEconomyInitialized amount interval => cases made
  | pointsGranted userId reason amount fromDue throughDue nextGrant => cases made
  | marketResolverAdded id userId addedBy addedAt => cases made
  | marketResolverRemoved id userId removedBy removedAt => cases made

theorem Market.Valid.shape [Lowercase] {id : MarketId} {market : Market} (valid : market.Valid id) :
    id.val.length = 36 ∧ market.options.length ≤ 10 ∧ market.options ≠ [] := by
  have identified := valid.identified
  have described := valid.described
  simp only [validMarketId, Bool.and_eq_true, beq_iff_eq, String.length_toList] at identified
  unfold validMarket at described
  simp only [reject_eq_ok, not_not] at described
  rcases described with ⟨_, ⟨least, most⟩, _⟩
  exact ⟨identified.1, most, List.length_pos_iff.mp (by omega)⟩

/-- Announcements fit and keep every row, and no field is cut inside an escape. -/
theorem announcements_fit [Lowercase] [TextLayout] (documented : DocumentedLayout) :
    (∀ (id : MarketId) (market : Market) (snapshot : SnapshotV1), id.val.length = 36 → market.options.length ≤ 10 →
      market.options ≠ [] → BuiltFrom id market snapshot → Announced market (render snapshot).content) ∧
    (∀ events before event state previous snapshot time, replay events = .ok before → apply before event = .ok state →
      eventSnapshot event state previous = .ok (some (snapshot, time)) →
      utf16Len (render snapshot).content ≤ 2000 ∧
        ((∃ (id : MarketId) (market : Market), state.markets[id]? = some market ∧ BuiltFrom id market snapshot ∧
          Announced market (render snapshot).content) ∨
        (∃ occurredAt, snapshot = .enabled occurredAt) ∨ ∃ userId occurredAt, snapshot = .memberEnrolled userId occurredAt)) ∧
    ∀ (text : String) (limit : Nat), 1 ≤ limit → Escaped text limit (escapeField text limit) := by
  refine ⟨?_, ?_, fun text limit positive => escapeField_escaped text positive⟩
  · intro id market snapshot identified few listed built
    exact built.announced documented identified few listed
  · intro events before event state previous snapshot time reached applied made
    rcases eventSnapshot_built reached applied made with ⟨id, market, found, valid, built⟩ | ⟨occurredAt, rfl⟩ |
      ⟨userId, occurredAt, rfl⟩
    · rcases valid.shape with ⟨identified, few, listed⟩
      have announced := built.announced documented identified few listed
      exact ⟨announced.fits, .inl ⟨id, market, found, built, announced⟩⟩
    · exact ⟨(@render_spec _ documented (.enabled occurredAt) trivial).1, .inr (.inl ⟨_, rfl⟩)⟩
    · exact ⟨(@render_spec _ documented (.memberEnrolled userId occurredAt) trivial).1, .inr (.inr ⟨_, _, rfl⟩)⟩

abbrev asciiLayout : TextLayout := ⟨String.length, fun text => text.toList.map String.singleton⟩

def rainMarket : Market :=
  { creator := ⟨7⟩, question := "Rain?", options := ["Yes", "No"], closesAt := 9, createdAt := 1, status := .opened,
    bets := [⟨⟨7⟩, ⟨1⟩, ⟨30⟩⟩], totalStaked := ⟨30⟩, payouts := [], resolvers := ∅ }

theorem announcements_fit_rain :
    letI : Lowercase := asciiLowercase
    letI : TextLayout := asciiLayout
    Announced rainMarket (render (.created (some ⟨⟨30⟩, [⟨0⟩, ⟨30⟩]⟩) rainId "Rain?" ⟨7⟩ ["Yes", "No"] 9 1)).content := by
  let : Lowercase := asciiLowercase
  let : TextLayout := asciiLayout
  have documented : DocumentedLayout := by
    refine ⟨fun _ _ => rfl, ?_⟩
    intro text
    have joined : ∀ characters : List Char, String.join (characters.map String.singleton) = String.ofList characters := by
      intro characters
      induction characters with
      | nil => rfl
      | cons c rest ih =>
        rw [List.map_cons, String.join_cons, ih]
        apply String.toList_inj.mp
        simp
    exact (joined text.toList).trans String.ofList_toList
  exact announcements_fit documented |>.1 rainId rainMarket _ (by decide +kernel) (by decide) (by decide)
    (@BuiltFrom.created rainId rainMarket _ _ _ _ (by decide +kernel))

end PredictionBot

import BazelRepo.PredictionBot.Odds
import BazelRepo.PredictionBot.Rendering

namespace PredictionBot

open Library

theorem escapeMarkdown_ofList (characters : List Char) :
    escapeMarkdown (String.ofList characters) = String.ofList (characters.flatMap escapeToken) := by
  unfold escapeMarkdown
  rw [String.toList_ofList]

theorem utf16Len_escaped (characters : List Char) : utf16Len (String.ofList (characters.flatMap escapeToken)) =
    (characters.map fun c => utf16Len (String.ofList (escapeToken c))).sum := by
  induction characters with
  | nil => rfl
  | cons c rest ih =>
    rw [List.flatMap_cons, String.ofList_append, utf16Len_append, ih, List.map_cons, List.sum_cons]

theorem utf16Len_escapeToken (c : Char) : utf16Len (String.ofList (escapeToken c)) ≤ 2 := by
  rw [utf16Len_ofList]
  unfold escapeToken
  by_cases special : c ∈ markdownSpecial
  · rw [if_pos special]
    have all_plain : (markdownSpecial.all fun d => utf16Units d == 1) = true := by decide
    have plain : ∀ d ∈ markdownSpecial, utf16Units d = 1 := fun d member =>
      beq_iff_eq.mp (List.all_eq_true.mp all_plain d member)
    simp [plain c special, plain '\\' (by decide)]
  · rw [if_neg special]
    simpa using utf16Units_le c

theorem utf16Len_escapeMarkdown (text : String) : utf16Len (escapeMarkdown text) ≤ text.length * 2 := by
  unfold escapeMarkdown
  rw [utf16Len_escaped]
  have total := List.sum_le_card_nsmul (text.toList.map fun c => utf16Len (String.ofList (escapeToken c))) 2 (by
    intro units member
    rcases List.mem_map.mp member with ⟨c, _, rfl⟩
    exact utf16Len_escapeToken c)
  rwa [List.length_map, String.length_toList, nsmul_eq_mul, Nat.cast_id] at total

def trailingBackslashes (text : String) : Nat :=
  (text.toList.reverse.takeWhile (· = '\\')).length

/-- Backslashes at the end of an escaped text come in pairs: none waits for a character. -/
theorem even_trailingBackslashes (characters : List Char) :
    trailingBackslashes (String.ofList (characters.flatMap escapeToken)) % 2 = 0 := by
  unfold trailingBackslashes
  rw [String.toList_ofList]
  induction characters using List.reverseRecOn with
  | nil => rfl
  | append_singleton earlier c ih =>
    rw [List.flatMap_append, List.flatMap_singleton, List.reverse_append]
    by_cases slash : c = '\\'
    · subst slash
      have token : (escapeToken '\\').reverse = ['\\', '\\'] := by decide
      rw [token]
      simp only [List.cons_append, List.nil_append, List.takeWhile_cons, decide_true, if_true, List.length_cons]
      omega
    · have token : ∃ others, (escapeToken c).reverse = c :: others := by
        unfold escapeToken
        split
        · exact ⟨['\\'], rfl⟩
        · exact ⟨[], rfl⟩
      rcases token with ⟨others, same⟩
      rw [same]
      simp [slash]

/-- What an escaped field is: within its limit, whole characters with their escapes, an ellipsis where it was cut. -/
structure Escaped (text : String) (limit : Nat) (field : String) : Prop where
  bounded : utf16Len field ≤ limit
  whole : (utf16Len (escapeMarkdown text) ≤ limit ∧ field = escapeMarkdown text) ∨
    (limit < utf16Len (escapeMarkdown text) ∧ ∃ kept, kept <+: text.toList ∧ kept ≠ text.toList ∧
      field = escapeMarkdown (String.ofList kept) ++ "…")
  finished : trailingBackslashes field % 2 = 0

theorem escapeField_escaped (text : String) {limit : Nat} (positive : 1 ≤ limit) :
    Escaped text limit (escapeField text limit) := by
  unfold escapeField
  rw [if_neg (by omega)]
  by_cases within : utf16Len (escapeMarkdown text) ≤ limit
  · rw [if_pos within]
    exact ⟨within, .inl ⟨within, rfl⟩, even_trailingBackslashes _⟩
  · rw [if_neg within]
    dsimp only
    have marker : utf16Len truncationMarker = 1 := by decide
    rw [marker]
    have size := @sum_fitting _ (fun c => utf16Len (String.ofList (escapeToken c))) (limit - 1) text.toList 0 (Nat.zero_le _)
    have part := @isPrefix_fitting _ (fun c => utf16Len (String.ofList (escapeToken c))) (limit - 1) text.toList 0
    generalize fitting (fun c => utf16Len (String.ofList (escapeToken c))) (limit - 1) 0 text.toList = kept at size part
    refine ⟨?_, .inr ⟨Nat.lt_of_not_le within, kept, part, ?_, rfl⟩, ?_⟩
    · rw [utf16Len_append, marker, escapeMarkdown_ofList, utf16Len_escaped]
      omega
    · rintro rfl
      apply within
      unfold escapeMarkdown
      rw [utf16Len_escaped]
      omega
    · unfold trailingBackslashes truncationMarker
      rw [String.toList_append, List.reverse_append]
      have ellipsis : "…".toList.reverse = ['…'] := by decide
      rw [ellipsis]
      simp

def Printable (text : String) : Prop :=
  ∀ c ∈ text.toList, 0x20 ≤ c.toNat ∧ c.toNat ≤ 0x7E

instance (text : String) : Decidable (Printable text) :=
  List.decidableBAll _ text.toList

theorem Printable.append {a b : String} (left : Printable a) (right : Printable b) : Printable (a ++ b) := by
  intro c member
  rw [String.toList_append] at member
  rcases List.mem_append.mp member with first | last
  · exact left c first
  · exact right c last

theorem Printable.utf16Len {text : String} (plain : Printable text) : utf16Len text = text.length := by
  unfold Library.utf16Len
  rw [sum_utf16Units, String.length_toList]
  intro c member
  have bound := (plain c member).2
  omega

theorem printable_repr (n : Nat) : Printable (toString n) := by
  intro c member
  have digits : (toString n).toList = Nat.toDigits 10 n := Nat.toList_repr
  rw [digits] at member
  have digit := isAsciiDigit_of_mem_toDigits member
  simp only [isAsciiDigit, Bool.and_eq_true, decide_eq_true_eq] at digit
  omega

theorem printable_i64 (n : Int64) : Printable (toString n) := by
  change Printable (toString n.toInt)
  cases n.toInt with
  | ofNat m => exact printable_repr m
  | negSucc m =>
    change Printable ("-" ++ toString (m + 1))
    exact Printable.append (by decide) (printable_repr (m + 1))

theorem formatPoints_size (amount : Points) : Printable (formatPoints amount) ∧ (formatPoints amount).length ≤ 40 := by
  have digits := printable_i64 amount.val
  have short := utf16Len_i64 amount.val
  rw [digits.utf16Len] at short
  unfold formatPoints
  constructor
  · intro c member
    rw [String.toList_ofList, List.mem_flatMap] at member
    rcases member with ⟨⟨digit, index⟩, placed, shown⟩
    have among := List.mem_map_of_mem (f := Prod.fst) placed
    rw [List.zipIdx_map_fst] at among
    have listed := digits digit among
    dsimp only at shown
    split at shown
    · rcases List.mem_cons.mp shown with rfl | shown
      · decide
      · rwa [List.mem_singleton.mp shown]
    · rwa [List.mem_singleton.mp shown]
  · rw [String.length_ofList, List.length_flatMap]
    have total := List.sum_le_card_nsmul (((toString amount.val).toList.zipIdx.map fun entry =>
      (if 0 < entry.2 ∧ ((toString amount.val).toList.length - entry.2) % 3 = 0 then [',', entry.1] else [entry.1]).length)) 2 (by
        intro size member
        rcases List.mem_map.mp member with ⟨entry, _, rfl⟩
        split <;> simp)
    rw [List.length_map, List.length_zipIdx, String.length_toList, nsmul_eq_mul, Nat.cast_id] at total
    exact total.trans (by omega)

theorem utf16Len_trimEnd (text : String) : utf16Len (trimEnd text) ≤ utf16Len text := by
  unfold trimEnd
  rw [utf16Len_ofList]
  have part := (List.dropWhile_sublist isWhiteSpace (l := text.toList.reverse)).reverse.map utf16Units
  rw [List.reverse_reverse] at part
  exact part.sum_le_sum fun _ _ => Nat.zero_le _

section

variable [TextLayout]

/-- What is documented of the layout: printable ASCII takes a column a character, graphemes make up the text. -/
structure DocumentedLayout : Prop where
  printable : ∀ text, Printable text → TextLayout.width text = text.length
  whole : ∀ text, String.join (TextLayout.graphemes text) = text

theorem utf16Len_padding (width : Nat) (value : String) :
    utf16Len (padding width value) = width - TextLayout.width value := by
  unfold padding
  have space : utf16Units ' ' = 1 := by decide
  rw [utf16Len_ofList, List.map_replicate, List.sum_replicate, space, nsmul_eq_mul, Nat.mul_one, Nat.cast_id]

/-- The columns of a table whose texts are all short and printable, as they are without the user's labels. -/
structure PlainRow (row : TableRow) : Prop where
  choice : Printable row.choice ∧ row.choice.length ≤ 6
  points : Printable row.points ∧ row.points.length ≤ 40
  chance : Printable row.chance ∧ row.chance.length ≤ 14
  movement : utf16Len row.movement ≤ 12

theorem columnWidth_le {rows : List TableRow} {column : TableRow → String} {bound : Nat}
    (short : ∀ row ∈ rows, TextLayout.width (column row) ≤ bound) : columnWidth rows column ≤ bound := by
  unfold columnWidth
  generalize start : 0 = first
  have within : first ≤ bound := by omega
  clear start
  induction rows generalizing first with
  | nil => simpa using within
  | cons row rest ih =>
    rw [List.map_cons, List.foldl_cons]
    exact ih (fun other member => short other (List.mem_cons_of_mem _ member)) _
      (Nat.max_le.mpr ⟨within, short row List.mem_cons_self⟩)

theorem utf16Len_padded (documented : DocumentedLayout) {width bound : Nat} {value : String}
    (plain : Printable value ∧ value.length ≤ bound) (narrow : width ≤ bound) :
    utf16Len value + utf16Len (padding width value) ≤ bound := by
  rw [utf16Len_padding, documented.printable value plain.1, plain.1.utf16Len]
  have short := plain.2
  omega

theorem utf16Len_renderRow (documented : DocumentedLayout) {choiceWidth pointsWidth chanceWidth index : Nat} {row : TableRow}
    (plain : PlainRow row) (choice : choiceWidth ≤ 6) (points : pointsWidth ≤ 40) (chance : chanceWidth ≤ 14) :
    utf16Len (renderRow choiceWidth pointsWidth chanceWidth index row) ≤ 81 := by
  have first := utf16Len_padded documented plain.choice choice
  have second := utf16Len_padded documented plain.points points
  have third := utf16Len_padded documented plain.chance chance
  have last := plain.movement
  have bar : utf16Len " | " = 3 := by decide
  unfold renderRow
  apply (utf16Len_trimEnd _).trans
  split <;> simp only [utf16Len_append] <;> omega

def PlainOutcome (outcome : String × String × String) : Prop :=
  (Printable outcome.2.1 ∧ outcome.2.1.length ≤ 14) ∧ utf16Len outcome.2.2 ≤ 12

theorem plain_outcomeRow (stakes : StakeSummary) {index : Nat} {outcome : String × String × String}
    (plain : PlainOutcome outcome) (few : index < 10) : PlainRow (outcomeRow stakes 0 index outcome) := by
  rcases plain with ⟨chance, movement⟩
  have number : (toString (index + 1)).length ≤ 2 := by
    have digits : utf16Len (toString (index + 1)) ≤ 2 := utf16Len_repr (by decide) (by omega)
    rwa [(printable_repr (index + 1)).utf16Len] at digits
  refine ⟨?_, ?_, chance, movement⟩
  · have empty : tableLabel outcome.1 0 = "" := by
      unfold tableLabel
      rw [if_pos rfl]
    unfold outcomeRow
    rw [empty]
    refine ⟨((printable_repr _).append (by decide)).append (by decide), ?_⟩
    have dot : ". ".length = 2 := by decide
    rw [String.append_empty, String.length_append, dot]
    omega
  · unfold outcomeRow
    cases stakes.outcomes[index]? with
    | none =>
      change Printable "" ∧ "".length ≤ 40
      decide
    | some amount => exact formatPoints_size amount

omit [TextLayout] in
theorem plain_headingRow : PlainRow headingRow :=
  ⟨by decide, by decide, by decide, by decide⟩

omit [TextLayout] in
theorem plain_totalRow (stakes : StakeSummary) : PlainRow (totalRow stakes) := by
  have total : Printable "Total" ∧ "Total".length ≤ 6 := by decide
  have dash : Printable "-" ∧ "-".length ≤ 14 := by decide
  have movement : utf16Len "-" ≤ 12 := by decide
  exact ⟨total, formatPoints_size stakes.total, dash, movement⟩

theorem utf16Len_renderStakeTable (documented : DocumentedLayout) {outcomes : List (String × String × String)}
    (stakes : StakeSummary) (plain : ∀ outcome ∈ outcomes, PlainOutcome outcome) (few : outcomes.length ≤ 10) :
    utf16Len (renderStakeTable outcomes stakes 0) ≤ 992 := by
  have rows : ∀ row ∈ headingRow :: (outcomes.zipIdx.map fun entry => outcomeRow stakes 0 entry.2 entry.1) ++
      [totalRow stakes], PlainRow row := by
    intro row member
    rcases List.mem_append.mp member with member | member
    · rcases List.mem_cons.mp member with rfl | member
      · exact plain_headingRow
      · rcases List.mem_map.mp member with ⟨⟨outcome, index⟩, placed, rfl⟩
        have position := List.mem_zipIdx placed
        have listed := List.mem_map_of_mem (f := Prod.fst) placed
        rw [List.zipIdx_map_fst] at listed
        exact plain_outcomeRow stakes (plain outcome listed) (by omega)
    · cases List.mem_singleton.mp member
      exact plain_totalRow stakes
  have count : (headingRow :: (outcomes.zipIdx.map fun entry => outcomeRow stakes 0 entry.2 entry.1) ++
      [totalRow stakes]).length ≤ 12 := by
    simp only [List.length_append, List.length_cons, List.length_map, List.length_zipIdx, List.length_nil]
    omega
  unfold renderStakeTable
  dsimp only
  generalize headingRow :: (outcomes.zipIdx.map fun entry => outcomeRow stakes 0 entry.2 entry.1) ++
    [totalRow stakes] = table at rows count
  have choice : columnWidth table TableRow.choice ≤ 6 := columnWidth_le fun row member => by
    rw [documented.printable _ (rows row member).choice.1]
    exact (rows row member).choice.2
  have points : columnWidth table TableRow.points ≤ 40 := columnWidth_le fun row member => by
    rw [documented.printable _ (rows row member).points.1]
    exact (rows row member).points.2
  have chance : columnWidth table TableRow.chance ≤ 14 := columnWidth_le fun row member => by
    rw [documented.printable _ (rows row member).chance.1]
    exact (rows row member).chance.2
  have lines := @utf16Len_intercalate "\n" 82 (table.zipIdx.map fun entry => renderRow
    (columnWidth table TableRow.choice) (columnWidth table TableRow.points) (columnWidth table TableRow.chance) entry.2 entry.1) (by
      intro line member
      rcases List.mem_map.mp member with ⟨⟨row, index⟩, placed, rfl⟩
      have listed := List.mem_map_of_mem (f := Prod.fst) placed
      rw [List.zipIdx_map_fst] at listed
      have short := @utf16Len_renderRow _ documented _ _ _ index row (rows row listed) choice points chance
      have feed : utf16Len "\n" = 1 := by decide
      dsimp only
      omega)
  rw [List.length_map, List.length_zipIdx] at lines
  have opening : utf16Len "```\n" = 4 := by decide
  have closing : utf16Len "\n```" = 4 := by decide
  rw [utf16Len_append, utf16Len_append]
  omega

/-- The odds that a 16-bit number of tenths can hold, for at most ten outcomes. -/
def OddsFit (odds : List OutcomeOdds) : Prop :=
  odds.length ≤ 10 ∧ ∀ outcome ∈ odds, ∀ tenths, outcome.tenthsPercent = some tenths → tenths < 2 ^ 16

def SnapshotV1.WellFormed : SnapshotV1 → Prop
  | .enabled _ | .memberEnrolled _ _ => True
  | .betPlaced _ id _ betCount odds _ => id.val.length = 36 ∧ betCount < 2 ^ 64 ∧ OddsFit odds
  | .created _ id _ _ options _ _ => id.val.length = 36 ∧ options.length ≤ 10
  | .resolved _ id _ _ _ odds _ | .cancelled _ id _ odds _ => id.val.length = 36 ∧ OddsFit odds

omit [TextLayout] in
theorem plain_chance {odds : List OutcomeOdds} (fit : OddsFit odds) :
    ∀ outcome ∈ odds, Printable outcome.chance ∧ outcome.chance.length ≤ 14 := by
  intro outcome member
  unfold OutcomeOdds.chance
  cases shown : outcome.tenthsPercent with
  | none => exact ⟨by decide, by decide⟩
  | some tenths =>
    have small := fit.2 outcome member tenths shown
    have whole : utf16Len (toString (tenths / 10)) ≤ 4 := utf16Len_repr (by decide) (by omega)
    have part : utf16Len (toString (tenths % 10)) ≤ 1 := utf16Len_repr (by decide) (by omega)
    rw [(printable_repr _).utf16Len] at whole part
    have dot : ".".length = 1 := by decide
    have percent : "%".length = 1 := by decide
    refine ⟨(((printable_repr _).append (by decide)).append (printable_repr _)).append (by decide), ?_⟩
    simp only [String.length_append]
    omega

omit [TextLayout] in
theorem movement_small (outcome : OutcomeOdds) :
    utf16Len (trim outcome.movementIndicator) ≤ 12 ∧ utf16Len outcome.movementIndicator ≤ 12 := by
  unfold OutcomeOdds.movementIndicator
  have up : utf16Len (trim " 🟢 ⬆️") ≤ 12 ∧ utf16Len " 🟢 ⬆️" ≤ 12 := by decide
  have down : utf16Len (trim " 🔴 ⬇️") ≤ 12 ∧ utf16Len " 🔴 ⬇️" ≤ 12 := by decide
  have same : utf16Len (trim " ➖ unchanged") ≤ 12 ∧ utf16Len " ➖ unchanged" ≤ 12 := by decide
  have absent : utf16Len (trim "") ≤ 12 ∧ utf16Len "" ≤ 12 := by decide
  rcases outcome.movement with _ | _ | _
  · by_cases unchanged : outcome.unchanged = true
    · simpa [unchanged] using same
    · simpa [unchanged] using absent
  · exact up
  · exact down

omit [TextLayout] in
theorem escapeField_zero (text : String) : escapeField text 0 = "" := by
  unfold escapeField
  rw [if_pos rfl]

theorem utf16Len_renderOdds (documented : DocumentedLayout) {odds : List OutcomeOdds} (stakes : Option StakeSummary)
    (fit : OddsFit odds) : utf16Len (renderOdds odds stakes 0) ≤ 1020 := by
  have heading : utf16Len "\nOutcomes:\n" = 11 := by decide
  unfold renderOdds
  split
  · decide
  · cases stakes with
    | some stakes =>
      have table := @utf16Len_renderStakeTable _ documented
        (odds.map fun outcome => (outcome.label, outcome.chance, trim outcome.movementIndicator)) stakes (by
          intro entry member
          rcases List.mem_map.mp member with ⟨outcome, listed, rfl⟩
          exact ⟨plain_chance fit outcome listed, (movement_small outcome).1⟩) (by
          rw [List.length_map]
          exact fit.1)
      dsimp only
      rw [utf16Len_append]
      omega
    | none =>
      have lines := @utf16Len_intercalate "\n" 60 (odds.map fun outcome => "• " ++ escapeField outcome.label 0 ++ " — " ++
        outcome.chance ++ " implied chance" ++ outcome.movementIndicator) (by
          intro line member
          rcases List.mem_map.mp member with ⟨outcome, listed, rfl⟩
          have chance := plain_chance fit outcome listed
          have size := chance.1.utf16Len
          have movement := (movement_small outcome).2
          have bullet : utf16Len "• " = 2 := by decide
          have dash : utf16Len " — " = 3 := by decide
          have tail : utf16Len " implied chance" = 15 := by decide
          have feed : utf16Len "\n" = 1 := by decide
          have blank : utf16Len "" = 0 := rfl
          rw [escapeField_zero]
          simp only [utf16Len_append]
          omega)
      rw [List.length_map] at lines
      have few := fit.1
      dsimp only
      rw [utf16Len_append]
      omega

theorem utf16Len_renderCreated (documented : DocumentedLayout) {options : List String} (stakes : Option StakeSummary)
    (few : options.length ≤ 10) : utf16Len (renderCreated options stakes 0) ≤ 1020 := by
  unfold renderCreated
  cases stakes with
  | some stakes =>
    have plain : ∀ entry ∈ options.map fun label => (label, noChance, ""), PlainOutcome entry := by
      intro entry member
      rcases List.mem_map.mp member with ⟨label, _, rfl⟩
      have chance : Printable noChance ∧ noChance.length ≤ 14 := by decide
      have movement : utf16Len "" ≤ 12 := by decide
      exact ⟨chance, movement⟩
    have table := utf16Len_renderStakeTable documented stakes plain (by rwa [List.length_map])
    dsimp only
    omega
  | none =>
    have lines := @utf16Len_intercalate "\n" 60 (options.map fun option =>
      "• " ++ escapeField option 0 ++ " — N/A (no bets) implied chance") (by
        intro line member
        rcases List.mem_map.mp member with ⟨option, listed, rfl⟩
        rw [escapeField_zero]
        decide)
    rw [List.length_map] at lines
    dsimp only
    unfold renderCreationOutcomes
    omega

omit [TextLayout] in
theorem utf16Len_eventTime (occurredAt : Int64) : utf16Len (eventTime occurredAt) ≤ 40 := by
  have number := utf16Len_i64 occurredAt
  have opening : utf16Len "\nEvent time: <t:" = 16 := by decide
  have closing : utf16Len ":F>" = 3 := by decide
  unfold eventTime
  simp only [utf16Len_append]
  omega

omit [TextLayout] in
theorem utf16Len_marketHeading {heading : String} {id : MarketId} (short : utf16Len heading ≤ 20)
    (identified : id.val.length = 36) : utf16Len (marketHeading heading id) ≤ 110 := by
  have name := utf16Len_escapeMarkdown id.val
  have label : utf16Len "\nMarket ID: `" = 13 := by decide
  have closing : utf16Len "`\n" = 2 := by decide
  unfold marketHeading
  simp only [utf16Len_append]
  omega

theorem utf16Len_renderContent (documented : DocumentedLayout) {snapshot : SnapshotV1} (formed : snapshot.WellFormed) :
    utf16Len (renderContent snapshot 0) ≤ contentLimit := by
  have question : utf16Len "Question: " = 10 := by decide
  unfold contentLimit
  cases snapshot with
  | enabled occurredAt =>
    have whole : utf16Len "Prediction market announcements are enabled! New markets, bets, and results will appear here." ≤
        2000 := by decide
    exact whole
  | memberEnrolled userId occurredAt =>
    have user : utf16Len (toString userId) ≤ 20 := utf16Len_u64 userId.val
    have time := utf16Len_eventTime occurredAt
    have opening : utf16Len "👋 New participant\n<@" = 21 := by decide
    have closing : utf16Len "> joined this server’s prediction market!" = 41 := by decide
    have text : renderContent (.memberEnrolled userId occurredAt) 0 = "👋 New participant\n<@" ++ toString userId ++
        "> joined this server’s prediction market!" ++ eventTime occurredAt := rfl
    rw [text, utf16Len_append, utf16Len_append, utf16Len_append, opening, closing]
    omega
  | betPlaced stakes id text betCount odds occurredAt =>
    rcases formed with ⟨identified, counted, fit⟩
    have heading := utf16Len_marketHeading (by decide : utf16Len "🎲 Another bet" ≤ 20) identified
    have table := utf16Len_renderOdds documented stakes fit
    have time := utf16Len_eventTime occurredAt
    have count : utf16Len (toString betCount) ≤ 20 := utf16Len_repr (by decide) (by omega)
    have noun : utf16Len (if betCount = 1 then "bet" else "bets") ≤ 4 := by
      split <;> decide
    have feed : utf16Len "\n" = 1 := by decide
    have space : utf16Len " " = 1 := by decide
    have placed : utf16Len " placed" = 7 := by decide
    unfold renderContent
    dsimp only [SnapshotV1.odds, SnapshotV1.stakes]
    repeat rw [utf16Len_append]
    repeat rw [escapeField_zero]
    rw [utf16Len_empty]
    omega
  | created stakes id text creator options closesAt occurredAt =>
    rcases formed with ⟨identified, few⟩
    have heading := utf16Len_marketHeading (by decide : utf16Len "📈 Market created" ≤ 20) identified
    have table := utf16Len_renderCreated documented stakes few
    have time := utf16Len_eventTime occurredAt
    have user : utf16Len (toString creator) ≤ 20 := utf16Len_u64 creator.val
    have close := utf16Len_i64 closesAt
    have by_user : utf16Len "\nCreator: <@" = 12 := by decide
    have outcomes : utf16Len ">\nOutcomes:\n" = 12 := by decide
    have closes : utf16Len "\nCloses: <t:" = 12 := by decide
    have closing : utf16Len ":F>" = 3 := by decide
    unfold renderContent
    dsimp only
    repeat rw [utf16Len_append]
    rw [escapeField_zero, utf16Len_empty]
    omega
  | resolved stakes id text winner refunded odds occurredAt =>
    rcases formed with ⟨identified, fit⟩
    have heading := utf16Len_marketHeading (by decide : utf16Len "✅ Market resolved" ≤ 20) identified
    have table := utf16Len_renderOdds documented stakes fit
    have time := utf16Len_eventTime occurredAt
    have won : utf16Len "\nWinning outcome: " = 18 := by decide
    have refund : utf16Len "\nStakes refunded: " = 18 := by decide
    have answer : utf16Len (if refunded then "yes (no winning bets)" else "no") ≤ 21 := by
      cases refunded <;> decide
    unfold renderContent
    dsimp only [SnapshotV1.odds, SnapshotV1.stakes]
    repeat rw [utf16Len_append]
    repeat rw [escapeField_zero]
    rw [utf16Len_empty]
    omega
  | cancelled stakes id text odds occurredAt =>
    rcases formed with ⟨identified, fit⟩
    have heading := utf16Len_marketHeading (by decide : utf16Len "🚫 Market cancelled" ≤ 20) identified
    have table := utf16Len_renderOdds documented stakes fit
    have time := utf16Len_eventTime occurredAt
    have refund : utf16Len "\nStakes refunded: yes" = 21 := by decide
    unfold renderContent
    dsimp only [SnapshotV1.odds, SnapshotV1.stakes]
    repeat rw [utf16Len_append]
    repeat rw [escapeField_zero]
    rw [utf16Len_empty]
    omega

theorem shrinkContent_spec (snapshot : SnapshotV1) (fixed : utf16Len (renderContent snapshot 0) ≤ contentLimit)
    (limit : Nat) : utf16Len (shrinkContent snapshot limit) ≤ contentLimit ∧
      ∃ chosen, shrinkContent snapshot limit = renderContent snapshot chosen := by
  induction limit with
  | zero => exact ⟨fixed, 0, rfl⟩
  | succ limit ih =>
    unfold shrinkContent
    by_cases long : contentLimit < utf16Len (renderContent snapshot (limit + 1))
    · rw [if_pos long]
      exact ih
    · rw [if_neg long]
      exact ⟨Nat.le_of_not_lt long, limit + 1, rfl⟩

theorem render_spec (documented : DocumentedLayout) {snapshot : SnapshotV1} (formed : snapshot.WellFormed) :
    utf16Len (render snapshot).content ≤ contentLimit ∧
      ∃ limit, (render snapshot).content = renderContent snapshot limit := by
  have fixed := utf16Len_renderContent documented formed
  unfold render
  dsimp only
  split
  · exact shrinkContent_spec snapshot fixed _
  · rename_i short
    exact ⟨Nat.le_of_not_lt short, _, rfl⟩

end

end PredictionBot

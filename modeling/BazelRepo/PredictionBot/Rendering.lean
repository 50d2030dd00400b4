import BazelRepo.Library.Fitting
import BazelRepo.PredictionBot.Events

namespace PredictionBot

open Library (fitting isControl isWhiteSpace trim utf16Len)

/-- How texts are laid out: the columns a text takes, and the characters a reader sees as one. -/
class TextLayout where
  width : String → Nat
  graphemes : String → List String

def contentLimit : Nat := 2000

def truncationMarker : String := "…"

def choiceLabelWidth : Nat := 32

def markdownSpecial : List Char := ['\\', '*', '_', '~', '`', '|', '<', '>', '#', '[', ']', '(', ')']

def escapeToken (c : Char) : List Char :=
  if c ∈ markdownSpecial then ['\\', c] else [c]

def escapeMarkdown (text : String) : String :=
  String.ofList (text.toList.flatMap escapeToken)

def escapeField (text : String) (limit : Nat) : String :=
  if limit = 0 then ""
  else if utf16Len (escapeMarkdown text) ≤ limit then escapeMarkdown text
  else
    let budget := limit - utf16Len truncationMarker
    let kept := fitting (fun c => utf16Len (String.ofList (escapeToken c))) budget 0 text.toList
    escapeMarkdown (String.ofList kept) ++ truncationMarker

def formatPoints (amount : Points) : String :=
  let digits := (toString amount.val).toList
  String.ofList (digits.zipIdx.flatMap fun (digit, index) =>
    if 0 < index ∧ (digits.length - index) % 3 = 0 then [',', digit] else [digit])

/-- Directional marks and invisible characters that labels of a table leave out. -/
def isInvisible (c : Char) : Bool :=
  let code := c.toNat
  [0x061c, 0x200b, 0x200e, 0x200f, 0xfeff, 0x00ad].contains code || (0x202a ≤ code && code ≤ 0x202e) ||
    (0x2066 ≤ code && code ≤ 0x2069)

def safeCharacter (c : Char) : Option Char :=
  if isWhiteSpace c then some ' '
  else if isControl c || isInvisible c then none
  else if c = '`' then some 'ˋ'
  else if c = '|' then some '¦'
  else some c

section

variable [TextLayout]

/-- The graphemes kept from the units and columns used so far. -/
def shortenLabel (limit : Nat) : Nat → Nat → List String → List String
  | _, _, [] => []
  | units, columns, grapheme :: rest =>
    if limit - 1 < units + utf16Len grapheme ∨ choiceLabelWidth ≤ columns + TextLayout.width grapheme then []
    else grapheme :: shortenLabel limit (units + utf16Len grapheme) (columns + TextLayout.width grapheme) rest

def tableLabel (label : String) (limit : Nat) : String :=
  if limit = 0 then ""
  else
    let safe := String.ofList (label.toList.filterMap safeCharacter)
    if utf16Len safe ≤ limit ∧ TextLayout.width safe ≤ choiceLabelWidth then safe
    else String.join (shortenLabel limit 0 0 (TextLayout.graphemes safe)) ++ truncationMarker

structure TableRow where
  choice : String
  points : String
  chance : String
  movement : String

def columnWidth (rows : List TableRow) (column : TableRow → String) : Nat :=
  (rows.map fun row => TextLayout.width (column row)).foldl max 0

def padding (width : Nat) (value : String) : String :=
  String.ofList (List.replicate (width - TextLayout.width value) ' ')

end

def trimEnd (text : String) : String :=
  String.ofList (text.toList.reverse.dropWhile isWhiteSpace).reverse

section

variable [TextLayout]

/-- Amounts are aligned to the right, except for the heading; the last column is not padded. -/
def renderRow (choiceWidth pointsWidth chanceWidth index : Nat) (row : TableRow) : String :=
  let points := if index ≠ 0 then padding pointsWidth row.points ++ row.points
    else row.points ++ padding pointsWidth row.points
  trimEnd (row.choice ++ padding choiceWidth row.choice ++ " | " ++ points ++ " | " ++ row.chance ++
    padding chanceWidth row.chance ++ " | " ++ row.movement)

def headingRow : TableRow := ⟨"Choice", "Points staked", "Implied chance", "Movement"⟩

def outcomeRow (stakes : StakeSummary) (fieldLimit index : Nat) (outcome : String × String × String) : TableRow :=
  { choice := toString (index + 1) ++ ". " ++ tableLabel outcome.1 fieldLimit
    points := (stakes.outcomes[index]?.map formatPoints).getD ""
    chance := outcome.2.1
    movement := outcome.2.2 }

def totalRow (stakes : StakeSummary) : TableRow := ⟨"Total", formatPoints stakes.total, "-", "-"⟩

def renderStakeTable (outcomes : List (String × String × String)) (stakes : StakeSummary) (fieldLimit : Nat) : String :=
  let rows := headingRow :: (outcomes.zipIdx.map fun entry => outcomeRow stakes fieldLimit entry.2 entry.1) ++
    [totalRow stakes]
  let lines := rows.zipIdx.map fun entry => renderRow (columnWidth rows TableRow.choice)
    (columnWidth rows TableRow.points) (columnWidth rows TableRow.chance) entry.2 entry.1
  "```\n" ++ "\n".intercalate lines ++ "\n```"

end

def OutcomeOdds.movementIndicator (odds : OutcomeOdds) : String :=
  match odds.movement with
  | some .up => " 🟢 ⬆️"
  | some .down => " 🔴 ⬇️"
  | none => if odds.unchanged then " ➖ unchanged" else ""

def noChance : String := "N/A (no bets)"

def OutcomeOdds.chance (odds : OutcomeOdds) : String :=
  match odds.tenthsPercent with
  | none => noChance
  | some value => toString (value / 10) ++ "." ++ toString (value % 10) ++ "%"

def SnapshotV1.stakes : SnapshotV1 → Option StakeSummary
  | .created stakes .. | .betPlaced stakes .. | .resolved stakes .. | .cancelled stakes .. => stakes
  | .enabled .. | .memberEnrolled .. => none

def SnapshotV1.odds : SnapshotV1 → List OutcomeOdds
  | .betPlaced _ _ _ _ odds _ | .resolved _ _ _ _ _ odds _ | .cancelled _ _ _ odds _ => odds
  | .enabled .. | .created .. | .memberEnrolled .. => []

def renderCreationOutcomes (options : List String) (fieldLimit : Nat) : String :=
  "\n".intercalate (options.map fun option => "• " ++ escapeField option fieldLimit ++ " — N/A (no bets) implied chance")

section

variable [TextLayout]

def renderOdds (odds : List OutcomeOdds) (stakes : Option StakeSummary) (fieldLimit : Nat) : String :=
  if odds = [] then ""
  else match stakes with
    | some stakes => "\nOutcomes:\n" ++ renderStakeTable
        (odds.map fun outcome => (outcome.label, outcome.chance, trim outcome.movementIndicator)) stakes fieldLimit
    | none => "\nOutcomes:\n" ++ "\n".intercalate (odds.map fun outcome =>
        "• " ++ escapeField outcome.label fieldLimit ++ " — " ++ outcome.chance ++ " implied chance" ++
          outcome.movementIndicator)

def renderCreated (options : List String) (stakes : Option StakeSummary) (fieldLimit : Nat) : String :=
  match stakes with
  | none => renderCreationOutcomes options fieldLimit
  | some stakes => renderStakeTable (options.map fun label => (label, noChance, "")) stakes fieldLimit

def eventTime (occurredAt : Int64) : String :=
  "\nEvent time: <t:" ++ toString occurredAt ++ ":F>"

def marketHeading (heading : String) (id : MarketId) : String :=
  heading ++ "\nMarket ID: `" ++ escapeMarkdown id.val ++ "`\n"

def renderContent (snapshot : SnapshotV1) (fieldLimit : Nat) : String :=
  let odds := renderOdds snapshot.odds snapshot.stakes fieldLimit
  match snapshot with
  | .enabled _ => "Prediction market announcements are enabled! New markets, bets, and results will appear here."
  | .memberEnrolled userId occurredAt =>
    "👋 New participant\n<@" ++ toString userId ++ "> joined this server’s prediction market!" ++ eventTime occurredAt
  | .betPlaced _ id question betCount _ occurredAt =>
    marketHeading "🎲 Another bet" id ++ "Question: " ++ escapeField question fieldLimit ++ "\n" ++
      toString betCount ++ " " ++ (if betCount = 1 then "bet" else "bets") ++ " placed" ++ odds ++ eventTime occurredAt
  | .created stakes id question creator options closesAt occurredAt =>
    marketHeading "📈 Market created" id ++ "Question: " ++ escapeField question fieldLimit ++
      "\nCreator: <@" ++ toString creator ++ ">\nOutcomes:\n" ++ renderCreated options stakes fieldLimit ++
      "\nCloses: <t:" ++ toString closesAt ++ ":F>" ++ eventTime occurredAt
  | .resolved _ id question winner refunded _ occurredAt =>
    marketHeading "✅ Market resolved" id ++ "Question: " ++ escapeField question fieldLimit ++
      "\nWinning outcome: " ++ escapeField winner fieldLimit ++
      "\nStakes refunded: " ++ (if refunded then "yes (no winning bets)" else "no") ++ odds ++ eventTime occurredAt
  | .cancelled _ id question _ occurredAt =>
    marketHeading "🚫 Market cancelled" id ++ "Question: " ++ escapeField question fieldLimit ++
      "\nStakes refunded: yes" ++ odds ++ eventTime occurredAt

/-- The loop that takes units from the user's texts, never rows or amounts, until the message fits. -/
def shrinkContent (snapshot : SnapshotV1) : Nat → String
  | 0 => renderContent snapshot 0
  | limit + 1 =>
    if contentLimit < utf16Len (renderContent snapshot (limit + 1)) then shrinkContent snapshot limit
    else renderContent snapshot (limit + 1)

def fieldCount : SnapshotV1 → Nat
  | .created _ _ _ _ options _ _ => options.length + 1
  | .resolved .. => 2
  | .enabled .. | .cancelled .. | .betPlaced .. | .memberEnrolled .. => 1

structure AllowedMentions where
  everyone : Bool
  allUsers : Bool
  allRoles : Bool
  repliedUser : Bool

structure CreateMessage where
  content : String
  allowedMentions : AllowedMentions

def noMentions : AllowedMentions := ⟨false, false, false, false⟩

def render (snapshot : SnapshotV1) : CreateMessage :=
  let whole := renderContent snapshot (2 ^ 64 - 1)
  let content :=
    if contentLimit < utf16Len whole then
      let fixedUnits := utf16Len (renderContent snapshot 0)
      shrinkContent snapshot ((contentLimit - fixedUnits) / (fieldCount snapshot + snapshot.odds.length))
    else whole
  { content, allowedMentions := noMentions }

end

end PredictionBot

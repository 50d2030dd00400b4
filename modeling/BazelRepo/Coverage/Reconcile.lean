import BazelRepo.Coverage.Inventory
import BazelRepo.Coverage.Lcov

namespace Coverage

open Library

namespace Reconcile

/-- The errors of the command, with their messages. -/
inductive Failure where
  | value (message : String)
  | type (message : String)
  | key (name : String)
  | coverage (message : String)
  | stopIteration
  deriving DecidableEq

abbrev Outcome := Except Failure

def invalid {α : Type} (message : String) : Outcome α := .error (.value message)

/-- The decimal digits of a Unicode version; nothing here depends on which one it is. -/
class DecimalDigits where
  digit : Char → Option Nat

abbrev asciiDigits : DecimalDigits := ⟨fun c => if isAsciiDigit c then some (c.toNat - 0x30) else none⟩

structure Source where
  path : String
  language : String
  owners : List Json

structure Inventory where
  eligible : List Source
  excluded : List (List (String × String))
  missingOwners : List String
  baselineSources : Option (List String) := none

inductive Evidence where
  | text (path : String)
  | texts (paths : List String)

def Evidence.isEmpty : Evidence → Bool
  | .text path => path = ""
  | .texts paths => paths = []

structure Limit where
  source : Option String := none
  rule : Option String := none
  rules : Option (List String) := none
  owners : Option (List Json) := none
  missingGuarantee : Option String := none
  evidence : Option Evidence := none
  recordAbsence : Option Bool := none
  lineSummary : Option Bool := none

/-- What a receipt may give for the lines of a source: a list, whose items may be no integers, or no list at all. -/
inductive LineValue where
  | list (numbers : List (Option Int))
  | other

structure CollectorReceipt where
  sources : Option (List (String × LineValue)) := none
  limits : Option (List Limit) := none

inductive Status where
  | measured
  | zeroHit
  | collectorLimit
  | noExecutableLines
  deriving DecidableEq

structure SourceResult where
  source : String
  status : Status
  evidence : Option String := none
  executableLines : Option Nat := none
  hitLines : Option Nat := none
  limits : Option (List Limit) := none

structure Reconciliation where
  schemaVersion : Nat
  sources : List SourceResult
  excluded : List (List (String × String))

/-- The counts of a record by their lines, and its summary. -/
structure Record where
  lines : List (Int × Int)
  found : Int
  hit : Int
  deriving DecidableEq

/-- Observed records by their sources. -/
abbrev Records := List (String × Record)

def knownHits (lines : List (Int × Int)) : Nat := (lines.filter fun entry => decide (0 < entry.2)).length

/-- The lines of a text; a newline behind a carriage return ends the same line. -/
def splitlines : List Char → List (List Char)
  | [] => []
  | '\r' :: '\n' :: rest => [] :: splitlines rest
  | c :: rest =>
    if isLineEnd c then [] :: splitlines rest
    else match splitlines rest with
      | [] => [[c]]
      | line :: others => (c :: line) :: others

def strip (text : List Char) : List Char := stripEnds isSpace text

def lineSet : LineValue → Outcome (List Int)
  | .other => .error (.type "A collector line set must be a list.")
  | .list numbers =>
    numbers.foldlM (fun result number =>
      match number with
      | none => invalid "A collector line set contains invalid or duplicate lines."
      | some number =>
        if number ≤ 0 ∨ number ∈ result then invalid "A collector line set contains invalid or duplicate lines."
        else .ok (result ++ [number])) []

section Parsing

variable [DecimalDigits]

/-- Digits in groups between underscores, none of them empty. -/
def digitsOf (text : List Char) : Option (List Nat) :=
  ((text.splitOn '_').mapM fun group => if group = [] then none else group.mapM DecimalDigits.digit).map List.flatten

def int (text : List Char) : Outcome Int :=
  let text := strip text
  let (negative, unsigned) := match text with
    | '-' :: rest => (true, rest)
    | '+' :: rest => (false, rest)
    | rest => (false, rest)
  match digitsOf unsigned with
  | none => invalid s!"invalid literal for int() with base 10: '{String.ofList text}'"
  | some digits =>
    if 4300 < digits.length then
      invalid s!"Exceeds the limit (4300 digits) for integer string conversion: value has {digits.length} digits; use sys.set_int_max_str_digits() to increase the limit"
    else
      let value : Int := (digits.foldl (fun value digit => 10 * value + digit) 0 : Nat)
      .ok (if negative then -value else value)

/-- The numbers of the lines that start so. -/
def numbers (start : String) (lines : List (List Char)) : Outcome (List Int) :=
  (lines.filterMap (stripPrefix start)).mapM int

def readBranch (name : String) (branches : List ((Int × List Char × List Char) × Int)) (line : List Char) :
    Outcome (List ((Int × List Char × List Char) × Int)) :=
  match stripPrefix "BRDA:" line with
  | none => .ok branches
  | some fields =>
    match fields.splitOn ',' with
    | [number, block, branch, count] => do
      let number ← int number
      let value ← (if count = ['-'] then .ok 0 else int count : Outcome Int)
      if number ≤ 0 ∨ block = [] ∨ branch = [] ∨ value < 0 ∨ (number, block, branch) ∈ branches.map Prod.fst then
        invalid s!"Invalid branch record: {name}"
      else
        .ok (branches ++ [((number, block, branch), value)])
    | _ => invalid s!"Invalid branch record: {name}"

def validateBranches (lines : List (List Char)) (name : String) : Outcome Unit := do
  let branches ← lines.foldlM (readBranch name) []
  let found ← numbers "BRF:" lines
  let hit ← numbers "BRH:" lines
  if (branches ≠ [] ∨ found ≠ [] ∨ hit ≠ []) ∧
      (found ≠ [(branches.length : Int)] ∨ hit ≠ [((branches.filter fun entry => decide (0 < entry.2)).length : Int)]) then
    invalid s!"Incomplete branch record: {name}"
  else
    .ok ()

/-- The executable lines up to a line of a record, and those with it. -/
def readCount (name : String) (counts : List (Int × Int)) (line : List Char) : Outcome (List (Int × Int)) :=
  match stripPrefix "DA:" line with
  | none => .ok counts
  | some fields =>
    match fields.splitOn ',' with
    | [number, count] | [number, count, _] => do
      let number ← int number
      let count ← int count
      if number ≤ 0 ∨ count < 0 ∨ number ∈ counts.map Prod.fst then invalid s!"Invalid executable line: {name}"
      else .ok (counts ++ [(number, count)])
    | _ => invalid s!"Invalid executable line: {name}"

def readRecord (name : String) (lines : List (List Char)) : Outcome Record := do
  let counts ← lines.foldlM (readCount name) []
  let found ← numbers "LF:" lines
  let hit ← numbers "LH:" lines
  match found, hit with
  | [found], [hit] =>
    if found < counts.length ∨ hit < 0 ∨ found < hit then
      invalid s!"Invalid executable summary: {name}"
    else if ¬ ".rs".toList <:+ name.toList ∧ (found ≠ counts.length ∨ hit ≠ knownHits counts) then
      invalid s!"Incomplete executable record: {name}"
    else do
      validateBranches lines name
      .ok ⟨counts, found, hit⟩
  | _, _ => invalid s!"Invalid executable summary: {name}"

/-- The sources that the lines of a record name. -/
def namesOf (part : List Char) : List String :=
  (splitlines part).filterMap fun line => (stripPrefix "SF:" line).map String.ofList

def addRecord (result : Records) (part : List Char) : Outcome Records :=
  match namesOf part with
  | [name] =>
    if name = "" ∨ name ∈ result.map Prod.fst then invalid "A coverage record must identify one unique source."
    else do
      let record ← readRecord name (splitlines part)
      .ok (result ++ [(name, record)])
  | _ => invalid "A coverage record must identify one unique source."

def incomplete : String := "The combined report is empty or incomplete."

def records (report : List Char) : Outcome Records :=
  let parts := splitText endOfRecord report
  if parts.length < 2 ∨ strip (parts.getLast?.getD []) ≠ [] then invalid incomplete
  else parts.dropLast.foldlM addRecord []

/-- The text kept so far, with a record whose source is not excluded. -/
def retain (excluded : List String) (retained part : List Char) : Outcome (List Char) :=
  match namesOf part with
  | [] => .error .stopIteration
  | name :: _ => if name ∉ excluded then .ok (retained ++ part ++ endOfRecord) else .ok retained

def filterScope (report : List Char) (excluded : List String) : Outcome (List Char) := do
  let _ ← records report
  let parts := splitText endOfRecord report
  let retained ← parts.dropLast.foldlM (retain excluded) []
  .ok (retained ++ parts.getLast?.getD [])

end Parsing

/-- The collector that a source belongs to. -/
def Source.family (source : Source) : String :=
  if source.language = "browser" then "javascript" else source.language

def Limit.isComplete (limit : Limit) : Bool :=
  (limit.missingGuarantee.getD "" ≠ "") && (limit.evidence.any fun evidence => !evidence.isEmpty) &&
    (limit.rule.getD "" ≠ "" || limit.rules.getD [] ≠ [] || !(limit.owners.getD []).isEmpty)

/-- The limits of a source in a receipt. -/
def sourceLimits (receipt : CollectorReceipt) (name : String) : Outcome (List Limit) := do
  let stated := receipt.limits.getD []
  if stated.any (·.source.isNone) then .error (.key "source")
  else
    let limits := stated.filter fun limit => limit.source = some name
    if limits.all Limit.isComplete then .ok limits else invalid s!"Incomplete source limit: {name}"

/-- What a source is reported as that has some lines to expect, or none. -/
def reconcileRecord (observed : Records) (name family : String) (limits : List Limit) (expected : List Int)
    (required : Bool) : Outcome SourceResult :=
  let recordLimits := limits.filter fun limit => limit.recordAbsence = some true
  if required = false ∧ recordLimits.isEmpty then invalid s!"Missing configured source evidence: {name}"
  else match observed.lookup name with
    | none =>
      if required = true ∨ recordLimits.isEmpty then invalid s!"Unexplained missing source record: {name}"
      else .ok { source := name, status := .collectorLimit, limits := some recordLimits }
    | some record =>
      let hits := knownHits record.lines
      let unidentified := record.found - record.lines.length
      if ¬ (hits ≤ record.hit ∧ record.hit ≤ hits + unidentified) then
        invalid s!"The executable summary contradicts known hits: {name}"
      else if (record.found ≠ record.lines.length ∨ record.hit ≠ hits) ∧
          ¬ (family = "rust" ∧ limits.any (fun limit => limit.lineSummary = some true) = true) then
        invalid s!"Unexplained executable summary gap: {name}"
      else if ∃ number ∈ expected, number ∉ record.lines.map Prod.fst then
        invalid s!"Missing required executable lines: {name}"
      else
        .ok
          { source := name
            status :=
              if record.lines ≠ [] then
                if hits ≠ 0 then .measured else if record.hit ≠ 0 then .collectorLimit else .zeroHit
              else if limits.isEmpty then .noExecutableLines
              else .collectorLimit
            executableLines := some record.lines.length
            hitLines := some hits
            limits := some limits }

/-- What a source is reported as. The lines of a Python source come from an analysis of its text. -/
def reconcileSource (analysis2 : String → Outcome (List Int)) (inventory : Inventory) (observed : Records)
    (receipts : List (String × CollectorReceipt)) (source : Source) : Outcome SourceResult :=
  let name := source.path
  let family := source.family
  let receipt := (receipts.lookup family).getD {}
  let stated := receipt.sources.getD []
  if inventory.missingOwners ≠ [] ∨ source.owners.isEmpty then invalid s!"Eligible source has no Bazel owner: {name}"
  else if family ≠ "python" ∧ (receipts.lookup family).isNone then invalid s!"Missing required {family} receipt: {name}"
  else do
    let limits ← sourceLimits receipt name
    let expected ← lineSet ((stated.lookup name).getD (.list []))
    if family = "python" then
      if name ∉ inventory.baselineSources.getD [] then invalid s!"Missing Python instrumentation root: {name}"
      else do
        let expected ← analysis2 name
        if expected = [] then
          if (observed.lookup name).any (fun record => record.lines ≠ []) then
            invalid s!"Unexpected Python executable lines: {name}"
          else
            .ok
              { source := name
                status := .noExecutableLines
                evidence := some "coverage.Coverage.analysis2"
                executableLines := some 0
                hitLines := some 0 }
        else
          reconcileRecord observed name family limits expected true
    else
      reconcileRecord observed name family limits expected (stated.lookup name).isSome

def reconcile [DecimalDigits] (analysis2 : String → Outcome (List Int)) (inventory : Inventory) (report : List Char)
    (receipts : List (String × CollectorReceipt)) : Outcome Reconciliation := do
  let observed ← records report
  let excluded ← inventory.excluded.mapM fun entry => okOr (entry.lookup "path") (.key "path")
  let remaining := (observed.map Prod.fst).filter fun name => name ∈ excluded
  if remaining ≠ [] then
    let names := ", ".intercalate ((sorted remaining).map fun name => s!"'{name}'")
    invalid s!"Excluded sources remain in coverage: [{names}]"
  else do
    let sources ← inventory.eligible.mapM (reconcileSource analysis2 inventory observed receipts)
    .ok ⟨1, sources, inventory.excluded⟩

end Reconcile

end Coverage

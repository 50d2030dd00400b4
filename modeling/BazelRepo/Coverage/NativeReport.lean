import BazelRepo.Coverage.Lcov

namespace Coverage

open Library

inductive Language where
  | rust
  | go
  deriving DecidableEq

namespace Language

def name : Language → String
  | .rust => "rust"
  | .go => "go"

def family : Language → String
  | .rust => "Rust"
  | .go => "Go"

def extension : Language → String
  | .rust => ".rs"
  | .go => ".go"

end Language

/-- What follows the last dot of the last component of a path, unless that component starts with its only dot. -/
def pathExtension (path : String) : Option String :=
  let parts := (path.toList.splitOn '/').filter fun part => decide (part ≠ [] ∧ part ≠ ['.'])
  match parts.getLast? with
  | none => none
  | some part =>
    if part = ['.', '.'] then none
    else match splitAtFirst (· = '.') part.reverse with
      | none => none
      | some (ending, start) => if start = [] then none else some (String.ofList ending.reverse)

namespace NativeReport

def endsWith (text ending : String) : Bool := decide (ending.toList <:+ text.toList)

structure Source where
  path : String
  language : String
  owners : List String

/-- The inventory, with the labels of the owners and the paths of what is excluded. -/
structure Inventory where
  coverageRoots : List String
  excluded : List String
  eligible : List Source

structure RustObject where
  object : String
  noMapping : Bool
  diagnostic : String
  generatedSources : List String
  children : List (String × String × String)
  llvmCov : String
  llvmProfdata : String

structure Receipt where
  limits : List Json
  sources : BTreeMap String (Finset Natural)
  roots : Finset String

/-- The decoders of the documents that are read and the text of the one that is written. -/
class Documents where
  inventory : String → Option Inventory
  rustObject : String → Option RustObject
  receipt : Receipt → String

def RustObject.read [Documents] (disk : Disk) (path : String) : Result RustObject := do
  let text ← disk.readText path
  let wrong : ReportError := .invalid s!"Invalid Rust object evidence: {path}"
  let data ← okOr (Documents.rustObject text) wrong
  if data.object = "" ∨ data.llvmCov = "" ∨ data.llvmProfdata = "" ∨
      (∃ child ∈ data.children, child.1 = "" ∨ child.2.1 = "" ∨ child.2.2 = "") ∨
      (data.noMapping = true ∧ ¬ "no coverage data found".toList <:+: data.diagnostic.toList) then
    .error wrong
  else
    .ok data

structure Baselines where
  expected : BTreeMap String (Finset Natural)
  excluded : Finset String
  limits : List Json
  roots : Finset String

/-- The limit of a child object, whose execution its profile alone does not prove. -/
def childLimit (label path : String) (child : String × String × String) : Json :=
  .object [("source", .string child.1), ("rule", .string child.2.1), ("object", .string child.2.2),
    ("collection_rule", .string label),
    ("missing_guarantee", .string "LLVM profiles cannot distinguish an unexecuted child from a child whose complete profile disappeared."),
    ("evidence", .string path),
    ("diagnostic", .string "The declared child object does not prove execution. Available profile IDs establish only observed executions.")]

def summaryLimit (name label object path : String) : Json :=
  .object [("source", .string name), ("rule", .string label), ("object", .string object), ("line_summary", .bool true),
    ("missing_guarantee", .string "LLVM LCOV does not identify every summarized executable line with a DA record."),
    ("evidence", .string path), ("diagnostic", .string "The LLVM LF summary exceeds its exported DA records.")]

/-- The limit of a declaration without a record in any artifact of its rule. -/
def absenceLimit (label : String) (paths : List String) (metadata : Option (String × RustObject)) (source : String) : Json :=
  match metadata with
  | some (path, data) =>
    .object [("source", .string source), ("rule", .string label), ("object", .string data.object), ("record_absence", .bool true),
      ("missing_guarantee", .string "LLVM emitted no source mapping in this configured object."), ("evidence", .string path),
      ("diagnostic", .string data.diagnostic)]
  | none =>
    .object [("source", .string source), ("rule", .string label), ("record_absence", .bool true),
      ("evidence", .array (paths.map .string)),
      ("missing_guarantee", .string "The configured Go source selection omits this declaration. The native builder emits no baseline record for this configuration.")]

namespace Baselines

def rustMetadata [Documents] (baseline : Baselines) (disk : Disk) (label : String) (paths : List String) :
    Result (Baselines × List String × String × RustObject) :=
  match paths.filter fun path => decide (pathExtension path = some "json") with
  | [path] => do
    let data ← RustObject.read disk path
    let artifacts := paths.filter fun path => decide (pathExtension path = some "lcov")
    if artifacts.length ≠ 1 then invalid s!"Missing Rust baseline artifact: {label}"
    else
      .ok ({ baseline with
        excluded := baseline.excluded ∪ data.generatedSources.toFinset,
        limits := baseline.limits ++ data.children.map (childLimit label path) }, artifacts, path, data)
  | _ => invalid s!"Missing Rust object evidence: {label}"

def summaryLimits (metadata : Option (String × RustObject)) (name label path : String) (lines : List (List Char))
    (numbers : Finset Natural) : Result (List Json) :=
  match metadata with
  | none => .ok []
  | some (_, data) => do
    let found ← okOr (lines.findSome? (stripPrefix "LF:")) (.invalid "Missing LF record.")
    let found ← Natural.parse (String.ofList found)
    .ok (if compare found (Natural.count numbers.card) = .gt then [summaryLimit name label data.object path] else [])

/-- Lines that every report must have of a source, added to those before them. -/
def require (baseline : Baselines) (name : String) (numbers : Finset Natural) : Baselines :=
  { baseline with expected := baseline.expected.insert name ((baseline.expected[name]?).getD ∅ ∪ numbers) }

/-- What a record of an artifact adds, with the sources that were mapped before it. -/
def readRecord (language : Language) (path label : String) (metadata : Option (String × RustObject))
    (state : Baselines × Finset String) (record : List Char) : Result (Baselines × Finset String) :=
  let (baseline, mapped) := state
  match sourcesOf record with
  | [name] =>
    if endsWith name language.extension = false then
      invalid s!"Invalid {language.family} baseline source: {path}"
    else
      let mapped := insert name mapped
      if metadata.isSome = true ∧ name ∈ baseline.excluded then .ok (baseline, mapped)
      else do
        let numbers ← lcovLines (lines record) name language.family (decide (language ≠ .rust))
        let limits ← summaryLimits metadata name label path (lines record) numbers
        let baseline := { baseline with limits := baseline.limits ++ limits }
        .ok (if name ∈ baseline.excluded then baseline else baseline.require name numbers, mapped)
  | _ => invalid s!"Invalid {language.family} baseline source: {path}"

/-- The records of a text and what follows the last one, which must be blank. -/
def recordsOf (text : List Char) (error : ReportError) : Result (List (List Char) × List Char) :=
  let pieces := splitText endOfRecord text
  match pieces.getLast? with
  | some trailer =>
    if pieces.length < 2 ∨ (trim (String.ofList trailer)) ≠ "" then .error error else .ok (pieces.dropLast, trailer)
  | none => .error error

def readArtifact (disk : Disk) (language : Language) (label : String) (metadata : Option (String × RustObject))
    (state : Baselines × Finset String) (path : String) : Result (Baselines × Finset String) := do
  let text ← disk.readText path
  let unmapped := metadata.map fun metadata => metadata.2.noMapping
  if trim text = "" then
    if unmapped = some false then invalid s!"Empty required Rust baseline: {label}" else .ok state
  else if unmapped = some true then invalid s!"Conflicting Rust mapping evidence: {label}"
  else do
    let (records, _) ← recordsOf text.toList (.invalid s!"Incomplete {language.family} baseline artifact: {path}")
    records.foldlM (readRecord language path label metadata) state

def declarations (inventory : Inventory) (language : Language) (label : String) : Finset String :=
  ((inventory.eligible.filter fun source =>
    decide (source.language = language.name ∧ label ∈ source.owners)).map Source.path).toFinset

/-- The evidence of an object and the artifacts beside it, where the language has such evidence. -/
def evidence [Documents] (baseline : Baselines) (disk : Disk) (language : Language) (artifacts : BaselineArtifacts) :
    Result (Baselines × List String × Option (String × RustObject)) :=
  match language with
  | .rust => do
    let (baseline, paths, path, data) ← baseline.rustMetadata disk artifacts.identity.label artifacts.paths
    .ok (baseline, paths, some (path, data))
  | .go => .ok (baseline, artifacts.paths, none)

def readArtifacts [Documents] (disk : Disk) (inventory : Inventory) (language : Language) (baseline : Baselines)
    (artifacts : BaselineArtifacts) : Result Baselines := do
  let label := artifacts.identity.label
  let (baseline, paths, metadata) ← baseline.evidence disk language artifacts
  let (baseline, mapped) ← paths.foldlM (readArtifact disk language label metadata) (baseline, ∅)
  let absent := (declarations inventory language label \ mapped).sort (· ≤ ·)
  .ok { baseline with limits := baseline.limits ++ absent.map (absenceLimit label paths metadata) }

def initial (inventory : Inventory) (language : Language) : Baselines where
  expected := ∅
  excluded := (inventory.excluded.filter fun path => endsWith path language.extension).toFinset
  limits := []
  roots := (inventory.coverageRoots.filter fun label => endsWith label s!".{language.name}_coverage").toFinset

def selected [Formats] [Evidence] (disk : Disk) (inventory : Inventory) (events root : String) (language : Language) :
    Result (List BaselineArtifacts) := do
  let build ← BuildEvents.parse (← disk.readText events)
  build.baselines disk s!"{language.name}_coverage_baselines" root language.family .workspaceIntegrity
    (initial inventory language).roots

def settle (language : Language) (baseline : Baselines) : Baselines :=
  match language with
  | .rust => { baseline with
      expected := baseline.expected.filter fun name _ => decide (name ∉ baseline.excluded),
      limits := baseline.limits.filter fun limit => decide (((limit.field "source").asStr.getD "") ∉ baseline.excluded) }
  | .go => baseline

def read [Documents] [Formats] [Evidence] (disk : Disk) (inventory : Inventory) (events root : String) (language : Language) :
    Result Baselines := do
  let artifacts ← selected disk inventory events root language
  let baseline ← artifacts.foldlM (readArtifacts disk inventory language) (initial inventory language)
  .ok (settle language baseline)

end Baselines

/-- The text of the records that are kept and the lines of the sources among them. -/
structure Filtered where
  retained : List Char := []
  observed : BTreeMap String (Finset Natural) := ∅

def filterRecord (language : Language) (excluded : Finset String) (state : Filtered) (record : List Char) : Result Filtered :=
  match sourcesOf record with
  | [name] =>
    if name ∈ excluded then .ok state
    else do
      let observed ← (if endsWith name language.extension = true then
          if state.observed[name]?.isSome = true then invalid s!"Duplicate {language.family} coverage source: {name}"
          else do
            let numbers ← lcovLines (lines record) name language.family true
            .ok (state.observed.insert name numbers)
        else .ok state.observed : Result (BTreeMap String (Finset Natural)))
      .ok ⟨state.retained ++ record ++ endOfRecord, observed⟩
  | _ => invalid "A coverage record must identify one source."

/-- The report without what is excluded, where it has all that is expected. -/
def filterReport (language : Language) (baseline : Baselines) (original : List Char) : Result (List Char) := do
  let (records, trailer) ← Baselines.recordsOf original (.invalid "The combined report is empty or incomplete.")
  let filtered ← records.foldlM (filterRecord language baseline.excluded) {}
  baseline.expected.toList.forM fun (name, numbers) =>
    if (filtered.observed[name]?).any (fun lines => decide (numbers ⊆ lines)) = true then .ok ()
    else invalid s!"Missing {language.family} baseline source or lines: {name}"
  .ok (filtered.retained ++ trailer)

structure Arguments where
  language : Language
  events : String
  inventory : String
  report : String
  expectedOutput : Option String

structure Workspace where
  directory : Option String
  current : Result String

def Workspace.root (workspace : Workspace) : Result String := do
  let current ← workspace.current
  .ok (workspace.directory.getD current)

def encode (text : String) : List UInt8 := text.toUTF8.data.toList

abbrev Faults := String → Option (Option (List UInt8))

def Disk.write (faults : Faults) (disk : Disk) (path text : String) : Result Unit × Disk :=
  match faults path with
  | none => (.ok (), Function.update disk path (some (encode text)))
  | some left => (.error (.io path), Function.update disk path left)

structure Publication where
  receipt : Option (String × String)
  report : String × String

/-- The directory of the workspace and what the reports of a language must have. -/
def readInputs [Documents] [Formats] [Evidence] (workspace : Workspace) (arguments : Arguments) (disk : Disk) :
    Result (String × Baselines) := do
  let root ← workspace.root
  let inventory ← okOr (Documents.inventory (← disk.readText (push root arguments.inventory))) .json
  let baseline ← Baselines.read disk inventory (push root arguments.events) root arguments.language
  .ok (root, baseline)

def prepare [Documents] [Formats] [Evidence] (workspace : Workspace) (arguments : Arguments) (disk : Disk) :
    Result Publication := do
  let (root, baseline) ← readInputs workspace arguments disk
  let report := push root arguments.report
  let original ← disk.readText report
  let retained ← filterReport arguments.language baseline original.toList
  let receipt := Documents.receipt ⟨baseline.limits, baseline.expected, baseline.roots⟩ ++ "\n"
  .ok ⟨arguments.expectedOutput.map fun path => (push root path, receipt), (report, String.ofList retained)⟩

def Publication.write (faults : Faults) (publication : Publication) (disk : Disk) : Result Unit × Disk :=
  match publication.receipt with
  | none => Disk.write faults disk publication.report.1 publication.report.2
  | some (path, text) =>
    match Disk.write faults disk path text with
    | (.error error, disk) => (.error error, disk)
    | (.ok (), disk) => Disk.write faults disk publication.report.1 publication.report.2

def run [Documents] [Formats] [Evidence] (faults : Faults) (workspace : Workspace) (arguments : Arguments) (disk : Disk) :
    Result Unit × Disk :=
  match prepare workspace arguments disk with
  | .error error => (.error error, disk)
  | .ok publication => publication.write faults disk

end NativeReport

end Coverage

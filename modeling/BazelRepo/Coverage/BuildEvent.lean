import BazelRepo.Library.Checked
import BazelRepo.Library.Json
import BazelRepo.Library.Text
import BazelRepo.Library.TreeMap
import BazelRepo.Library.Walks
import Mathlib.Data.Finset.Sort
import Mathlib.Data.String.Basic

namespace Coverage

open Library

inductive ReportError where
  | invalid (message : String)
  | io (message : String)
  | json
  deriving DecidableEq

abbrev Result (α : Type) := Except ReportError α

def invalid {α : Type} (message : String) : Result α := .error (.invalid message)

abbrev Disk := String → Option (List UInt8)

/-- What other packages compute: the digest of a file as lowercase digits, the text of a percent-encoded path, and the double
nearest to a number, of which only its whole part and whether it is zero are asked for. -/
class Evidence where
  sha256 : List UInt8 → String
  percentDecode : String → String
  wholePart : Number → Option Int
  isZero : Number → Bool

def Disk.read (disk : Disk) (path : String) : Result (List UInt8) :=
  okOr (disk path) (.io path)

def utf8 (bytes : List UInt8) : Option String := String.fromUTF8? ⟨bytes.toArray⟩

def Disk.readToString (disk : Disk) (path : String) : Result String := do
  let bytes ← disk.read path
  okOr (utf8 bytes) (.io path)

def newlines : List Char → List Char
  | '\r' :: '\n' :: rest => '\n' :: newlines rest
  | '\r' :: rest => '\n' :: newlines rest
  | c :: rest => c :: newlines rest
  | [] => []

def Disk.readText (disk : Disk) (path : String) : Result String :=
  (disk.readToString path).map fun text => String.ofList (newlines text.toList)

structure TargetIdentity where
  label : String
  configuration : Option Json
  aspect : Option Json

structure BaselineArtifacts where
  identity : TargetIdentity
  paths : List String

inductive ArtifactPolicy where
  | workspaceIntegrity
  | workspaceUnchecked
  | jvmLocal
  | javascriptLocal
  deriving DecidableEq

structure BuildEvents where
  events : List Json
  namedSets : BTreeMap String Json

def string (value : Json) : Result String :=
  okOr value.asStr (.invalid "Expected a string.")

def optionalArray (value : Json) (name : String) : Result (List Json) :=
  match value.member name with
  | none => .ok []
  | some (.array values) => .ok values
  | some _ => invalid s!"Invalid array: {name}"

def truthy [Evidence] : Json → Bool
  | .null => false
  | .bool value => value
  | .string value => value ≠ ""
  | .array values => values ≠ []
  | .object fields => fields ≠ []
  | .number value => !Evidence.isZero value

/-- A path with another at its end, or that one alone where it starts at the root. -/
def push (path component : String) : String :=
  if component.toList.head? = some '/' ∨ path = "" then component
  else if path.toList.getLast? = some '/' then path ++ component
  else path ++ "/" ++ component

def lexicalPath (path : String) : String :=
  let parts := (path.splitOn "/").filter fun part => part ≠ "" ∧ part ≠ "."
  let relative := "/".intercalate parts
  match path.toList with
  | '/' :: '/' :: '/' :: _ => "/" ++ relative
  | '/' :: '/' :: _ => "//" ++ relative
  | '/' :: _ => "/" ++ relative
  | _ => if parts = [] then "." else relative

/-- Whether an integer is spelled, with an underscore only between two digits. -/
def separated : List Char → Bool
  | [] => true
  | '_' :: _ => false
  | [_] => true
  | c :: '_' :: d :: rest => isAsciiDigit c && isAsciiDigit d && separated (d :: rest)
  | _ :: c :: rest => separated (c :: rest)

def parseInteger (text : List Char) : Option Int :=
  match text with
  | '-' :: digits => (parseDigits digits).map fun value => -value
  | '+' :: digits => parseDigits digits
  | digits => parseDigits digits
where
  parseDigits (digits : List Char) : Option Int :=
    if digits ≠ [] ∧ digits.all isAsciiDigit = true then
      some (digits.foldl (fun value digit => value * 10 + (digit.toNat - 0x30 : Nat)) 0)
    else
      none

/-- Whether a length in a file entry is the actual one. It may be missing, a flag, a number or a text. -/
def matchesLength [Evidence] (value : Option Json) (actual : Nat) : Bool :=
  match value with
  | none => actual = 0
  | some (.bool value) => actual = value.toNat
  | some (.number value) =>
    match (Json.number value).asU64 with
    | some number => number = actual
    | none => Evidence.wholePart value = some (actual : Int)
  | some (.string text) =>
    let text := (trim text).toList
    separated text && decide (parseInteger (text.filter (· ≠ '_')) = some (actual : Int))
  | some _ => false

def before (stops : Char → Bool) (text : List Char) : List Char := text.takeWhile fun c => !stops c

def schemeOf (uri : String) : String × List Char :=
  match splitAtFirst (· = ':') uri.toList with
  | some (scheme, location) => ((String.ofList scheme).map Char.toLower, location)
  | none => ("", uri.toList)

def localArtifact [Evidence] (file : Json) (root family : String) : Result String :=
  let uri := (file.field "uri").asStr.getD ""
  if uri ≠ "" then
    let (scheme, location) := schemeOf uri
    if scheme ≠ "file" then
      invalid s!"Required {family} output is not available locally: {uri}"
    else
      let location := before (fun c => c = '?' ∨ c = '#') location
      let path := match location with
        | '/' :: '/' :: authority => authority.dropWhile (· ≠ '/')
        | _ => location
      .ok (lexicalPath (Evidence.percentDecode (String.ofList path)))
  else do
    let prefixes ← (← optionalArray file "pathPrefix").mapM string
    let name ← string (file.field "name")
    .ok (lexicalPath (push (prefixes.foldl push root) name))

def javascriptArtifact [Evidence] (file : Json) : Result String := do
  let uri ← string (file.field "uri")
  let (scheme, location) := schemeOf uri
  if scheme ≠ "file" then
    invalid "Required JavaScript artifact is not a local file URI."
  else
    let location := before (fun c => c = '?' ∨ c = '#') location
    let path ← (match location with
      | '/' :: '/' :: [] => .ok []
      | '/' :: '/' :: '/' :: authority => .ok ('/' :: authority)
      | '/' :: '/' :: _ => invalid "Required JavaScript artifact is not a local file URI."
      | _ => .ok location : Result (List Char))
    .ok (lexicalPath (Evidence.percentDecode (String.ofList path)))

def located [Evidence] (root family : String) (policy : ArtifactPolicy) (file : Json) : Result String :=
  if policy = .javascriptLocal ∧ (file.member "uri").isSome = true then
    javascriptArtifact file
  else if policy = .jvmLocal then
    localArtifact file root family
  else do
    let prefixes ← (← optionalArray file "pathPrefix").mapM string
    let name ← string (file.field "name")
    .ok (push (prefixes.foldl push root) name)

def checkIntegrity [Evidence] (disk : Disk) (family path : String) (file : Json) : Result Unit := do
  let bytes ← disk.read path
  if (file.field "digest").asStr ≠ some (Evidence.sha256 bytes) ∨
      matchesLength (file.member "length") bytes.length = false then
    invalid s!"Invalid {family} baseline artifact integrity: {path}"
  else
    .ok ()

def artifact [Evidence] (disk : Disk) (root family : String) (policy : ArtifactPolicy) (file : Json) : Result String := do
  let path ← located root family policy file
  if policy = .workspaceIntegrity then
    checkIntegrity disk family path file
  .ok path

def cycleError (family : String) (policy : ArtifactPolicy) : ReportError :=
  if policy = .javascriptLocal then
    .invalid "JavaScript artifact sets contain a cycle."
  else
    .invalid s!"A {family} baseline artifact set contains a cycle."

/-- What is left after a visit of some sets: the sets in whose midst it took place, as they were, and the paths so far. -/
structure Visit (active : Finset String) where
  active' : Finset String
  paths : List String
  restored : active' = active

namespace BuildEvents

def parse [Formats] (text : String) : Result BuildEvents := do
  let events ← (lines text.toList).mapM fun line => okOr (Formats.json (String.ofList line)) .json
  let namedSets ← events.foldlM (fun namedSets event =>
    match event.member "namedSetOfFiles" with
    | none => .ok namedSets
    | some entry => do
      let id ← string (((event.field "id").field "namedSet").field "id")
      .ok (namedSets.insert id entry)) (∅ : BTreeMap String Json)
  .ok ⟨events, namedSets⟩

def ids (build : BuildEvents) : Finset String := (build.namedSets.toList.map Prod.fst).toFinset

theorem mem_ids {build : BuildEvents} {id : String} {entry : Json} (found : build.namedSets[id]? = some entry) :
    id ∈ build.ids :=
  List.mem_toFinset.mpr (List.mem_map.mpr ⟨(id, entry), BTreeMap.mem_toList.mpr found, rfl⟩)

section Files

variable [Evidence] (build : BuildEvents) (disk : Disk) (root family : String) (policy : ArtifactPolicy)

mutual

def files (id : String) (active : Finset String) (paths : List String) : Result (Visit active) :=
  if entered : id ∈ active then
    .error (cycleError family policy)
  else
    match found : build.namedSets[id]? with
    | none => invalid s!"'{id}'"
    | some entry => do
      let own ← (← optionalArray entry "files").mapM (artifact disk root family policy)
      let sets ← optionalArray entry "fileSets"
      let visit ← children sets (insert id active) (paths ++ own)
      .ok ⟨visit.active'.erase id, visit.paths, by rw [visit.restored, Finset.erase_insert entered]⟩
termination_by ((build.ids \ active).card, 0)
decreasing_by exact .left _ _ (card_sdiff_insert_lt (mem_ids found) entered)

def children (sets : List Json) (active : Finset String) (paths : List String) : Result (Visit active) :=
  match sets with
  | [] => .ok ⟨active, paths, rfl⟩
  | child :: rest => do
    let id ← string (child.field "id")
    let visit ← files id active paths
    let others ← children rest visit.active' visit.paths
    .ok ⟨others.active', others.paths, others.restored.trans visit.restored⟩
termination_by ((build.ids \ active).card, sets.length + 1)
decreasing_by
  · exact .right _ (Nat.succ_pos _)
  · rw [visit.restored]
    exact .right _ (Nat.lt_succ_self _)

end

end Files

section Baselines

variable [Evidence] (build : BuildEvents) (disk : Disk) (groupName root family : String) (policy : ArtifactPolicy)

def referenced (references : List Json) (paths : List String) : Result (List String) :=
  references.foldlM (fun paths reference => do
    let id ← string (reference.field "id")
    let visit ← build.files disk root family policy id ∅ paths
    .ok visit.paths) paths

def groupFiles (label : String) (paths : List String) (group : Json) : Result (List String) := do
  let name ← string (group.field "name")
  if name ≠ groupName then .ok paths
  else if truthy (group.field "incomplete") = true ∧ policy ≠ .jvmLocal then
    invalid s!"Incomplete {family} baseline output group: {label}"
  else
    build.referenced disk root family policy (← optionalArray group "fileSets") paths

def eventBaseline (roots : Finset String) (event : Json) : Result (Option BaselineArtifacts) :=
  let target := (event.field "id").field "targetCompleted"
  match (target.field "label").asStr.filter fun label => decide (label ∈ roots) with
  | none => .ok none
  | some label =>
    if truthy (target.field "aspect") = true then .ok none
    else
      let completed := event.field "completed"
      if truthy (completed.field "success") = false then
        invalid (if policy = .jvmLocal then s!"Required JVM root failed: {label}"
          else s!"{family} baseline root failed: {label}")
      else do
        let paths ← (← optionalArray completed "outputGroup").foldlM
          (build.groupFiles disk groupName root family policy label) []
        if paths = [] then
          invalid (if policy = .jvmLocal then s!"Missing required JVM baseline artifacts: {label}"
            else s!"Missing {family} baseline artifact: {label}")
        else
          .ok (some ⟨⟨label, target.member "configuration", target.member "aspect"⟩, paths⟩)

/-- The artifacts of all configurations of the roots, in the order of their events. -/
def baselines (roots : Finset String) : Result (List BaselineArtifacts) := do
  let selected ← build.events.mapM (build.eventBaseline disk groupName root family policy roots)
  let selected := selected.filterMap id
  let missing := (roots \ (selected.map fun artifacts => artifacts.identity.label).toFinset).sort (· ≤ ·)
  if missing ≠ [] then
    let labels := ", ".intercalate (missing.map fun label => s!"'{label}'")
    invalid (if policy = .jvmLocal then s!"Missing required JVM roots: [{labels}]"
      else s!"Missing {family} baseline roots: [{labels}]")
  else
    .ok selected

end Baselines

end BuildEvents

end Coverage

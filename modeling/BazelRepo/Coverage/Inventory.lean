import BazelRepo.Library.Checked
import BazelRepo.Library.Ranking
import BazelRepo.Library.Text
import BazelRepo.Library.Walks
import Mathlib.Data.Finset.Sort
import Mathlib.Data.String.Basic

namespace Coverage

open Library Relation

/-- A rule of a query result. Attributes have several labels or one, and that one may be left open. -/
structure QueryRule where
  name : String
  ruleClass : String
  tags : List String := []
  testonly : Option String := none
  inputs : List String := []
  lists : List (String × List String) := []
  labels : List (String × Option String) := []

structure QueryGraph where
  rules : List QueryRule
  sourceFiles : List String

/-- What the commands of a workspace answer: the names of its files, each ended by a null, the targets of some packages, and
the coverage scope of some files. -/
structure Workspace where
  bazelignore : Option String
  lsFiles : String
  isFile : String → Bool
  query : List String → QueryGraph
  checkAttr : List String → String

structure SourceOwner where
  label : String
  kind : String
  tags : List String
  testonly : Bool
  deriving DecidableEq

structure CoverageSource where
  path : String
  language : String
  owners : List SourceOwner
  deriving DecidableEq

structure ScopeExclusion where
  path : String
  reason : String
  deriving DecidableEq

structure CoverageInventory where
  schemaVersion : Nat
  eligible : List CoverageSource
  excluded : List ScopeExclusion
  missingOwners : List String
  coverageRoots : List String
  baselineSources : List String
  jvmTests : List String
  javascriptTests : List String
  jvmSourceDeclarations : List (String × List String)
  deriving DecidableEq

def languages : List (String × String) :=
  [(".py", "python"), (".go", "go"), (".rs", "rust"), (".java", "jvm"), (".kt", "jvm"), (".kts", "jvm"),
    (".js", "javascript"), (".mjs", "javascript"), (".cjs", "javascript"), (".jsx", "javascript"), (".ts", "javascript"),
    (".mts", "javascript"), (".cts", "javascript"), (".tsx", "javascript"), (".astro", "browser")]

def fileName (path : List Char) : List Char := (path.reverse.takeWhile (· ≠ '/')).reverse

/-- The name of a file from its last dot on, where that is not one of the dots at its start. -/
def suffix (path : String) : String :=
  let name := (fileName path.toList).dropWhile (· = '.')
  if '.' ∈ name then String.ofList ('.' :: (name.reverse.takeWhile (· ≠ '.')).reverse) else ""

def sourcePath (label : String) : Option String :=
  match label.toList with
  | '/' :: '/' :: rest =>
    match splitAtFirst (· = ':') rest with
    | some ([], name) => some (String.ofList name)
    | some (package, name) => some (String.ofList (package ++ '/' :: name))
    | none => none
  | _ => none

def sorted (names : List String) : List String := sortByKey (fun name => name) names.dedup

theorem mem_sorted {name : String} {names : List String} : name ∈ sorted names ↔ name ∈ names := by
  unfold sorted
  rw [mem_sortByKey, List.mem_dedup]

def splitNulls (text : String) : List String :=
  (text.toList.splitOn '\x00').map String.ofList

def isSpace (c : Char) : Bool := isWhiteSpace c || (0x1C ≤ c.toNat && c.toNat ≤ 0x1F)

/-- What ends a line there: more than a newline. -/
def isLineEnd (c : Char) : Bool :=
  c = '\n' || c = '\r' || c = '\x0B' || c = '\x0C' || (0x1C ≤ c.toNat && c.toNat ≤ 0x1E) || c.toNat = 0x85 ||
    c.toNat = 0x2028 || c.toNat = 0x2029

def stripEnds (blank : Char → Bool) (text : List Char) : List Char :=
  ((text.dropWhile blank).reverse.dropWhile blank).reverse

def stripEnd (blank : Char → Bool) (text : List Char) : List Char :=
  (text.reverse.dropWhile blank).reverse

namespace Workspace

variable (workspace : Workspace)

/-- The lines of the ignore file, without comments. An empty one ignores nothing, so where lines are cut at an end of two
characters does not matter. -/
def ignored : List String :=
  match workspace.bazelignore with
  | none => []
  | some text => (text.toList.splitOnP isLineEnd).map fun line =>
      String.ofList (stripEnd (· = '/') (stripEnds isSpace (line.takeWhile (· ≠ '#'))))

def isIgnored (name : String) : Bool :=
  workspace.ignored.any fun line =>
    line ≠ "" && (name = line || (line ++ "/").toList.isPrefixOf name.toList)

def files : List String :=
  (sorted ((splitNulls workspace.lsFiles).filter (· ≠ ""))).filter fun name =>
    workspace.isFile name && !workspace.isIgnored name

def packages : List String :=
  sorted ((workspace.files.filter fun name =>
      fileName name.toList = "BUILD".toList ∨ fileName name.toList = "BUILD.bazel".toList).map fun name =>
    String.ofList (stripEnd (· = '/') (name.toList.take (name.toList.length - (fileName name.toList).length))))

def graph : QueryGraph := workspace.query workspace.packages

def pairs : List String → List (String × String)
  | name :: _ :: scope :: rest => (name, scope) :: pairs rest
  | _ => []

/-- The scopes of the files; the last that is named is the one that counts. -/
def scopes : List (String × String) :=
  pairs (((stripEnd (· = '\x00') (workspace.checkAttr workspace.files).toList).splitOn '\x00').map String.ofList)

def scope (name : String) : Option String := workspace.scopes.reverse.lookup name

end Workspace

def declaringAttributes : List String := ["srcs", "main", "src", "actual", "embed", "target", "crate"]

def QueryRule.references (rule : QueryRule) : List String :=
  declaringAttributes.flatMap fun name =>
    ((rule.lists.filter fun list => list.1 = name).flatMap fun list => list.2) ++ ((rule.labels.lookup name).join).toList

def QueryRule.maintained (rule : QueryRule) : Bool := "//".toList.isPrefixOf rule.name.toList

def QueryRule.owner (rule : QueryRule) : SourceOwner :=
  ⟨rule.name, rule.ruleClass, rule.tags, rule.testonly = some "true"⟩

def QueryGraph.element (graph : QueryGraph) (label : String) : Option QueryRule :=
  graph.rules.reverse.find? fun rule => rule.name = label

def QueryGraph.labels (graph : QueryGraph) : Finset String := (graph.rules.map QueryRule.name).toFinset

theorem QueryGraph.mem_labels {graph : QueryGraph} {label : String} {rule : QueryRule}
    (found : graph.element label = some rule) : label ∈ graph.labels := by
  unfold QueryGraph.element at found
  have member := List.mem_reverse.mp (List.mem_of_find?_eq_some found)
  have same : rule.name = label := by simpa using List.find?_some found
  rw [← same]
  exact List.mem_toFinset.mpr (List.mem_map_of_mem member)

def tracked (files : List String) (graph : QueryGraph) (label : String) : Option String :=
  (sourcePath label).filter fun path => label ∈ graph.sourceFiles ∧ path ∈ files

/-- The sources that a label declares, without those behind a rule that is being expanded. -/
def declaredSources (files : List String) (graph : QueryGraph) (label : String) (active : Finset String) : Finset String :=
  match tracked files graph label with
  | some path => {path}
  | none =>
    match _found : graph.element label with
    | none => ∅
    | some rule =>
      if _entered : label ∈ active then
        ∅
      else
        rule.references.foldl (fun sources reference =>
          sources ∪ declaredSources files graph reference (insert label active)) ∅
termination_by (graph.labels \ active).card
decreasing_by exact card_sdiff_insert_lt (QueryGraph.mem_labels _found) _entered

def coverageKinds : List (String × List String) :=
  [("_coverage_sources", [".py"]), ("_rust_coverage_sources", [".rs"]), ("_go_coverage_sources", [".go"]),
    ("_jvm_coverage_sources", [".java", ".kt", ".kts"])]

def endsWith (name ending : String) : Bool := ending.toList.isSuffixOf name.toList

def removeSuffix (name ending : String) : String :=
  if endsWith name ending then String.ofList (name.toList.take (name.toList.length - ending.toList.length)) else name

/-- The coverage root that a rule stands for. A Python rule stands for the target that it belongs to, unless it is only for
tests. -/
def QueryRule.root (rule : QueryRule) : String :=
  if rule.ruleClass = "_coverage_sources" ∧ rule.owner.testonly = false then
    removeSuffix rule.name ".python_coverage"
  else
    rule.name

namespace Workspace

variable (workspace : Workspace)

def declared (label : String) : Finset String := declaredSources workspace.files workspace.graph label ∅

/-- The rules of the workspace, each at the place of the first of its name. -/
def rules : List QueryRule :=
  ((workspace.graph.rules.filter QueryRule.maintained).map QueryRule.name).eraseDups.filterMap workspace.graph.element

def measured (rule : QueryRule) : List String :=
  match coverageKinds.lookup rule.ruleClass with
  | none => []
  | some endings => (workspace.declared rule.name).sort.filter fun name =>
      endings.any (endsWith name) && (workspace.scope name = some "unspecified")

/-- The labels of the rules that name a source as their input or declare it. -/
def ownerLabels (name : String) : List String :=
  ((workspace.graph.rules.filter QueryRule.maintained).filter fun rule =>
      name ∈ rule.inputs.filterMap sourcePath).map QueryRule.name ++
    (workspace.rules.filter fun rule => name ∈ workspace.declared rule.name).map QueryRule.name

def owners (name : String) : List SourceOwner :=
  (sorted (workspace.ownerLabels name)).filterMap fun label => (workspace.graph.element label).map QueryRule.owner

def language (name : String) : Option String :=
  (languages.lookup (suffix name)).filter fun _ => (workspace.scope name).getD "unspecified" = "unspecified"

def checkScope (pair : String × String) : Except String Unit :=
  if pair.2 ∈ ["unspecified", "vendored", "generated", "non-executable"] then
    .ok ()
  else
    .error s!"Invalid coverage scope for {pair.1}: {pair.2}"

def excludedReason (name : String) : String :=
  if (workspace.scope name).getD "unspecified" ≠ "unspecified" then
    (workspace.scope name).getD "unspecified"
  else
    "excluded language or non-executable content"

def eligible : List CoverageSource :=
  workspace.files.filterMap fun name => (workspace.language name).map fun language => ⟨name, language, workspace.owners name⟩

def jvmDeclarations : List (String × List String) :=
  (workspace.rules.filter fun rule => rule.ruleClass = "_jvm_coverage_sources").map fun rule =>
    (rule.name, sorted (((rule.lists.filter fun list => list.1 = "srcs").flatMap fun list => list.2).flatMap fun reference =>
      (workspace.declared reference).sort))

def discover : Except String CoverageInventory :=
  if workspace.packages = [] then
    .error "No Bazel packages were discovered."
  else do
    (workspace.scopes.map Prod.fst).eraseDups.forM fun name => checkScope (name, (workspace.scope name).getD "")
    .ok
      { schemaVersion := 1
        eligible := workspace.eligible
        excluded := (workspace.files.filter fun name => (workspace.language name).isNone).map fun name =>
          ⟨name, workspace.excludedReason name⟩
        missingOwners := (workspace.eligible.filter fun source => source.owners = []).map CoverageSource.path
        coverageRoots := sortByKey (fun name => name)
          ((workspace.rules.filter fun rule => workspace.measured rule ≠ []).map QueryRule.root)
        baselineSources := sorted (workspace.rules.flatMap workspace.measured)
        jvmTests := sortByKey (fun name => name)
          ((workspace.rules.filter fun rule => rule.ruleClass ∈ ["java_test", "kt_jvm_test"]).map QueryRule.name)
        javascriptTests := sortByKey (fun name => name)
          ((workspace.rules.filter fun rule => rule.ruleClass = "js_test").map QueryRule.name)
        jvmSourceDeclarations := workspace.jvmDeclarations }

end Workspace

end Coverage

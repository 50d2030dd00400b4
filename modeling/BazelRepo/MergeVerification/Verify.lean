import BazelRepo.Library.Listing
import BazelRepo.MergeVerification.Github
import Mathlib.Data.Finset.Basic
import Mathlib.Data.Prod.Lex
import Mathlib.Data.List.Sort

namespace MergeVerification

open Library

section Fields

def isLowerHexdigit (c : Char) : Bool := isAsciiDigit c || (0x61 ≤ c.toNat && c.toNat ≤ 0x66)

def commit (value : String) : Except String Unit :=
  ensure (value.toList.length == 40 && value.toList.all isLowerHexdigit) "invalid full commit identity"

def text (value : Json) (key : String) : Except String String :=
  okOr (value.field key).asStr s!"missing string field: {key}"

def count (value : Json) (key : String) : Except String Nat :=
  okOr (value.field key).asU64 s!"missing count field: {key}"

def list (value : Json) (key : String) : Except String (List Json) :=
  okOr (value.field key).asArray s!"missing array field: {key}"

def accepted (value : Json) : Except String Unit := do
  let status ← text value "status"
  if status ≠ "completed" then .error "check or workflow is incomplete or failed"
  else do
    let conclusion ← text value "conclusion"
    ensure (["success", "neutral", "skipped"].contains conclusion) "check or workflow is incomplete or failed"

def optionalApp (value : Json) (key : String) : Except String (Option Nat) :=
  if (value.field key).isNull then .ok none
  else if (value.field key).asI64 = some (-1) then .ok none
  else do
    let id ← okOr (value.field key).asU64 "invalid check application identity"
    ensure (0 < id) "invalid check application identity"
    .ok (some id)

def eqIgnoreAsciiCase (a b : String) : Bool := a.toList.map Char.toLower == b.toList.map Char.toLower

end Fields

section Files

/-- The pull request that was asked for, with the head that was reviewed. -/
def checkPull (cli : Cli) (p : Json) : Except String Unit := do
  let number ← count p "number"
  ensure (number == cli.pr) "PR repository or number differs"
  let name ← text ((p.field "base").field "repo") "full_name"
  ensure (eqIgnoreAsciiCase name cli.repo) "PR repository or number differs"
  let head ← text (p.field "head") "sha"
  ensure (head == cli.head) "PR head changed"
  let base ← text (p.field "base") "ref"
  ensure (base == "main") "unsupported target branch policy"
  let sha ← text (p.field "base") "sha"
  commit sha

def pull (cli : Cli) : Verifying Json := do
  let p ← read cli .pull
  checkPull cli p
  pure p

def noteFile (sets : Finset String × Finset String) (row : Json) : Except String (Finset String × Finset String) := do
  let name ← text row "filename"
  ensure (name ∉ sets.1) "duplicate changed file"
  let status ← text row "status"
  if status = "renamed" then do
    let previous ← text row "previous_filename"
    .ok (insert name sets.1, insert previous (insert name sets.2))
  else .ok (insert name sets.1, insert name sets.2)

def checkFiles (p : Json) (expected : List String) (rows : List Json) : Except String Unit := do
  let changed ← count p "changed_files"
  ensure (changed == rows.length) "changed file collection is incomplete"
  let sets ← rows.foldlM noteFile (∅, ∅)
  ensure (sets.2 = expected.toFinset) "reviewed changed files differ"

def files (cli : Cli) (p : Json) (expected : List String) : Verifying (List Json) := do
  let rows ← pages cli .files
  checkFiles p expected rows
  pure rows

end Files

section Reviews

variable [Formats]

def isProvider (comment : Json) : Bool :=
  let user := comment.field "user"
  (user.field "id").asU64 == some 199175422 && (user.field "login").asStr == some "chatgpt-codex-connector[bot]" &&
    (user.field "type").asStr == some "Bot"

/-- The review state that a comment of the provider carries for a commit, with its place in time. -/
def hostedState (head : String) (comment : Json) : Except String (Option ((Int ×ₗ Nat) × Json)) :=
  if !isProvider comment then .ok none
  else do
    let body ← text comment "body"
    match splitOnce "<!-- codex-review-state:v1 ".toList body.toList with
    | none => .ok none
    | some (_, rest) => do
      let (raw, _) ← okOr (splitOnce " -->".toList rest) "invalid hosted review marker"
      let value ← okOr (Formats.json (String.ofList raw)) "invalid JSON"
      let state := value.field "code_review"
      let sha ← text state "commit_sha"
      if sha ≠ head then .ok none
      else do
        let created ← text comment "created_at"
        let at' ← okOr (Formats.rfc3339 created) "invalid time"
        let id ← count comment "id"
        .ok (some (toLex (at', id), state))

def hasNoFindings (state : Json) : Bool :=
  (state.field "has_any_findings").asBool == some false && (state.field "has_unresolved_findings").asBool == some false

def hosted (comments : List Json) (head : String) : Except String Json := do
  let latest ← foldRows (hostedState head) (fun latest entry => .ok (newer latest entry)) none comments
  let (_, state) ← okOr latest "authenticated review for this head is missing"
  let status ← text state "status"
  ensure (status == "completed" && hasNoFindings state) "hosted review is incomplete or has findings"
  .ok state

def submitted (review : Json) : Except String (Option (Nat × Nat × String)) := do
  let state ← text review "state"
  if state = "COMMENTED" ∨ state = "PENDING" then .ok none
  else do
    ensure (["APPROVED", "CHANGES_REQUESTED", "DISMISSED"].contains state) "unknown submitted review state"
    let id ← count review "id"
    let user ← count (review.field "user") "id"
    .ok (some (user, id, state))

def reviews (rows : List Json) : Except String Unit := do
  let latest ← foldRows submitted (fun latest entry => .ok (newerAt latest entry)) (∅ : BTreeMap Nat (Nat × String)) rows
  ensure (!latest.toList.any fun entry => entry.2.2 == "CHANGES_REQUESTED") "active change request"

end Reviews

section Checks

def checkRun (cli : Cli) (differs : String) (check : Json) : Except String Unit := do
  let head ← text check "head_sha"
  ensure (head == cli.head) differs
  accepted check

def statusEntry (status : Json) : Except String (Option (String × Nat × Json)) := do
  let context ← text status "context"
  let id ← count status "id"
  .ok (some (context, id, status))

def succeeded (status : Json) : Except String Unit := do
  let state ← text status "state"
  ensure (state == "success") "commit status is incomplete or failed"

abbrev RequiredCheck := String × Option Nat

def fixedChecks : List RequiredCheck := [("test", some 15368), ("lint", some 15368), ("format", some 15368)]

def requiredCheck (key : String) (check : Json) : Except String RequiredCheck := do
  let context ← text check "context"
  let app ← optionalApp check key
  .ok (context, app)

def ruleChecks (rule : Json) : Except String (List RequiredCheck) := do
  let kind ← text rule "type"
  if kind = "required_status_checks" then do
    let checks ← list (rule.field "parameters") "required_status_checks"
    checks.mapM (requiredCheck "integration_id")
  else .ok []

def classicContext (context : Json) : Except String RequiredCheck := do
  let name ← okOr context.asStr "invalid required context"
  .ok (name, none)

def fileName (path : String) : Option (List Char) :=
  match (path.toList.splitOn '/').reverse.dropWhile (fun piece => piece == [] || piece == ['.']) with
  | [] => none
  | name :: _ => if name = ['.', '.'] then none else some name

/-- What stands behind the last dot of a file name; a leading dot does not count. -/
def extension (path : String) : Option (List Char) :=
  (fileName path).bind fun name =>
    match (name.splitOn '.').reverse with
    | [] | [_] => none
    | [after, before] => if before = [] then none else some after
    | after :: _ => some after

def isDocumentation (expected : List String) : Bool :=
  expected.all fun file => (extension file).any fun ext => ext.map Char.toLower == ['m', 'd']

def isPublished (checks : List Json) (contexts : String → Bool) (required : RequiredCheck) : Bool :=
  (checks.any fun check => (check.field "name").asStr == some required.1 &&
    required.2.all fun id => ((check.field "app").field "id").asU64 == some id) ||
  (required.2.isNone && contexts required.1)

def acceptRuns (cli : Cli) (checks : List Json) : Except String Unit := do
  ensure (!checks.isEmpty) "published checks are missing"
  checks.forM (checkRun cli "check head differs")

def latestStatuses (statuses : List Json) : Except String (BTreeMap String (Nat × Json)) := do
  let latest ← foldRows statusEntry (fun latest entry => .ok (newerAt latest entry)) ∅ statuses
  latest.toList.forM fun entry => succeeded entry.2.2
  .ok latest

def requiredChecks (expected : List String) (rules : List Json) (classic : Json) : Except String (List RequiredCheck) := do
  let ruled ← rules.mapM ruleChecks
  let names ← list classic "contexts"
  let contexts ← names.mapM classicContext
  let rows ← list classic "checks"
  let checks ← rows.mapM (requiredCheck "app_id")
  let patch : List RequiredCheck := if isDocumentation expected then [] else [("codecov/patch", some 254)]
  .ok (fixedChecks ++ ruled.flatten ++ contexts ++ checks ++ patch)

def requirePublished (checks : List Json) (latest : BTreeMap String (Nat × Json)) (required : List RequiredCheck) :
    Except String Unit :=
  required.forM fun required =>
    ensure (isPublished checks (latest.contains ·) required) s!"required check is missing: {required.1}"

def acceptWorkflows (cli : Cli) (workflows : List Json) : Except String Unit := do
  workflows.forM (checkRun cli "workflow head differs")
  ["Bazel Tests", "Coverage"].forM fun name =>
    ensure (workflows.any fun run => (run.field "name").asStr == some name) s!"required workflow is missing: {name}"

structure ChecksEvidence where
  checks : Nat
  statuses : Nat
  workflows : Nat
  documentationOnly : Bool
  requiredChecks : List RequiredCheck

def checks (cli : Cli) (expected : List String) : Verifying ChecksEvidence := do
  let checks ← pages cli .checkRuns
  acceptRuns cli checks
  let statuses ← pages cli .statuses
  let latest ← latestStatuses statuses
  let rules ← pages cli .rules
  let classic ← classicProtection
  let required ← requiredChecks expected rules classic
  requirePublished checks latest required
  let workflows ← pages cli .workflows
  acceptWorkflows cli workflows
  pure ⟨checks.length, latest.size, workflows.length, isDocumentation expected, required⟩

end Checks

section Before

variable [Formats]

structure BeforeEvidence where
  reviewedFiles : List String
  checks : ChecksEvidence
  hostedReview : Json
  targetBase : Json

def checkOpen (initial : Json) : Except String Unit := do
  let state ← text initial "state"
  ensure (state == "open" && (initial.field "merged").asBool == some false &&
    (initial.field "mergeable").asBool == some true) "PR is closed, merged, or not confirmed mergeable"

def checkResolved (threads : List Json) : Except String Unit :=
  threads.forM fun thread => ensure ((thread.field "isResolved").asBool == some true) "unresolved review thread"

def checkUnchanged (initial final : Json) : Except String Unit :=
  ensure ((final.field "state").equal (initial.field "state") &&
    ((final.field "base").field "sha").equal ((initial.field "base").field "sha") &&
    (final.field "mergeable").asBool == some true && (final.field "merged").asBool == some false)
    "PR changed during verification"

def before (cli : Cli) (expected : List String) : Verifying BeforeEvidence := do
  let initial ← pull cli
  checkOpen initial
  let _ ← files cli initial expected
  let checks ← checks cli expected
  let reviewRows ← pages cli .reviews
  reviews reviewRows
  let comments ← pages cli .comments
  let review ← hosted comments cli.head
  let threads ← threads
  checkResolved threads
  let final ← pull cli
  checkUnchanged initial final
  pure ⟨expected, checks, review, (initial.field "base").field "sha"⟩

end Before

section After

structure Blob where
  mode : String
  kind : String
  sha : String
  deriving DecidableEq

def treeEntry (row : Json) : Except String (Option (String × Blob)) := do
  let kind ← text row "type"
  if kind = "tree" then .ok none
  else do
    ensure (["blob", "commit"].contains kind) "unknown Git tree entry type"
    let sha ← text row "sha"
    commit sha
    let mode ← text row "mode"
    let path ← text row "path"
    .ok (some (path, ⟨mode, kind, sha⟩))

def treeOf (sha : String) (commitValue : Json) : Except String String := do
  let named ← text commitValue "sha"
  ensure (named == sha) "commit response identity differs"
  let treeSha ← text (commitValue.field "tree") "sha"
  commit treeSha
  .ok treeSha

def readTree (rows : List Json) : Except String (BTreeMap String Blob) :=
  foldRows treeEntry (insertNew "duplicate tree path") ∅ rows

def treeEntries (treeSha : String) (value : Json) : Except String (BTreeMap String Blob) := do
  let same ← text value "sha"
  ensure (same == treeSha && (value.field "truncated").asBool == some false) "tree identity differs or tree is incomplete"
  let rows ← list value "tree"
  readTree rows

def tree (cli : Cli) (sha : String) : Verifying (BTreeMap String Blob) := do
  commit sha
  let commitValue ← read cli (.commit sha)
  let treeSha ← treeOf sha commitValue
  let value ← read cli (.tree treeSha)
  treeEntries treeSha value

def strings (value : Json) : Except String (List String) := do
  let values ← okOr value.asArray "invalid type"
  values.mapM fun value => okOr value.asStr "invalid type"

def sorted (paths : List String) : List String := paths.insertionSort (· ≤ ·)

def checkReceipt (cli : Cli) (expected : List String) : Except String Unit := do
  let receipt ← cli.beforeReceipt.getD (.error "before receipt is required")
  ensure ((receipt.field "schema_version").asU64 == some 1 && (receipt.field "passed").asBool == some true &&
    (receipt.field "phase").asStr == some "before" && (receipt.field "head").asStr == some cli.head &&
    (receipt.field "repository").asStr.any (eqIgnoreAsciiCase · cli.repo) && (receipt.field "pr").asU64 == some cli.pr)
    "before receipt does not accept this identity"
  let saved ← strings (receipt.field "reviewed_files")
  ensure (sorted saved == sorted expected) "before receipt files differ"

structure AfterEvidence where
  reviewedFiles : List String
  mergeCommit : String
  changedFiles : Finset String
  alreadyPresent : Finset String

def paths (tree : BTreeMap String Blob) : List String := tree.toList.map Prod.fst

def committedPaths (parent merged : BTreeMap String Blob) : Finset String :=
  ((paths parent ++ paths merged).filter fun path => parent[path]? ≠ merged[path]?).toFinset

/-- A file is in the reviewed tree unless it was removed. -/
def checkChange (reviewed : BTreeMap String Blob) (change : Json) : Except String Unit := do
  let name ← text change "filename"
  let status ← text change "status"
  ensure (reviewed.contains name != (status == "removed")) "reviewed tree does not match the file change"

def mergeOf (initial : Json) : Except String String := do
  let merge ← text initial "merge_commit_sha"
  commit merge
  .ok merge

def checkMerged (initial : Json) : Except String Unit := do
  let state ← text initial "state"
  ensure (state == "closed" && (initial.field "merged").asBool == some true) "PR is not merged"

def parentOf (merge : String) (commitValue : Json) : Except String Json := do
  let named ← text commitValue "sha"
  ensure (named == merge) "merge commit identity differs"
  let parents ← list commitValue "parents"
  match parents with
  | [parent] => .ok parent
  | _ => .error "repository policy requires a squash commit"

def compareTrees (expected : List String) (reviewed merged parent : BTreeMap String Blob) : Except String Unit := do
  expected.forM fun file =>
    ensure (reviewed[file]? = merged[file]?) s!"merged file differs from reviewed file: {file}"
  ensure (committedPaths parent merged ⊆ expected.toFinset) "merge changed files outside reviewed scope"

def checkSameMerge (merge : String) (final : Json) : Except String Unit :=
  ensure ((final.field "merged").asBool == some true && (final.field "merge_commit_sha").asStr == some merge)
    "merge identity changed during verification"

def after (cli : Cli) (expected : List String) : Verifying AfterEvidence := do
  checkReceipt cli expected
  let initial ← pull cli
  checkMerged initial
  let changes ← files cli initial expected
  let merge ← mergeOf initial
  let commitValue ← read cli (.commit merge)
  let parentRow ← parentOf merge commitValue
  let reviewed ← tree cli cli.head
  liftM (changes.forM (checkChange reviewed))
  let merged ← tree cli merge
  let parentSha ← text parentRow "sha"
  let parent ← tree cli parentSha
  compareTrees expected reviewed merged parent
  let final ← pull cli
  checkSameMerge merge final
  let committed := committedPaths parent merged
  pure ⟨expected, merge, committed, expected.toFinset \ committed⟩

end After

end MergeVerification

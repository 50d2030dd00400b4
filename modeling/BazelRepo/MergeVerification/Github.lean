import BazelRepo.Library.Checked
import BazelRepo.Library.Json
import Mathlib.Data.Finset.Insert

namespace MergeVerification

open Library

structure Cli where
  repo : String
  pr : Nat
  head : String
  /-- The contents of the before receipt, where one was named. -/
  beforeReceipt : Option (Except String Json)

inductive Call where
  | pull
  | files
  | checkRuns
  | statuses
  | rules
  | classic
  | workflows
  | reviews
  | comments
  | threads (after : Option String)
  | commit (sha : String)
  | tree (sha : String)
  deriving DecidableEq

def Call.endpoint (cli : Cli) : Call → String
  | pull => s!"repos/{cli.repo}/pulls/{cli.pr}"
  | files => s!"repos/{cli.repo}/pulls/{cli.pr}/files?per_page=100"
  | checkRuns => s!"repos/{cli.repo}/commits/{cli.head}/check-runs?per_page=100"
  | statuses => s!"repos/{cli.repo}/commits/{cli.head}/statuses?per_page=100"
  | rules => s!"repos/{cli.repo}/rules/branches/main?per_page=100"
  | classic => s!"repos/{cli.repo}/branches/main/protection/required_status_checks"
  | workflows => s!"repos/{cli.repo}/actions/runs?head_sha={cli.head}&per_page=100"
  | reviews => s!"repos/{cli.repo}/pulls/{cli.pr}/reviews?per_page=100"
  | comments => s!"repos/{cli.repo}/issues/{cli.pr}/comments?per_page=100"
  | threads _ => "graphql"
  | commit sha => s!"repos/{cli.repo}/git/commits/{sha}"
  | tree sha => s!"repos/{cli.repo}/git/trees/{sha}?recursive=1"

/-- The member that holds the rows of a page; without one the page is its rows. -/
def Call.collection : Call → Option String
  | checkRuns => some "check_runs"
  | workflows => some "workflow_runs"
  | _ => none

abbrev Response := Except String (Json × Bool)

abbrev Remote := Nat → Call → Response

abbrev Verifying (α : Type) := ReaderT Remote (StateT Nat (Except String)) α

def ensure (condition : Bool) (message : String) : Except String Unit :=
  if condition then .ok () else .error message

def invoke (call : Call) : Verifying (Json × Bool) := fun remote sequence => do
  let response ← remote sequence call
  .ok (response, sequence + 1)

def read (cli : Cli) (call : Call) : Verifying Json := do
  let (value, success) ← invoke call
  ensure success s!"GitHub read failed: {call.endpoint cli}"
  pure value

def unprotected : Json := .object [("contexts", .array []), ("checks", .array [])]

def classicProtection : Verifying Json := do
  let (value, success) ← invoke .classic
  if !success && (value.field "status").asStr == some "404" &&
      (value.field "message").asStr == some "Branch not protected" then pure unprotected
  else do
    ensure success "branch protection read failed"
    pure value

section Pages

def pageRows (key : Option String) (page : Json) : Option (List Json) :=
  match key with
  | some key => (page.field key).asArray
  | none => page.asArray

def notePage (key : Option String) (collected : Option Nat × List Json) (page : Json) :
    Except String (Option Nat × List Json) :=
  match key with
  | some key => do
    let count ← okOr (page.field "total_count").asU64 "missing API total count"
    ensure (collected.1.all (· == count)) "API count changed during pagination"
    let rows ← okOr (page.field key).asArray "missing API collection"
    .ok (some count, collected.2 ++ rows)
  | none => do
    let rows ← okOr page.asArray "invalid API page"
    .ok (collected.1, collected.2 ++ rows)

def collectPages (key : Option String) (value : Json) : Except String (List Json) := do
  let pages ← okOr value.asArray "missing API page array"
  ensure (!pages.isEmpty) "API pages are empty"
  let (total, rows) ← pages.foldlM (notePage key) (none, [])
  ensure (total.all (· == rows.length)) "API collection is incomplete"
  .ok rows

def pages (cli : Cli) (call : Call) : Verifying (List Json) := do
  let (value, success) ← invoke call
  ensure success s!"GitHub paginated read failed: {call.endpoint cli}"
  collectPages call.collection value

end Pages

section Threads

def reviewThreads (value : Json) : Json :=
  (((value.field "data").field "repository").field "pullRequest").field "reviewThreads"

structure ThreadLoop where
  cursor : Option String := none
  seen : Finset String := ∅
  rows : List Json := []
  total : Option Nat := none

/-- One turn of the loop: what goes on, or all threads. -/
def ThreadLoop.turn (s : ThreadLoop) (value : Json) (success : Bool) : Except String (ThreadLoop ⊕ List Json) := do
  ensure (success && (value.member "errors").isNone) "review thread read failed"
  let threads := reviewThreads value
  let count ← okOr (threads.field "totalCount").asU64 "missing thread count"
  ensure (s.total.all (· == count)) "thread count changed during pagination"
  let nodes ← okOr (threads.field "nodes").asArray "missing review threads"
  let rows := s.rows ++ nodes
  let info := threads.field "pageInfo"
  let more ← okOr (info.field "hasNextPage").asBool "missing thread pagination"
  if !more then do
    ensure (count == rows.length) "review threads are incomplete"
    .ok (.inr rows)
  else do
    ensure (!nodes.isEmpty && rows.length ≤ count) "thread pagination did not advance"
    let next ← okOr (info.field "endCursor").asStr "missing thread cursor"
    ensure (!next.isEmpty && next ∉ s.seen) "thread pagination did not advance"
    .ok (.inl ⟨some next, insert next s.seen, rows, some count⟩)

def ThreadLoop.step (s : ThreadLoop) : Verifying (ThreadLoop ⊕ List Json) := do
  let (value, success) ← invoke (.threads s.cursor)
  s.turn value success

def threadLoop : Nat → ThreadLoop → Verifying (List Json)
  | 0, _ => throw "thread pagination did not advance"
  | turns + 1, s => do
    let next ← s.step
    match next with
    | .inr rows => pure rows
    | .inl s => threadLoop turns s

def threads : Verifying (List Json) := do
  let first ← ({} : ThreadLoop).step
  match first with
  | .inr rows => pure rows
  | .inl s => threadLoop (s.total.getD 0) s

end Threads

end MergeVerification

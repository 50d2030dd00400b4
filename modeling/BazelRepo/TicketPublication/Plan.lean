import BazelRepo.Library.Checked
import BazelRepo.Library.Json

namespace TicketPublication

open Library

def maxSubIssues : Nat := 100

def maxDependencies : Nat := 50

inductive Failure where
  | conflict
  | other (text : String)
  deriving DecidableEq

def ensure (condition : Bool) (failure : Failure) : Except Failure Unit :=
  if condition then .ok () else .error failure

theorem ensure_eq_ok {condition : Bool} {failure : Failure} {u : Unit} :
    ensure condition failure = .ok u ↔ condition = true := by
  unfold ensure
  split <;> simp_all

def context {α : Type} (value : Option α) (text : String) : Except Failure α := okOr value (.other text)

def isAsciiLowercase (c : Char) : Bool := 0x61 ≤ c.toNat && c.toNat ≤ 0x7A

def isTicketKey (value : String) : Bool :=
  !value.isEmpty && value.utf8ByteSize ≤ 64 &&
    value.toList.all (fun c => isAsciiLowercase c || isAsciiDigit c || c == '-') &&
    value.toList.head?.any isAsciiLowercase

structure TicketKey where
  val : String
  valid : isTicketKey val
  deriving DecidableEq

def TicketKey.tryFrom (value : String) : Except Failure TicketKey :=
  if valid : isTicketKey value then .ok ⟨value, valid⟩ else .error (.other "invalid ticket key")

structure BatchId where
  val : Uuid
  notNil : val.bits ≠ 0
  deriving DecidableEq

def BatchId.tryFrom (value : String) : Except Failure BatchId := do
  let parsed ← context (Uuid.parse value) "invalid batch identity"
  if canonical : toString parsed = value ∧ parsed.bits ≠ 0 then .ok ⟨parsed, canonical.2⟩
  else .error (.other "invalid batch identity")

def BatchId.asStr (id : BatchId) : String := toString id.val

@[ext]
structure IssueNumber where
  val : UInt64
  positive : val ≠ 0

instance : DecidableEq IssueNumber := fun _ _ => decidable_of_iff' _ IssueNumber.ext_iff

@[ext]
structure IssueId where
  val : UInt64
  positive : val ≠ 0

instance : DecidableEq IssueId := fun _ _ => decidable_of_iff' _ IssueId.ext_iff

def isNodeId (value : String) : Bool :=
  !value.isEmpty && value.toList.all fun c => !isWhiteSpace c && !isControl c

structure NodeId where
  val : String
  valid : isNodeId val
  deriving DecidableEq

structure IssueMapping where
  number : IssueNumber
  id : IssueId
  nodeId : NodeId
  deriving DecidableEq

inductive Blocker where
  | ticket (key : TicketKey)
  | issue (number : IssueNumber)
  deriving DecidableEq

structure Ticket where
  key : TicketKey
  title : String
  body : String
  labels : List String
  blockers : List Blocker
  deriving DecidableEq

structure Plan where
  schemaVersion : UInt32
  repository : String
  parent : IssueNumber
  tickets : List Ticket
  deriving DecidableEq

def toAsciiLowercase (text : String) : String := text.map Char.toLower

def eqIgnoreAsciiCase (a b : String) : Bool := toAsciiLowercase a == toAsciiLowercase b

def isTriageLabel (label : String) : Bool :=
  ["needs-triage", "needs-info", "ready-for-agent", "ready-for-human", "wontfix"].any fun name =>
    eqIgnoreAsciiCase name label

def containsText (text part : String) : Bool := text.toList.tails.any part.toList.isPrefixOf

def reservedMarker : String := "<!-- ticket-publication:"

/-- One pass over the labels of a ticket, with the spellings seen and the triage labels counted so far. -/
def checkLabel (seen : List String × Nat) (label : String) : Except Failure (List String × Nat) := do
  ensure (!(trim label).isEmpty && label.toList.all (fun c => !isControl c) &&
    !seen.1.contains (toAsciiLowercase label)) (.other "invalid or duplicate label")
  .ok (toAsciiLowercase label :: seen.1, seen.2 + if isTriageLabel label then 1 else 0)

def checkTicket (keys : List TicketKey) (ticket : Ticket) : Except Failure (List TicketKey) := do
  ensure (!keys.contains ticket.key) (.other "duplicate ticket key")
  ensure (!(trim ticket.title).isEmpty && ticket.title.toList.all fun c => c != '\n' && c != '\r' && c != '\x00')
    (.other "invalid title")
  ensure (!(trim ticket.body).isEmpty && ticket.body.toList.all (· != '\x00')) (.other "invalid body")
  ensure (!containsText ticket.body reservedMarker) (.other "body contains a reserved identity marker")
  let labels ← ticket.labels.foldlM checkLabel ([], 0)
  ensure (labels.2 ≤ 1) (.other "plan contains conflicting triage labels")
  .ok (ticket.key :: keys)

def Plan.keys (plan : Plan) : List TicketKey := plan.tickets.map Ticket.key

def checkBlocker (keys : List TicketKey) : Blocker → Except Failure Unit
  | .ticket key => ensure (keys.contains key) (.other "missing blocker ticket")
  | .issue _ => .ok ()

def checkCapacity (tickets : List Ticket) (blocker : Blocker) : Except Failure Unit :=
  ensure (tickets.countP (fun ticket => ticket.blockers.contains blocker) ≤ maxDependencies)
    (.other "blocker exceeds the native blocking capacity")

def checkDependencyLimits (tickets : List Ticket) : Except Failure Unit :=
  tickets.forM fun ticket => do
    ensure (ticket.blockers.eraseDups.length ≤ maxDependencies) (.other "ticket exceeds the native blocker capacity")
    ticket.blockers.eraseDups.forM (checkCapacity tickets)

def resolveTicket (resolved : List TicketKey) (ticket : Ticket) : List TicketKey :=
  let ready := ticket.blockers.all fun
    | .ticket key => resolved.contains key
    | .issue _ => true
  if ready then resolved.insert ticket.key else resolved

def resolveRound (tickets : List Ticket) (resolved : List TicketKey) : List TicketKey :=
  tickets.foldl resolveTicket resolved

/-- Rounds over the tickets until all are resolved, or one round resolves nothing. -/
def resolve (tickets : List Ticket) (resolved : List TicketKey) : Except Failure Unit :=
  if tickets.length ≤ resolved.length then .ok ()
  else if resolved.length < (resolveRound tickets resolved).length then
    resolve tickets (resolveRound tickets resolved)
  else .error (.other "dependency cycle")
termination_by tickets.length - resolved.length

def Plan.check (plan : Plan) : Except Failure Unit := do
  ensure (plan.schemaVersion == 1) (.other "unsupported plan version")
  ensure (plan.repository == "LowkeyLab/bazel-repo") (.other "unsupported repository")
  ensure (!plan.tickets.isEmpty) (.other "plan contains no tickets")
  ensure (plan.tickets.length ≤ maxSubIssues) (.other "plan exceeds the native parent capacity")
  let keys ← plan.tickets.foldlM checkTicket []
  plan.tickets.forM fun ticket => ticket.blockers.forM (checkBlocker keys)
  checkDependencyLimits plan.tickets
  resolve plan.tickets []

inductive TicketStatus where
  | pending
  | creating
  | retryAuthorized
  | created (mapping : IssueMapping)
  deriving DecidableEq

structure Progress where
  key : TicketKey
  marker : String
  status : TicketStatus
  deriving DecidableEq

structure GraphProgress where
  parentLinks : Nat := 0
  dependencyLinks : Nat := 0
  verified : Bool := false
  deriving DecidableEq

structure LabelProgress where
  key : TicketKey
  applied : List String
  remaining : List String
  deriving DecidableEq

structure LabelsProgress where
  checked : Bool := false
  tickets : List LabelProgress := []
  verified : Bool := false
  deriving DecidableEq

structure Batch where
  schemaVersion : UInt32
  id : BatchId
  planFingerprint : String
  plan : Plan
  tickets : List Progress
  graph : GraphProgress := {}
  labels : LabelsProgress := {}
  deriving DecidableEq

/-- The digest of a serialized plan. -/
class Fingerprint where
  fingerprint : Plan → String

def markerOf (id : BatchId) (key : TicketKey) : String :=
  s!"<!-- ticket-publication:{id.asStr}:{key.val} -->"

def Batch.prepare [Fingerprint] (id : BatchId) (plan : Plan) : Except Failure Batch := do
  plan.check
  .ok
    { schemaVersion := 1
      planFingerprint := Fingerprint.fingerprint plan
      id
      plan
      tickets := plan.tickets.map fun ticket => ⟨ticket.key, markerOf id ticket.key, .pending⟩ }

def sameMapping (a b : IssueMapping) : Bool := a.number == b.number || a.id == b.id || a.nodeId == b.nodeId

def checkMapping (parent : IssueNumber) (mappings : List IssueMapping) (progress : Progress) :
    Except Failure (List IssueMapping) :=
  match progress.status with
  | .created mapping => do
    ensure (mapping.number != parent) (.other "child mapping identifies the parent")
    ensure (!mappings.any fun other => sameMapping other mapping) (.other "duplicate saved issue mapping")
    .ok (mappings ++ [mapping])
  | _ => .ok mappings

def sameIdentity (expected saved : Progress) : Bool := expected.key == saved.key && expected.marker == saved.marker

def Batch.check [Fingerprint] (batch : Batch) (expected : BatchId) : Except Failure Unit := do
  ensure (batch.schemaVersion == 1 && batch.id == expected) (.other "invalid saved batch identity or version")
  let checked ← Batch.prepare batch.id batch.plan
  ensure (checked.planFingerprint == batch.planFingerprint) (.other "saved plan fingerprint mismatch")
  ensure (checked.tickets.length == batch.tickets.length &&
    (checked.tickets.zip batch.tickets).all fun pair => sameIdentity pair.1 pair.2)
    (.other "invalid saved ticket identities or progress")
  let _ ← batch.tickets.foldlM (checkMapping batch.plan.parent) []
  .ok ()

end TicketPublication

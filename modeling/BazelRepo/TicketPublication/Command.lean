import BazelRepo.TicketPublication.Graph

namespace TicketPublication

open Library

/-- How a replacement of the snapshot ends: without its name, with it but not synchronized, or durable. -/
inductive SaveOutcome where
  | refused
  | unsynced
  | saved
  deriving DecidableEq

inductive Call where
  | remote (request : Remote)
  | create (title body : String)
  | persist (batch : Batch)
  | persistNoclobber (batch : Batch)

abbrev Call.Answer : Call → Type
  | .remote request => request.Answer
  | .create .. => Option Issue
  | .persist _ | .persistNoclobber _ => SaveOutcome

/-- A command on the batch it has in memory, which keeps its changes when it fails. -/
abbrev Publishing (α : Type) := ExceptT Failure (StateT Batch (Program Call Call.Answer)) α

def Reading.lift {α : Type} (reading : Reading α) : Publishing α := fun batch =>
  (reading.run.embed Call.remote fun _ answer => answer) >>= fun result => .done (result, batch)

instance : MonadLift Reading Publishing := ⟨Reading.lift⟩

def calling (call : Call) : Publishing call.Answer := fun batch =>
  Program.perform call >>= fun answer => .done (.ok answer, batch)

def attempt {α : Type} (step : Publishing α) : Publishing (Except Failure α) := fun batch =>
  step batch >>= fun result => .done (.ok result.1, result.2)

def create (title body : String) : Publishing Issue := do
  let answer ← calling (.create title body)
  let issue ← context answer Client.requestFailed
  issue.checkContent title body
  return issue

section Commands

variable [Fingerprint]

def saveOutcome : SaveOutcome → Except Failure Unit
  | .refused => .error (.other "cannot commit batch progress")
  | .unsynced => .error (.other "cannot synchronize the batch directory")
  | .saved => .ok ()

def save : Publishing Unit := do
  let batch ← get
  batch.check batch.id
  let outcome ← calling (.persist batch)
  saveOutcome outcome

def setGraph (graph : GraphProgress) : Publishing Unit := modify fun batch => { batch with graph := graph }

def setLabels (labels : LabelsProgress) : Publishing Unit := modify fun batch => { batch with labels := labels }

namespace Graph

def addParentLink : Publishing Unit :=
  modify fun batch => { batch with graph := { batch.graph with parentLinks := batch.graph.parentLinks + 1 } }

def addDependencyLink : Publishing Unit :=
  modify fun batch => { batch with graph := { batch.graph with dependencyLinks := batch.graph.dependencyLinks + 1 } }

def linkParent (issue parent : IssueMapping) : Publishing Unit := do
  save
  Client.addChild parent.number issue
  let children ← Client.relationships parent.number "sub_issues"
  let linked ← checkParent issue parent children
  ensure linked (.other "accepted parent link lacks fresh evidence")

def ensureParent (index : Nat) (issue parent : IssueMapping) : Publishing Unit := do
  let batch ← get
  let _ ← checkTicket batch index
  let children ← Client.relationships parent.number "sub_issues"
  let present ← checkParent issue parent children
  if present then pure () else linkParent issue parent
  let batch ← get
  let _ ← checkTicket batch index
  addParentLink
  save

def linkDependency (issue blocker : IssueMapping) : Publishing Unit := do
  save
  Client.addBlocker issue.number blocker
  let existing ← Client.relationships issue.number "dependencies/blocked_by"
  let linked ← contains existing blocker
  ensure linked (.other "accepted dependency lacks fresh evidence")

def ensureDependency (index : Nat) (issue blocker : IssueMapping) : Publishing Unit := do
  let batch ← get
  let _ ← checkTicket batch index
  let existing ← Client.relationships issue.number "dependencies/blocked_by"
  let present ← contains existing blocker
  if present then pure () else linkDependency issue blocker
  let batch ← get
  let _ ← checkTicket batch index
  addDependencyLink
  save

def linkTicket (parent : IssueMapping) (ticket : TicketGraph × Nat) : Publishing Unit := do
  if ticket.1.parentPresent then pure () else ensureParent ticket.2 ticket.1.issue parent
  ticket.1.missing.forM (ensureDependency ticket.2 ticket.1.issue)

def linkTickets (graph : Graph) : Publishing Unit := do
  graph.tickets.zipIdx.forM (linkTicket graph.parent)
  let batch ← get
  let final ← read batch
  setGraph final.progress
  save
  ensure final.progress.verified (.other "graph changed during publication; inspect and resume")

def run : Publishing Unit := do
  setGraph {}
  save
  let batch ← get
  let graph ← read batch
  setGraph graph.progress
  save
  if graph.progress.verified then pure () else linkTickets graph

end Graph

namespace Labels

def foldTriage (triage : List String) (label : String) : List String :=
  if isTriageLabel label && !triage.any fun name => eqIgnoreAsciiCase name label then triage ++ [label] else triage

def ticket (batch : Batch) (index : Nat) : Reading LabelProgress := do
  let remote ← Graph.checkTicket batch index
  let actual ← remote.labelNames
  let planned ← context batch.plan.tickets[index]? "unknown ticket"
  ensure (((actual ++ planned.labels).foldl foldTriage []).length ≤ 1) .conflict
  let applied := planned.labels.partition fun label => actual.any fun name => eqIgnoreAsciiCase name label
  return ⟨planned.key, applied.1, applied.2⟩

def observe (batch : Batch) : Reading LabelsProgress := do
  let tickets ← (List.range batch.tickets.length).mapM (ticket batch)
  return ⟨true, tickets, tickets.all fun progress => progress.remaining.isEmpty⟩

def setTicket (index : Nat) (progress : LabelProgress) : Publishing Unit :=
  modify fun batch => { batch with labels := { batch.labels with tickets := batch.labels.tickets.set index progress } }

def unverify : Publishing Unit :=
  modify fun batch => { batch with labels := { batch.labels with verified := false } }

def mapping (batch : Batch) (index : Nat) : Except Failure IssueMapping :=
  match batch.status index with
  | .created mapping => .ok mapping
  | _ => .error (.other "labels require checked issue mappings")

def applyLabels (index : Nat) (remaining : List String) : Publishing Unit := do
  unverify
  save
  let batch ← get
  let mapping ← mapping batch index
  Client.addLabels mapping.number remaining
  let progress ← ticket batch index
  setTicket index progress
  ensure progress.remaining.isEmpty (.other "accepted labels lack fresh evidence")
  save

def labelTicket (index : Nat) : Publishing Unit := do
  let batch ← get
  let progress ← ticket batch index
  setTicket index progress
  if progress.remaining.isEmpty then pure () else applyLabels index progress.remaining

def run : Publishing Unit := do
  let batch ← get
  ensure batch.graph.verified (.other "labels require a checked complete graph")
  let labels ← observe batch
  setLabels labels
  save
  (List.range batch.tickets.length).forM labelTicket
  let batch ← get
  let graph ← Graph.observe batch
  setGraph graph
  ensure graph.verified (.other "graph changed during label publication")
  let batch ← get
  let labels ← observe batch
  setLabels labels
  ensure labels.verified (.other "labels changed during publication")
  save

end Labels

end Commands

end TicketPublication

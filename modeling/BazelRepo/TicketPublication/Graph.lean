import BazelRepo.TicketPublication.Github

namespace TicketPublication

open Library

def Batch.status (batch : Batch) (index : Nat) : TicketStatus :=
  ((batch.tickets[index]?).map Progress.status).getD .pending

def Batch.marker (batch : Batch) (index : Nat) : String :=
  ((batch.tickets[index]?).map Progress.marker).getD ""

def Batch.position (batch : Batch) (key : TicketKey) : Option Nat :=
  batch.tickets.findIdx? fun progress => progress.key == key

/-- The body of an issue: what the plan says, then the identity marker. -/
def issueBody (body marker : String) : String := s!"{body}\n\n{marker}"

structure TicketGraph where
  issue : IssueMapping
  parentPresent : Bool
  missing : List IssueMapping

structure Graph where
  parent : IssueMapping
  tickets : List TicketGraph := []
  progress : GraphProgress := {}

namespace Graph

def mapping (batch : Batch) (index : Nat) : Except Failure IssueMapping :=
  match batch.status index with
  | .created mapping => .ok mapping
  | _ => .error (.other "graph requires checked issue mappings")

def contains (mappings : List Relationship) (expected : IssueMapping) : Except Failure Bool :=
  match mappings with
  | [] => .ok false
  | relationship :: rest => do
    let same ← relationship.matchesMapping expected
    if same then .ok true else contains rest expected

inductive PlannedIssue where
  | unmapped (index : Nat)
  | existing (mapping : IssueMapping)
  deriving DecidableEq

def PlannedIssue.observed (index : Nat) (issues : List (Option IssueMapping)) : PlannedIssue :=
  match (issues[index]?).join with
  | some mapping => .existing mapping
  | none => .unmapped index

def externalMapping (cache : List IssueMapping) (number : IssueNumber) : Reading (IssueMapping × List IssueMapping) :=
  match cache.find? fun mapping => mapping.number == number with
  | some mapping => return (mapping, cache)
  | none => do
    let issue ← Client.read number
    return (issue.mapping, cache ++ [issue.mapping])

/-- The edges found so far and the external mappings read for them. -/
abbrev Edges := List (PlannedIssue × PlannedIssue) × List IssueMapping

def plannedBlocker (batch : Batch) (issues : List (Option IssueMapping)) (external : List IssueMapping) :
    Blocker → Reading (PlannedIssue × List IssueMapping)
  | .issue number => do
    let read ← externalMapping external number
    return (.existing read.1, read.2)
  | .ticket key => do
    let index ← context (batch.position key) "missing blocker mapping"
    return (.observed index issues, external)

def plannedEdge (batch : Batch) (issues : List (Option IssueMapping)) (subject : PlannedIssue) (edges : Edges)
    (blocker : Blocker) : Reading Edges := do
  let planned ← plannedBlocker batch issues edges.2 blocker
  ensure (subject != planned.1) .conflict
  let edge := (subject, planned.1)
  return (if edges.1.contains edge then edges.1 else edges.1 ++ [edge], planned.2)

def plannedEdges (batch : Batch) (issues : List (Option IssueMapping)) :
    Reading (List (PlannedIssue × PlannedIssue)) := do
  let edges ← batch.plan.tickets.zipIdx.foldlM (fun edges ticket =>
    ticket.1.blockers.foldlM (plannedEdge batch issues (.observed ticket.2 issues)) edges) (([], []) : Edges)
  return edges.1

def existingRelationships (relation : String) : PlannedIssue → Reading (List Relationship)
  | .existing mapping => Client.relationships mapping.number relation
  | .unmapped _ => return []

def present (existing : List Relationship) : PlannedIssue → Except Failure Bool
  | .existing mapping => contains existing mapping
  | .unmapped _ => .ok false

def checkDependencyCapacity (source : PlannedIssue) (required : List PlannedIssue) (relation : String) :
    Reading Unit := do
  let existing ← existingRelationships relation source
  let found ← (required.mapM (present existing) : Except Failure (List Bool))
  ensure (existing.length + found.count false ≤ maxDependencies)
    (.other s!"publication batch exceeds {relation} capacity")

def checkSource (direction : List (PlannedIssue × PlannedIssue)) (relation : String) (checked : List PlannedIssue)
    (edge : PlannedIssue × PlannedIssue) : Reading (List PlannedIssue) :=
  if checked.contains edge.1 then return checked
  else do
    checkDependencyCapacity edge.1 ((direction.filter fun other => other.1 == edge.1).map Prod.snd) relation
    return checked ++ [edge.1]

def checkDirection (relation : String) (direction : List (PlannedIssue × PlannedIssue)) : Reading Unit := do
  let _ ← direction.foldlM (checkSource direction relation) []
  return ()

def preflightDependencies (edges : List (PlannedIssue × PlannedIssue)) : Reading Unit := do
  checkDirection "dependencies/blocked_by" edges
  checkDirection "dependencies/blocking" (edges.map Prod.swap)

def preflightCapacity (batch : Batch) (issues : List (Option IssueMapping)) : Reading Unit := do
  ensure (issues.length == batch.plan.tickets.length) (.other "incomplete observed mappings")
  let children ← Client.relationships batch.plan.parent "sub_issues"
  let linked ← ((issues.filterMap id).mapM (contains children) : Except Failure (List Bool))
  ensure (children.length + (issues.length - linked.count true) ≤ maxSubIssues)
    (.other "publication batch exceeds the remaining native parent capacity")
  let edges ← plannedEdges batch issues
  preflightDependencies edges

def checkTicket (batch : Batch) (index : Nat) : Reading Issue := do
  let issue ← mapping batch index
  let ticket ← context batch.plan.tickets[index]? "unknown ticket"
  let remote ← Client.read issue.number
  ensure (remote.mapping == issue) .conflict
  remote.checkContent ticket.title (issueBody ticket.body (batch.marker index))
  return remote

def checkParent (issue parent : IssueMapping) (children : List Relationship) : Reading Bool := do
  let actual ← Client.parent issue
  ensure (actual.all (· == parent.nodeId)) .conflict
  let present ← contains children issue
  ensure (present == actual.isSome) (.other "inconsistent parent relationship reads")
  return present

/-- The mappings that block a ticket, without repetitions, and the external mappings read for them. -/
abbrev Required := List IssueMapping × List IssueMapping

def blockerMapping (batch : Batch) (external : List IssueMapping) :
    Blocker → Reading (IssueMapping × List IssueMapping)
  | .issue number => externalMapping external number
  | .ticket key => do
    let index ← context (batch.position key) "missing blocker mapping"
    let mapped ← mapping batch index
    return (mapped, external)

def requiredBlocker (batch : Batch) (issue : IssueMapping) (required : Required) (blocker : Blocker) :
    Reading Required := do
  let read ← blockerMapping batch required.2 blocker
  ensure (read.1 != issue) .conflict
  return (if required.1.contains read.1 then required.1 else required.1 ++ [read.1], read.2)

def readTicket (batch : Batch) (children : List Relationship) (state : Graph × List IssueMapping)
    (ticket : Ticket × Nat) : Reading (Graph × List IssueMapping) := do
  let graph := state.1
  let issue ← mapping batch ticket.2
  let _ ← checkTicket batch ticket.2
  let parentPresent ← checkParent issue graph.parent children
  let existing ← Client.relationships issue.number "dependencies/blocked_by"
  let required ← ticket.1.blockers.foldlM (requiredBlocker batch issue) ([], state.2)
  let found ← (required.1.mapM (contains existing) : Except Failure (List Bool))
  let missing := ((required.1.zip found).filter fun blocker => !blocker.2).map Prod.fst
  let progress : GraphProgress :=
    { graph.progress with
      parentLinks := graph.progress.parentLinks + if parentPresent then 1 else 0
      dependencyLinks := graph.progress.dependencyLinks + found.count true }
  return (⟨graph.parent, graph.tickets ++ [⟨issue, parentPresent, missing⟩], progress⟩, required.2)

def read (batch : Batch) : Reading Graph := do
  let parent ← Client.read batch.plan.parent
  let children ← Client.relationships parent.mapping.number "sub_issues"
  let state ← batch.plan.tickets.zipIdx.foldlM (readTicket batch children) (({ parent := parent.mapping } : Graph), [])
  let graph := state.1
  let verified := graph.tickets.all fun ticket => ticket.parentPresent && ticket.missing.isEmpty
  return { graph with progress := { graph.progress with verified } }

def observe (batch : Batch) : Reading GraphProgress := do
  return (← read batch).progress

end Graph

end TicketPublication

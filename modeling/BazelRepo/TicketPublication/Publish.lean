import BazelRepo.TicketPublication.Command

namespace TicketPublication

open Library

def TicketStatus.isCreated : TicketStatus → Bool
  | .created _ => true
  | _ => false

def Batch.allCreated (batch : Batch) : Bool := batch.tickets.all fun progress => progress.status.isCreated

def setStatus (index : Nat) (status : TicketStatus) : Publishing Unit :=
  modify fun batch =>
    { batch with tickets := batch.tickets.modify index fun progress => { progress with status := status } }

def conflicting {α : Type} (checked : Except Failure α) : Except Failure α := checked.mapError fun _ => .conflict

def savedMapping (mapping : IssueMapping) : Reading Issue := do
  let remote ← Client.read mapping.number
  ensure (remote.mapping == mapping) .conflict
  return remote

/-- The issue of a ticket: the saved one, or the only one with its marker. -/
def identified (issues : List Issue) (progress : Progress) : Reading (Option Issue) := do
  match progress.status with
  | .created mapping =>
    let remote ← savedMapping mapping
    return some remote
  | _ =>
    let found := issues.filter fun issue => issue.hasMarker progress.marker
    ensure (found.length ≤ 1) .conflict
    return found.getLast?

def observeTicket (issues : List Issue) (pair : Progress × Ticket) : Reading (Option IssueMapping) := do
  match ← identified issues pair.1 with
  | some remote =>
    conflicting (remote.checkContent pair.2.title (issueBody pair.2.body pair.1.marker))
    return some remote.mapping
  | none => return none

def observe (batch : Batch) : Reading (List (Option IssueMapping)) := do
  let _ ← Client.read batch.plan.parent
  let issues ← if batch.allCreated then pure [] else Client.enumerate
  (batch.tickets.zip batch.plan.tickets).mapM (observeTicket issues)

def Batch.blockerCreated (batch : Batch) : Blocker → Bool
  | .issue _ => true
  | .ticket key => batch.tickets.any fun progress => progress.key == key && progress.status.isCreated

def Batch.nextTicket (batch : Batch) : Option (Ticket × Nat) :=
  batch.plan.tickets.zipIdx.find? fun ticket =>
    !(batch.status ticket.2).isCreated && ticket.1.blockers.all batch.blockerCreated

section Publication

variable [Fingerprint]

def createTicket (ticket : Ticket) (index : Nat) : Publishing Issue := do
  setStatus index .creating
  save
  let batch ← get
  create ticket.title (issueBody ticket.body (batch.marker index))

def resumeTicket (ticket : Ticket) (index : Nat) : Publishing Issue := do
  let batch ← get
  let found ← Client.find (batch.marker index)
  match found with
  | [] =>
    if batch.status index = .retryAuthorized then createTicket ticket index
    else
      throw (.other "Creation remains uncertain. An absent match does not authorize another request.")
  | [remote] => return remote
  | _ => throw .conflict

def issueFor (observed : List (Option IssueMapping)) (ticket : Ticket) (index : Nat) : Publishing Issue := do
  let batch ← get
  match (observed[index]?).join with
  | some mapping => savedMapping mapping
  | none =>
    match batch.status index with
    | .pending | .created _ => createTicket ticket index
    | .creating | .retryAuthorized => resumeTicket ticket index

def verifyIssue (ticket : Ticket) (index : Nat) (created : Issue) : Publishing IssueMapping := do
  let batch ← get
  let checked ← Client.read created.mapping.number
  conflicting (checked.checkContent ticket.title (issueBody ticket.body (batch.marker index)))
  ensure (created.mapping == checked.mapping) .conflict
  return checked.mapping

/-- The replacement can take its name before synchronization fails, so a failure leaves the ticket uncertain
in memory until a restarted command checks the snapshot. -/
def saveMapping (index : Nat) (mapping : IssueMapping) : Publishing Unit := do
  setStatus index (.created mapping)
  match ← attempt save with
  | .ok _ => return ()
  | .error failure =>
    setStatus index .creating
    throw failure

def publishTicket (observed : List (Option IssueMapping)) (ticket : Ticket × Nat) : Publishing Unit := do
  let created ← issueFor observed ticket.1 ticket.2
  let mapping ← verifyIssue ticket.1 ticket.2 created
  saveMapping ticket.2 mapping

/-- The creation loop; each turn gives one more ticket its issue, so as many turns as tickets are enough. -/
def publishTickets (observed : List (Option IssueMapping)) : Nat → Publishing Unit
  | 0 => return ()
  | turns + 1 => do
    let batch ← get
    match batch.nextTicket with
    | none => return ()
    | some ticket =>
      publishTicket observed ticket
      publishTickets observed turns

def run : Publishing Unit := do
  let batch ← get
  let observed ← observe batch
  Graph.preflightCapacity batch observed
  publishTickets observed batch.tickets.length
  let batch ← get
  ensure batch.allCreated (.other "creation remains incomplete")
  Graph.run
  Labels.run

inductive Outcome where
  | complete
  | partly
  | uncertain
  | conflict
  deriving DecidableEq

def TicketStatus.isUncertain : TicketStatus → Bool
  | .creating | .retryAuthorized => true
  | _ => false

def Batch.uncertain (batch : Batch) : Bool := batch.tickets.any fun progress => progress.status.isUncertain

def outcomeOf (batch : Batch) : Except Failure Unit → Outcome
  | .ok _ => .complete
  | .error .conflict => .conflict
  | .error _ => if batch.uncertain then .uncertain else .partly

def unverify (batch : Batch) : Batch :=
  { batch with
    graph := { batch.graph with verified := false }
    labels := { batch.labels with verified := false } }

def resetObservations (saved : Batch) : Batch :=
  { saved with
    graph := {}
    labels := { saved.labels with checked := false, verified := false } }

/-- The outcome of an attempt, the error that stopped it, and what it leaves in memory. -/
def reportOf (result : Except Failure Unit × Batch) : Outcome × Except Failure Unit × Batch :=
  (outcomeOf result.2 result.1, result.1, match result.1 with
    | .ok _ => result.2
    | .error _ => unverify result.2)

def publication (saved : Batch) : Program Call Call.Answer (Outcome × Except Failure Unit × Batch) := do
  let result ← run (resetObservations saved)
  return reportOf result

end Publication

section Recovery

variable [Fingerprint]

def checkAdoption (status : TicketStatus) (remote : IssueMapping) : Except Failure Unit :=
  match status with
  | .created mapping => ensure (mapping == remote) (.other "adoption conflicts with the saved mapping")
  | _ => .ok ()

def adopt (ticket : TicketKey) (issue : IssueNumber) : Publishing Unit := do
  let batch ← get
  let index ← context (batch.position ticket) "unknown ticket key"
  let planned ← context batch.plan.tickets[index]? "unknown ticket"
  let remote ← Client.read issue
  remote.checkContent planned.title (issueBody planned.body (batch.marker index))
  checkAdoption (batch.status index) remote.mapping
  setStatus index (.created remote.mapping)
  save

def authorizeRetry (ticket : TicketKey) : Publishing Unit := do
  let batch ← get
  let index ← context (batch.position ticket) "unknown ticket key"
  ensure (batch.status index).isUncertain (.other "ticket has no uncertain creation to retry")
  setStatus index .retryAuthorized
  save

def readSnapshot (id : BatchId) (visible : Option Batch) : Except Failure Batch := do
  let saved ← context visible "batch is missing or preparation is incomplete"
  saved.check id
  .ok saved

def saveNew (batch : Batch) : Program Call Call.Answer (Except Failure Unit) := do
  let outcome ← Program.perform (Call.persistNoclobber batch)
  return saveOutcome outcome

def prepare (id : BatchId) (plan : Plan) (visible : Option Batch) :
    Program Call Call.Answer (Except Failure Unit) :=
  match Batch.prepare id plan with
  | .error failure => return .error failure
  | .ok prepared =>
    match visible with
    | none => saveNew prepared
    | some _ => return do
      let saved ← readSnapshot id visible
      ensure (saved.planFingerprint == prepared.planFingerprint) (.other "batch already contains a different plan")

inductive Status where
  | prepared
  | partly
  | uncertain
  | conflict
  | unverified
  | complete
  deriving DecidableEq

def localStatus (batch : Batch) : Status :=
  if batch.uncertain then .uncertain
  else if batch.tickets.all fun progress => progress.status == .pending then .prepared
  else .partly

def observedStatus (batch : Batch) (mappings : List (Option IssueMapping)) : Status :=
  if (batch.tickets.zip mappings).any fun pair => pair.1.status != .pending && pair.2.isNone then .uncertain
  else if mappings.any Option.isSome then .partly
  else localStatus batch

def failedStatus : Failure → Status
  | .conflict => .conflict
  | .other _ => .unverified

def observedGraph (batch : Batch) (mappings : List (Option IssueMapping)) : Reading GraphProgress := do
  Graph.preflightCapacity batch mappings
  if batch.allCreated then Graph.observe batch else return {}

def labelledStatus (status : Status) : Except Failure LabelsProgress → Status
  | .ok labels => if labels.verified then .complete else status
  | .error failure => failedStatus failure

/-- What `status` reports of a saved batch; it saves nothing. -/
def status (saved : Batch) : Program Remote Remote.Answer Status := do
  match ← observe saved with
  | .error failure => return failedStatus failure
  | .ok mappings =>
    match ← observedGraph saved mappings with
    | .error failure => return failedStatus failure
    | .ok graph =>
      if graph.verified then return labelledStatus (observedStatus saved mappings) (← Labels.observe saved)
      else return observedStatus saved mappings

inductive Command where
  | prepare (plan : Plan)
  | publish
  | authorizeRetry (ticket : TicketKey) (acknowledged : Bool)
  | adopt (ticket : TicketKey) (issue : IssueNumber)
  | status

def Command.authority : Command → Option TicketKey
  | .authorizeRetry ticket _ => some ticket
  | _ => none

def onSaved (id : BatchId) (visible : Option Batch)
    (command : Batch → Program Call Call.Answer (Except Failure Unit)) : Program Call Call.Answer (Except Failure Unit) :=
  match readSnapshot id visible with
  | .error failure => return .error failure
  | .ok saved => command saved

/-- What a command does under the lock of its batch, given the snapshot it finds. -/
def Command.execute (id : BatchId) (visible : Option Batch) :
    Command → Program Call Call.Answer (Except Failure Unit)
  | .prepare plan => TicketPublication.prepare id plan visible
  | .publish => onSaved id visible fun saved => do
    let report ← publication saved
    return report.2.1
  | .authorizeRetry ticket acknowledged =>
    if acknowledged then onSaved id visible fun saved => do
      let result ← TicketPublication.authorizeRetry ticket saved
      return result.1
    else return .error (.other "acknowledge duplicate risk before retry authorization")
  | .adopt ticket issue => onSaved id visible fun saved => do
    let result ← TicketPublication.adopt ticket issue saved
    return result.1
  | .status => onSaved id visible fun saved => do
    let _ ← (TicketPublication.status saved).embed Call.remote fun _ answer => answer
    return .ok ()

end Recovery

end TicketPublication

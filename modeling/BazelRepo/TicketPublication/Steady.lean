import BazelRepo.TicketPublication.Publish

namespace TicketPublication

open Library Library.Stateful

/-- What a running command knows: the snapshot, whether it is durable, and the tickets whose fresh intents
it holds. -/
structure Knowledge where
  saved : Option Batch
  synced : Bool
  intents : List Nat

inductive TicketStatus.Advances (authorised : Prop) : TicketStatus → TicketStatus → Prop where
  | same (status : TicketStatus) : Advances authorised status status
  | intent : Advances authorised .pending .creating
  | consume : Advances authorised .retryAuthorized .creating
  | create {status : TicketStatus} {mapping : IssueMapping}
    (agrees : ∀ earlier, status = .created earlier → earlier = mapping) : Advances authorised status (.created mapping)
  | authorize {status : TicketStatus} (granted : authorised) (uncertain : status.isUncertain = true) :
    Advances authorised status .retryAuthorized

def Batch.keyAt (batch : Batch) (index : Nat) : Option TicketKey := (batch.plan.tickets[index]?).map Ticket.key

/-- One save: the plan stays, and each ticket takes a step of its own. -/
structure Batch.Advances (authority : Option TicketKey) (before after : Batch) : Prop where
  id : after.id = before.id
  plan : after.plan = before.plan
  steps : ∀ index, TicketStatus.Advances (∃ key, authority = some key ∧ before.keyAt index = some key)
    (before.status index) (after.status index)

def freshIntents (before after : Batch) : List Nat :=
  (List.range after.tickets.length).filter fun index =>
    before.status index != .creating && after.status index == .creating

def Knowledge.afterPersist (known : Knowledge) (batch : Batch) : SaveOutcome → Knowledge
  | .refused => { known with intents := [] }
  | .unsynced => ⟨some batch, false, []⟩
  | .saved => ⟨some batch, true, (known.saved.map fun before => freshIntents before batch).getD []⟩

/-- A create request must be for a fresh durable intent of a ticket whose blockers have durable issues. -/
def CreateAllowed (known : Knowledge) (title body : String) : Prop :=
  ∃ (batch : Batch) (index : Nat) (ticket : Ticket), known.saved = some batch ∧ known.synced = true ∧
    index ∈ known.intents ∧ batch.plan.tickets[index]? = some ticket ∧ title = ticket.title ∧
    body = issueBody ticket.body (batch.marker index) ∧ ticket.blockers.all batch.blockerCreated = true

theorem Batch.status_congr {a b : Batch} (same : a.tickets = b.tickets) (index : Nat) :
    a.status index = b.status index := by
  rw [status, status, same]

theorem advances_of_current {id : BatchId} {authority : Option TicketKey} {saved batch : Batch}
    (identity : batch.id = id) (named : saved.id = id) (planned : saved.plan = batch.plan)
    (tickets : saved.tickets = batch.tickets) : saved.Advances authority batch where
  id := identity.trans named.symm
  plan := planned.symm
  steps := by
    intro index
    rw [Batch.status_congr tickets]
    exact .same _

section Protocol

variable [Fingerprint]

def PersistAllowed (id : BatchId) (authority : Option TicketKey) (known : Knowledge) (batch : Batch) : Prop :=
  batch.check id = .ok () ∧ ∃ before, known.saved = some before ∧ before.Advances authority batch

def protocol (id : BatchId) (authority : Option TicketKey) : Protocol Call Call.Answer Knowledge where
  allowed known
    | .remote _ => True
    | .create title body => CreateAllowed known title body
    | .persist batch => PersistAllowed id authority known batch
    | .persistNoclobber batch =>
      known.saved = none ∧ batch.check id = .ok () ∧ ∀ index, batch.status index = .pending
  after known
    | .remote _, _ => known
    | .create .., _ => { known with intents := [] }
    | .persist batch, outcome => known.afterPersist batch outcome
    | .persistNoclobber batch, outcome => known.afterPersist batch outcome

def Current (id : BatchId) (known : Knowledge) (batch : Batch) : Prop :=
  batch.id = id ∧ ∃ saved, known.saved = some saved ∧ saved.id = id ∧ saved.plan = batch.plan ∧
    saved.tickets = batch.tickets

variable {id : BatchId} {authority : Option TicketKey}

theorem keeps_lift {α : Type} {pre : Knowledge → Batch → Prop} (reading : Reading α) :
    Keeps (protocol id authority) pre (Reading.lift reading) fun known batch _ => pre known batch := by
  intro known batch before
  have inert : (reading.run.embed Call.remote fun _ answer => answer).Follows (protocol id authority)
      (fun later _ => later = known) known :=
    Program.follows_embed (fun _ => trivial) (fun _ _ => rfl) (fun _ => rfl) _
  unfold Reading.lift
  apply Program.Follows.bind _ inert
  rintro later result rfl a _
  exact before

theorem keeps_save {saved batch : Batch} (identity : batch.id = id)
    (advances : batch.check id = .ok () → saved.Advances authority batch) :
    Keeps (protocol id authority) (fun known state => known.saved = some saved ∧ state = batch) save
      fun known state _ =>
        state = batch ∧ known = ⟨some batch, true, freshIntents saved batch⟩ ∧ batch.check id = .ok () := by
  have first : Keeps (protocol id authority) (fun known state => known.saved = some saved ∧ state = batch)
      (get : Publishing Batch)
      fun known state current => (known.saved = some saved ∧ state = batch) ∧ current = state :=
    keeps_get fun _ _ before => ⟨before, rfl⟩
  apply Keeps.bind first
  intro current
  have second : Keeps (protocol id authority)
      (fun known state => (known.saved = some saved ∧ state = batch) ∧ current = state)
      (liftM (current.check current.id) : Publishing Unit)
      fun known state _ =>
        ((known.saved = some saved ∧ state = batch) ∧ current = state) ∧ current.check current.id = .ok () :=
    keeps_except fun _ _ _ checked before => ⟨before, checked⟩
  apply Keeps.bind second
  intro _
  rintro known state ⟨⟨⟨found, rfl⟩, rfl⟩, checked⟩
  rw [bind_apply]
  rw [identity] at checked
  refine ⟨⟨checked, saved, found, advances checked⟩, ?_⟩
  intro outcome _ same
  cases outcome with
  | refused => cases same
  | unsynced => cases same
  | saved =>
    refine ⟨rfl, ?_, checked⟩
    show known.afterPersist _ .saved = _
    rw [Knowledge.afterPersist, found]
    rfl

abbrev Steady {α : Type} (id : BatchId) (authority : Option TicketKey) (step : Publishing α) : Prop :=
  Keeps (protocol id authority) (Current id) step fun known batch _ => Current id known batch

theorem steady_save : Steady id authority save := by
  rintro known batch ⟨identity, saved, found, named, planned, tickets⟩
  have advances : saved.Advances authority batch := advances_of_current identity named planned tickets
  apply Program.Follows.mono _ (keeps_save identity (fun _ => advances) known batch ⟨found, rfl⟩)
  rintro later result promised a same
  rcases promised a same with ⟨state, known, _⟩
  rw [state, known]
  exact ⟨identity, batch, rfl, identity, rfl, rfl⟩

end Protocol

variable [Fingerprint] {id : BatchId} {authority : Option TicketKey} {α β : Type}

theorem Steady.bind {step : Publishing α} {f : α → Publishing β} (first : Steady id authority step)
    (second : ∀ a, Steady id authority (f a)) : Steady id authority (step >>= f) := Keeps.bind first second

theorem steady_pure (a : α) : Steady id authority (pure a) := keeps_pure fun _ _ before => before

theorem steady_get : Steady id authority (get : Publishing Batch) := keeps_get fun _ _ before => before

theorem steady_reading (reading : Reading α) : Steady id authority (liftM reading : Publishing α) :=
  keeps_lift reading

theorem steady_except (x : Except Failure α) : Steady id authority (liftM x : Publishing α) :=
  keeps_except fun _ _ _ _ before => before

theorem steady_modify {f : Batch → Batch} (identity : ∀ batch, (f batch).id = batch.id)
    (plan : ∀ batch, (f batch).plan = batch.plan) (tickets : ∀ batch, (f batch).tickets = batch.tickets) :
    Steady id authority (modify f : Publishing Unit) := by
  apply keeps_modify
  rintro known batch ⟨named, saved, found, savedId, planned, same⟩
  refine ⟨(identity batch).trans named, saved, found, savedId, ?_, ?_⟩
  · rw [plan, planned]
  · rw [tickets, same]

theorem steady_setGraph (graph : GraphProgress) : Steady id authority (setGraph graph) :=
  steady_modify (fun _ => rfl) (fun _ => rfl) fun _ => rfl

theorem steady_setLabels (labels : LabelsProgress) : Steady id authority (setLabels labels) :=
  steady_modify (fun _ => rfl) (fun _ => rfl) fun _ => rfl

theorem Steady.ite {c : Prop} [Decidable c] {yes no : Publishing α} (first : Steady id authority yes)
    (second : Steady id authority no) : Steady id authority (if c then yes else no) :=
  Keeps.ite (fun _ => first) fun _ => second

theorem steady_forM {f : β → Publishing PUnit} (inputs : List β) (each : ∀ b, Steady id authority (f b)) :
    Steady id authority (inputs.forM f) := keeps_forM fun b _ => each b

namespace Graph

theorem steady_addParentLink : Steady id authority addParentLink :=
  steady_modify (fun _ => rfl) (fun _ => rfl) fun _ => rfl

theorem steady_addDependencyLink : Steady id authority addDependencyLink :=
  steady_modify (fun _ => rfl) (fun _ => rfl) fun _ => rfl

theorem steady_linkParent (issue parent : IssueMapping) : Steady id authority (linkParent issue parent) := by
  unfold linkParent
  apply steady_save.bind
  intro _
  apply (steady_reading _).bind
  intro _
  apply (steady_reading _).bind
  intro _
  apply (steady_reading _).bind
  intro _
  exact steady_except _

theorem steady_ensureParent (index : Nat) (issue parent : IssueMapping) :
    Steady id authority (ensureParent index issue parent) := by
  unfold ensureParent
  apply steady_get.bind
  intro _
  apply (steady_reading _).bind
  intro _
  apply (steady_reading _).bind
  intro _
  apply (steady_reading _).bind
  intro _
  have ending : Steady id authority (do
      let batch ← get
      let _ ← checkTicket batch index
      addParentLink
      save) :=
    steady_get.bind fun _ => (steady_reading _).bind fun _ => steady_addParentLink.bind fun _ => steady_save
  exact Steady.ite ending ((steady_linkParent _ _).bind fun _ => ending)

theorem steady_linkDependency (issue blocker : IssueMapping) :
    Steady id authority (linkDependency issue blocker) := by
  unfold linkDependency
  apply steady_save.bind
  intro _
  apply (steady_reading _).bind
  intro _
  apply (steady_reading _).bind
  intro _
  apply (steady_except _).bind
  intro _
  exact steady_except _

theorem steady_ensureDependency (index : Nat) (issue blocker : IssueMapping) :
    Steady id authority (ensureDependency index issue blocker) := by
  unfold ensureDependency
  apply steady_get.bind
  intro _
  apply (steady_reading _).bind
  intro _
  apply (steady_reading _).bind
  intro _
  apply (steady_except _).bind
  intro _
  have ending : Steady id authority (do
      let batch ← get
      let _ ← checkTicket batch index
      addDependencyLink
      save) :=
    steady_get.bind fun _ => (steady_reading _).bind fun _ => steady_addDependencyLink.bind fun _ => steady_save
  exact Steady.ite ending ((steady_linkDependency _ _).bind fun _ => ending)

theorem steady_linkTicket (parent : IssueMapping) (ticket : TicketGraph × Nat) :
    Steady id authority (linkTicket parent ticket) := by
  unfold linkTicket
  have ending : Steady id authority (ticket.1.missing.forM (ensureDependency ticket.2 ticket.1.issue)) :=
    steady_forM _ fun blocker => steady_ensureDependency _ _ blocker
  exact Steady.ite ending ((steady_ensureParent _ _ _).bind fun _ => ending)

theorem steady_linkTickets (graph : Graph) : Steady id authority (linkTickets graph) := by
  unfold linkTickets
  apply (steady_forM _ fun ticket => steady_linkTicket graph.parent ticket).bind
  intro _
  apply steady_get.bind
  intro _
  apply (steady_reading _).bind
  intro _
  apply (steady_setGraph _).bind
  intro _
  apply steady_save.bind
  intro _
  exact steady_except _

theorem steady_run : Steady id authority run := by
  unfold run
  apply (steady_setGraph _).bind
  intro _
  apply steady_save.bind
  intro _
  apply steady_get.bind
  intro _
  apply (steady_reading _).bind
  intro _
  apply (steady_setGraph _).bind
  intro _
  apply steady_save.bind
  intro _
  exact Steady.ite (steady_pure _) (steady_linkTickets _)

end Graph

namespace Labels

theorem steady_setTicket (index : Nat) (progress : LabelProgress) : Steady id authority (setTicket index progress) :=
  steady_modify (fun _ => rfl) (fun _ => rfl) fun _ => rfl

theorem steady_unverify : Steady id authority unverify := steady_modify (fun _ => rfl) (fun _ => rfl) fun _ => rfl

theorem steady_applyLabels (index : Nat) (remaining : List String) :
    Steady id authority (applyLabels index remaining) := by
  unfold applyLabels
  apply steady_unverify.bind
  intro _
  apply steady_save.bind
  intro _
  apply steady_get.bind
  intro _
  apply (steady_except _).bind
  intro _
  apply (steady_reading _).bind
  intro _
  apply (steady_reading _).bind
  intro _
  apply (steady_setTicket _ _).bind
  intro _
  apply (steady_except _).bind
  intro _
  exact steady_save

theorem steady_labelTicket (index : Nat) : Steady id authority (labelTicket index) := by
  unfold labelTicket
  apply steady_get.bind
  intro _
  apply (steady_reading _).bind
  intro _
  apply (steady_setTicket _ _).bind
  intro _
  exact Steady.ite (steady_pure _) (steady_applyLabels _ _)

theorem steady_run : Steady id authority run := by
  unfold run
  apply steady_get.bind
  intro _
  apply (steady_except _).bind
  intro _
  apply (steady_reading _).bind
  intro _
  apply (steady_setLabels _).bind
  intro _
  apply steady_save.bind
  intro _
  apply (steady_forM _ steady_labelTicket).bind
  intro _
  apply steady_get.bind
  intro _
  apply (steady_reading _).bind
  intro _
  apply (steady_setGraph _).bind
  intro _
  apply (steady_except _).bind
  intro _
  apply steady_get.bind
  intro _
  apply (steady_reading _).bind
  intro _
  apply (steady_setLabels _).bind
  intro _
  apply (steady_except _).bind
  intro _
  exact steady_save

end Labels

end TicketPublication

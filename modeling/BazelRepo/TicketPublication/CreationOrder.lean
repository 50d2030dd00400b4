import BazelRepo.TicketPublication.Planning
import Mathlib.Data.List.Find

namespace TicketPublication

open Library Library.Stateful

def Batch.createdKeys (batch : Batch) : List TicketKey :=
  (batch.tickets.filter fun progress => progress.status.isCreated).map Progress.key

/-- The order in which the loop creates what is left, by the plan and what is created alone. -/
def Batch.creationOrder (batch : Batch) : List (Ticket × Nat) :=
  selection (fun ticket => ticket.1.key) (fun ticket => ticket.1.blockerKeys) batch.plan.tickets.zipIdx
    batch.plan.tickets.length batch.createdKeys

/-- A publishable plan with the progress of each ticket under its own key. -/
structure Batch.Aligned (batch : Batch) : Prop where
  plan : batch.plan.Publishable
  keys : batch.tickets.map Progress.key = batch.plan.keys

theorem aligned_of_check [Fingerprint] {batch : Batch} {id : BatchId} (checked : batch.check id = .ok ()) :
    batch.Aligned where
  plan := (check_eq_ok.mp (tickets_of_check checked).2.1).2
  keys := by
    have identities := congrArg (List.map Prod.fst) (tickets_of_check checked).2.2
    rw [List.map_map, List.map_map] at identities
    exact identities

namespace Batch

theorem mem_createdKeys {batch : Batch} {key : TicketKey} :
    key ∈ batch.createdKeys ↔ ∃ progress ∈ batch.tickets, progress.key = key ∧ progress.status.isCreated = true := by
  unfold createdKeys
  simp only [List.mem_map, List.mem_filter]
  constructor
  · rintro ⟨progress, ⟨member, created⟩, same⟩
    exact ⟨progress, member, same, created⟩
  · rintro ⟨progress, member, same, created⟩
    exact ⟨progress, ⟨member, created⟩, same⟩

variable {batch : Batch}

theorem Aligned.withStatus (aligned : batch.Aligned) (index : Nat) (status : TicketStatus) :
    (batch.withStatus index status).Aligned where
  plan := aligned.plan
  keys := (keys_withStatus batch index status).trans aligned.keys

theorem Aligned.length (aligned : batch.Aligned) : batch.tickets.length = batch.plan.tickets.length := by
  have lengths := congrArg List.length aligned.keys
  rw [Plan.keys, List.length_map, List.length_map] at lengths
  exact lengths

theorem Aligned.progress (aligned : batch.Aligned) {ticket : Ticket} {index : Nat}
    (planned : batch.plan.tickets[index]? = some ticket) :
    ∃ progress, batch.tickets[index]? = some progress ∧ progress.key = ticket.key := by
  have found := congrArg (fun keys => keys[index]?) aligned.keys
  simp only [Plan.keys, List.getElem?_map, planned, Option.map_some, Option.map_eq_some_iff] at found
  exact found

theorem Aligned.isCreated (aligned : batch.Aligned) {ticket : Ticket} {index : Nat}
    (planned : batch.plan.tickets[index]? = some ticket) :
    (batch.status index).isCreated = true ↔ ticket.key ∈ batch.createdKeys := by
  rcases aligned.progress planned with ⟨progress, found, named⟩
  rw [status_of_getElem? found, mem_createdKeys]
  constructor
  · intro created
    exact ⟨progress, List.mem_of_getElem? found, named, created⟩
  · rintro ⟨other, member, same, created⟩
    have distinct : (batch.tickets.map Progress.key).Nodup := aligned.keys ▸ aligned.plan.keys
    have equal : other = progress :=
      List.inj_on_of_nodup_map distinct member (List.mem_of_getElem? found) (same.trans named.symm)
    exact equal ▸ created

theorem blockerCreated_eq (ticket : Ticket) :
    ticket.blockers.all batch.blockerCreated = ticket.blockerKeys.all batch.createdKeys.contains := by
  have created : ∀ key, batch.blockerCreated (.ticket key) = batch.createdKeys.contains key := by
    intro key
    rw [Bool.eq_iff_iff, List.contains_eq_mem, decide_eq_true_eq, mem_createdKeys]
    simp [blockerCreated]
  unfold Ticket.blockerKeys
  induction ticket.blockers with
  | nil => rfl
  | cons blocker rest ih =>
    cases blocker with
    | ticket key =>
      rw [List.all_cons, ih, created]
      rfl
    | issue number =>
      rw [List.all_cons, ih]
      rfl

theorem Aligned.nextTicket (aligned : batch.Aligned) : batch.nextTicket =
    batch.plan.tickets.zipIdx.find? fun ticket =>
      !batch.createdKeys.contains ticket.1.key && ticket.1.blockerKeys.all batch.createdKeys.contains := by
  unfold Batch.nextTicket
  apply List.find?_congr
  rintro ⟨ticket, index⟩ member
  have created := aligned.isCreated (List.mem_zipIdx_iff_getElem?.mp member)
  have same : (batch.status index).isCreated = batch.createdKeys.contains ticket.key := by
    rw [Bool.eq_iff_iff, List.contains_eq_mem, decide_eq_true_eq]
    exact created
  rw [same, blockerCreated_eq]

theorem getElem?_withStatus (batch : Batch) (index other : Nat) (status : TicketStatus) :
    (batch.withStatus index status).tickets[other]? =
      if index = other then batch.tickets[other]?.map fun progress => { progress with status := status }
      else batch.tickets[other]? := by
  rw [Batch.withStatus, List.getElem?_modify]
  by_cases same : index = other
  · simp [same]
  · simp [same]

theorem Aligned.createdKeys_withStatus (aligned : batch.Aligned) {ticket : Ticket} {index : Nat}
    (planned : batch.plan.tickets[index]? = some ticket) (mapping : IssueMapping) (key : TicketKey) :
    key ∈ (batch.withStatus index (.created mapping)).createdKeys ↔ key ∈ ticket.key :: batch.createdKeys := by
  rcases aligned.progress planned with ⟨progress, found, named⟩
  rw [List.mem_cons, mem_createdKeys, mem_createdKeys]
  constructor
  · rintro ⟨changed, member, rfl, created⟩
    rcases List.getElem?_of_mem member with ⟨other, at_other⟩
    rw [getElem?_withStatus] at at_other
    by_cases same : index = other
    · subst same
      rw [if_pos rfl, found, Option.map_some, Option.some.injEq] at at_other
      exact .inl (by rw [← at_other, named])
    · rw [if_neg same] at at_other
      exact .inr ⟨changed, List.mem_of_getElem? at_other, rfl, created⟩
  · rintro (rfl | ⟨other, member, rfl, created⟩)
    · have changed := getElem?_withStatus batch index index (.created mapping)
      rw [if_pos rfl, found, Option.map_some] at changed
      exact ⟨_, List.mem_of_getElem? changed, named, rfl⟩
    · rcases List.getElem?_of_mem member with ⟨place, at_place⟩
      have changed := getElem?_withStatus batch index place (.created mapping)
      rw [at_place] at changed
      by_cases same : index = place
      · rw [if_pos same, Option.map_some] at changed
        exact ⟨_, List.mem_of_getElem? changed, rfl, rfl⟩
      · rw [if_neg same] at changed
        exact ⟨other, List.mem_of_getElem? changed, rfl, created⟩

end Batch

/-! What the steps of a turn leave in memory, whatever they are answered. -/

abbrev anything : Protocol Call Call.Answer Unit := .free Call Call.Answer

/-- From this batch the step ends, when it does not fail, with one of these. -/
abbrev Leads {α : Type} (before : Batch) (step : Publishing α) (after : Batch → Prop) : Prop :=
  Keeps anything (fun _ batch => batch = before) step fun _ batch _ => after batch

variable {α β : Type} {before : Batch}

theorem Leads.bind {step : Publishing α} {f : α → Publishing β} {middle after : Batch → Prop}
    (first : Leads before step middle) (second : ∀ a batch, middle batch → Leads batch (f a) after) :
    Leads before (step >>= f) after := by
  apply Keeps.bind first
  intro a known batch holds
  exact second a batch holds known batch rfl

theorem Leads.mono {step : Publishing α} {after weaker : Batch → Prop} (leads : Leads before step after)
    (implies : ∀ batch, after batch → weaker batch) : Leads before step weaker :=
  Keeps.mono leads (fun _ _ same => same) fun _ batch _ holds => implies batch holds

theorem Leads.bind_congr {step : Publishing α} {f g : α → Publishing β} {after : Batch → Prop}
    (first : Leads before step after) (same : ∀ a batch, after batch → f a batch = g a batch) :
    (step >>= f) before = (step >>= g) before :=
  Keeps.bind_congr first (fun _ batch a holds => same a batch holds) () rfl

theorem leads_get : Leads before (get : Publishing Batch) fun batch => batch = before := keeps_get fun _ _ same => same

theorem leads_pure (a : α) : Leads before (pure a : Publishing α) fun batch => batch = before :=
  keeps_pure fun _ _ same => same

theorem leads_except (x : Except Failure α) : Leads before (liftM x : Publishing α) fun batch => batch = before :=
  keeps_except fun _ _ _ _ same => same

theorem leads_reading (reading : Reading α) :
    Leads before (liftM reading : Publishing α) fun batch => batch = before := by
  rintro known batch rfl
  show (Reading.lift reading batch).Follows anything _ known
  have inert : (reading.run.embed Call.remote fun _ answer => answer).Follows anything (fun _ _ => True) known :=
    Program.follows_embed (fun _ => trivial) (fun _ _ => rfl) (fun _ => trivial) _
  unfold Reading.lift
  apply Program.Follows.bind _ inert
  intro later result _ a _
  rfl

theorem leads_calling (call : Call) : Leads before (calling call) fun batch => batch = before := by
  rintro known _ rfl
  refine ⟨trivial, ?_⟩
  rintro answer _ ⟨⟩
  rfl

theorem leads_throw (failure : Failure) (after : Batch → Prop) :
    Leads before (throw failure : Publishing α) after := keeps_throw failure

theorem leads_setStatus (index : Nat) (status : TicketStatus) :
    Leads before (setStatus index status) fun batch => batch = before.withStatus index status := by
  apply keeps_modify
  rintro known _ rfl
  rfl

theorem leads_create (title body : String) : Leads before (create title body) fun batch => batch = before := by
  unfold create
  apply (leads_calling _).bind
  rintro answer _ rfl
  apply (leads_except _).bind
  rintro issue _ rfl
  apply (leads_except _).bind
  rintro _ _ rfl
  exact leads_pure _

section Turn

variable [Fingerprint]

theorem leads_save : Leads before save fun batch => batch = before := by
  unfold save
  apply leads_get.bind
  rintro batch _ rfl
  apply (leads_except _).bind
  rintro _ _ rfl
  apply (leads_calling _).bind
  rintro outcome _ rfl
  exact leads_except _

theorem leads_createTicket (ticket : Ticket) (index : Nat) :
    Leads before (createTicket ticket index) fun batch => batch = before.withStatus index .creating := by
  unfold createTicket
  apply (leads_setStatus index .creating).bind
  rintro _ _ rfl
  apply leads_save.bind
  rintro _ _ rfl
  apply leads_get.bind
  rintro batch _ rfl
  exact leads_create _ _

/-- Finding or creating the issue changes at most the status of its ticket. -/
def Touches (index : Nat) (before after : Batch) : Prop := after = before ∨ after = before.withStatus index .creating

theorem leads_resumeTicket (ticket : Ticket) (index : Nat) :
    Leads before (resumeTicket ticket index) (Touches index before) := by
  unfold resumeTicket
  apply leads_get.bind
  rintro batch _ rfl
  apply (leads_reading _).bind
  rintro found _ rfl
  split
  · split
    · exact (leads_createTicket ticket index).mono fun _ same => .inr same
    · exact leads_throw _ _
  · exact (leads_pure _).mono fun _ same => .inl same
  · exact leads_throw _ _

theorem leads_issueFor (observed : List (Option IssueMapping)) (ticket : Ticket) (index : Nat) :
    Leads before (issueFor observed ticket index) (Touches index before) := by
  unfold issueFor
  apply leads_get.bind
  rintro batch _ rfl
  split
  · exact (leads_reading _).mono fun _ same => .inl same
  · split
    · exact (leads_createTicket ticket index).mono fun _ same => .inr same
    · exact (leads_createTicket ticket index).mono fun _ same => .inr same
    · exact leads_resumeTicket ticket index
    · exact leads_resumeTicket ticket index

omit [Fingerprint] in
theorem leads_verifyIssue (ticket : Ticket) (index : Nat) (created : Issue) :
    Leads before (verifyIssue ticket index created) fun batch => batch = before := by
  unfold verifyIssue
  apply leads_get.bind
  rintro batch _ rfl
  apply (leads_reading _).bind
  rintro checked _ rfl
  apply (leads_except _).bind
  rintro _ _ rfl
  apply (leads_except _).bind
  rintro _ _ rfl
  exact leads_pure _

theorem leads_saveMapping (index : Nat) (mapping : IssueMapping) :
    Leads before (saveMapping index mapping) fun batch => batch = before.withStatus index (.created mapping) := by
  unfold saveMapping
  apply (leads_setStatus index (.created mapping)).bind
  rintro _ _ rfl
  have saving : Keeps anything (fun _ batch => batch = before.withStatus index (.created mapping)) (attempt save)
      fun _ batch result => ∀ u, result = .ok u → batch = before.withStatus index (.created mapping) := by
    rintro known _ rfl
    unfold attempt
    apply Program.Follows.bind _ (leads_save known _ rfl)
    rintro later result promised _ ⟨⟩
    exact promised
  apply Keeps.bind saving
  intro result
  cases result with
  | ok u => exact keeps_pure fun _ _ saved => saved u rfl
  | error failure =>
    have resetting : Keeps anything
        (fun _ batch => ∀ u : Unit, Except.error failure = .ok u → batch = before.withStatus index (.created mapping))
        (setStatus index .creating) fun _ _ _ => True := keeps_modify fun _ _ _ => trivial
    apply Keeps.bind resetting
    intro _
    exact keeps_throw failure

omit [Fingerprint] in
theorem withStatus_withStatus (batch : Batch) (index : Nat) (first second : TicketStatus) :
    (batch.withStatus index first).withStatus index second = batch.withStatus index second := by
  unfold Batch.withStatus
  congr 1
  rw [List.modify_modify_eq]
  rfl

theorem leads_publishTicket (observed : List (Option IssueMapping)) (ticket : Ticket × Nat) :
    Leads before (publishTicket observed ticket)
      fun batch => ∃ mapping, batch = before.withStatus ticket.2 (.created mapping) := by
  unfold publishTicket
  apply (leads_issueFor observed ticket.1 ticket.2).bind
  intro created batch touched
  apply (leads_verifyIssue ticket.1 ticket.2 created).bind
  rintro mapping _ rfl
  apply (leads_saveMapping ticket.2 mapping).mono
  rintro _ rfl
  rcases touched with rfl | rfl
  · exact ⟨mapping, rfl⟩
  · exact ⟨mapping, withStatus_withStatus _ _ _ _⟩

/-! The loop publishes the tickets in the order of creation. -/

def Batch.turns (batch : Batch) (turns : Nat) : List (Ticket × Nat) :=
  selection (fun ticket => ticket.1.key) (fun ticket => ticket.1.blockerKeys) batch.plan.tickets.zipIdx turns
    batch.createdKeys

section Order

variable {batch : Batch}

omit [Fingerprint]

theorem Batch.Aligned.turns_succ (aligned : batch.Aligned) (turns : Nat) : batch.turns (turns + 1) =
    match batch.nextTicket with
    | none => []
    | some ticket => ticket :: selection (fun ticket => ticket.1.key) (fun ticket => ticket.1.blockerKeys)
        batch.plan.tickets.zipIdx turns (ticket.1.key :: batch.createdKeys) := by
  rw [Batch.turns, selection, aligned.nextTicket]
  cases batch.plan.tickets.zipIdx.find? fun ticket =>
    !batch.createdKeys.contains ticket.1.key && ticket.1.blockerKeys.all batch.createdKeys.contains <;> rfl

theorem keys_zipIdx (plan : Plan) : plan.tickets.zipIdx.map (fun ticket => ticket.1.key) = plan.keys := by
  rw [Plan.keys, ← List.zipIdx_map_fst 0 plan.tickets, List.map_map, List.zipIdx_map_fst]
  rfl

theorem Plan.Publishable.zipIdx {plan : Plan} (publishable : plan.Publishable) :
    Acyclic (Needs (fun ticket => ticket.1.key) (fun ticket => ticket.1.blockerKeys) plan.tickets.zipIdx) ∧
      ∀ ticket ∈ plan.tickets.zipIdx, ∀ key ∈ ticket.1.blockerKeys,
        key ∈ plan.tickets.zipIdx.map fun ticket => ticket.1.key := by
  have planned : ∀ ticket ∈ plan.tickets.zipIdx, ticket.1 ∈ plan.tickets := fun ticket member =>
    List.mem_of_getElem? (List.mem_zipIdx_iff_getElem?.mp member)
  constructor
  · intro key circle
    apply publishable.acyclic key
    refine Relation.TransGen.mono ?_ _ _ circle
    rintro blocker blocked ⟨ticket, member, same, needed⟩
    exact ⟨ticket.1, planned ticket member, same, needed⟩
  · intro ticket member key needed
    rw [keys_zipIdx]
    exact publishable.blockers ticket.1 (planned ticket member) key (mem_blockerKeys.mp needed)

theorem unfinished_tickets (batch : Batch) :
    (unfinished (fun ticket => ticket.1.key) batch.plan.tickets.zipIdx batch.createdKeys).card ≤
      batch.plan.tickets.length := by
  have few : (unfinished (fun ticket => ticket.1.key) batch.plan.tickets.zipIdx batch.createdKeys).card ≤
      batch.plan.tickets.zipIdx.length := unfinished_le _
  rw [List.length_zipIdx] at few
  exact few

theorem turns_eq {turns : Nat} (enough : batch.plan.tickets.length ≤ turns) : batch.turns turns = batch.creationOrder := by
  have few := unfinished_tickets batch
  exact selection_enough _ _ _ (by omega) few

theorem Batch.Aligned.mem_creationOrder (aligned : batch.Aligned) (ticket : Ticket) (index : Nat) :
    (ticket, index) ∈ batch.creationOrder ↔
      batch.plan.tickets[index]? = some ticket ∧ (batch.status index).isCreated = false := by
  have status : batch.plan.tickets[index]? = some ticket →
      ((batch.status index).isCreated = false ↔ ticket.key ∉ batch.createdKeys) := by
    intro planned
    rw [← aligned.isCreated planned, Bool.not_eq_true]
  constructor
  · intro selected
    rcases (selection_distinct _ _).2 _ selected with ⟨member, missing⟩
    have planned := List.mem_zipIdx_iff_getElem?.mp member
    exact ⟨planned, (status planned).mpr missing⟩
  · rintro ⟨planned, uncreated⟩
    apply selection_complete aligned.plan.zipIdx.1 aligned.plan.zipIdx.2 _ _ _ (unfinished_tickets batch)
    · exact List.mem_zipIdx_iff_getElem?.mpr planned
    · exact (status planned).mp uncreated
    · rw [keys_zipIdx]
      exact aligned.plan.keys

theorem creationOrder_nodup (batch : Batch) : (batch.creationOrder.map fun ticket => ticket.1.key).Nodup :=
  (selection_distinct _ _).1

theorem creationOrder_ordered {before after : List (Ticket × Nat)} {ticket : Ticket × Nat}
    (split : batch.creationOrder = before ++ ticket :: after) {key : TicketKey}
    (blocked : .ticket key ∈ ticket.1.blockers) :
    key ∈ batch.createdKeys ∨ key ∈ before.map fun earlier => earlier.1.key :=
  selection_ordered _ _ before after ticket split key (mem_blockerKeys.mpr blocked)

end Order

theorem publishTickets_succ (observed : List (Option IssueMapping)) (turns : Nat) (batch : Batch) :
    publishTickets observed (turns + 1) batch =
      (match batch.nextTicket with
      | none => pure ()
      | some ticket => publishTicket observed ticket >>= fun _ => publishTickets observed turns : Publishing Unit)
        batch := rfl

theorem publishTickets_eq (observed : List (Option IssueMapping)) (turns : Nat) : ∀ {batch : Batch}, batch.Aligned →
    publishTickets observed turns batch = ((batch.turns turns).forM (publishTicket observed)) batch := by
  induction turns with
  | zero =>
    intro batch _
    rfl
  | succ turns ih =>
    intro batch aligned
    rw [publishTickets_succ, aligned.turns_succ]
    cases next : batch.nextTicket with
    | none => rfl
    | some ticket =>
      have planned := (Batch.nextTicket_eq_some next).1
      apply (leads_publishTicket observed ticket).bind_congr
      rintro _ _ ⟨mapping, rfl⟩
      rw [ih (aligned.withStatus _ _), Batch.turns, selection_congr turns (aligned.createdKeys_withStatus planned mapping)]
      rfl

theorem leads_publishTickets (observed : List (Option IssueMapping)) (turns : Nat) : ∀ {batch : Batch}, batch.Aligned →
    Leads batch (publishTickets observed turns) fun after => after.Aligned ∧ after.plan = batch.plan ∧
      ∀ key, key ∈ batch.createdKeys ∨ key ∈ (batch.turns turns).map (fun ticket => ticket.1.key) →
        key ∈ after.createdKeys := by
  induction turns with
  | zero =>
    intro batch aligned
    apply (leads_pure ()).mono
    rintro _ rfl
    refine ⟨aligned, rfl, ?_⟩
    rintro key (created | selected)
    · exact created
    · cases selected
  | succ turns ih =>
    intro start aligned
    rintro known batch rfl
    rw [publishTickets_succ, aligned.turns_succ]
    cases next : batch.nextTicket with
    | none =>
      rintro _ ⟨⟩
      refine ⟨aligned, rfl, ?_⟩
      rintro key (created | selected)
      · exact created
      · cases selected
    | some ticket =>
      have planned := (Batch.nextTicket_eq_some next).1
      have turn : Leads batch (publishTicket observed ticket >>= fun _ => publishTickets observed turns)
          fun after => after.Aligned ∧ after.plan = batch.plan ∧
            ∀ key, key ∈ batch.createdKeys ∨ key ∈ (ticket :: selection (fun ticket : Ticket × Nat => ticket.1.key)
                (fun ticket => ticket.1.blockerKeys) batch.plan.tickets.zipIdx turns
                (ticket.1.key :: batch.createdKeys)).map (fun ticket => ticket.1.key) → key ∈ after.createdKeys := by
        apply (leads_publishTicket observed ticket).bind
        rintro _ _ ⟨mapping, rfl⟩
        have created := aligned.createdKeys_withStatus planned mapping
        apply (ih (aligned.withStatus _ _)).mono
        rintro after ⟨later, plan, reached⟩
        refine ⟨later, plan, ?_⟩
        intro key either
        apply reached
        rw [created, Batch.turns, selection_congr turns created, List.mem_cons]
        rw [List.map_cons, List.mem_cons] at either
        tauto
      exact turn known batch rfl

omit [Fingerprint] in
theorem Batch.Aligned.allCreated {batch : Batch} (aligned : batch.Aligned)
    (created : ∀ key ∈ batch.plan.keys, key ∈ batch.createdKeys) : batch.allCreated = true := by
  unfold Batch.allCreated
  rw [List.all_eq_true]
  intro progress member
  rcases List.getElem?_of_mem member with ⟨index, found⟩
  have inside : index < batch.plan.tickets.length := aligned.length ▸ (List.getElem?_eq_some_iff.mp found).1
  have planned := List.getElem?_eq_getElem inside
  have has := (aligned.isCreated planned).mpr (created _ (List.mem_map_of_mem (List.getElem_mem inside)))
  rw [Batch.status_of_getElem? found] at has
  exact has

theorem leads_allCreated (observed : List (Option IssueMapping)) {batch : Batch} (aligned : batch.Aligned) :
    Leads batch (publishTickets observed batch.tickets.length) fun after => after.allCreated = true := by
  apply (leads_publishTickets observed _ aligned).mono
  rintro after ⟨later, plan, reached⟩
  apply later.allCreated
  intro key planned
  rw [plan] at planned
  apply reached
  by_cases created : key ∈ batch.createdKeys
  · exact .inl created
  · rcases List.mem_map.mp planned with ⟨ticket, member, rfl⟩
    rcases List.getElem?_of_mem member with ⟨index, found⟩
    have uncreated : (batch.status index).isCreated = false := by
      rw [← Bool.not_eq_true, aligned.isCreated found]
      exact created
    right
    rw [turns_eq aligned.length.ge]
    exact List.mem_map.mpr ⟨(ticket, index), (aligned.mem_creationOrder ticket index).mpr ⟨found, uncreated⟩, rfl⟩

def runTrusting : Publishing Unit := do
  let batch ← get
  let observed ← observe batch
  Graph.preflightCapacity batch observed
  publishTickets observed batch.tickets.length
  Graph.run
  Labels.run

theorem run_eq_runTrusting {batch : Batch} (aligned : batch.Aligned) : run batch = runTrusting batch := by
  show ((liftM (observe batch) : Publishing (List (Option IssueMapping))) >>= fun observed =>
      (liftM (Graph.preflightCapacity batch observed) : Publishing Unit) >>= fun _ =>
        publishTickets observed batch.tickets.length >>= fun _ => do
          let batch ← get
          ensure batch.allCreated (.other "creation remains incomplete")
          Graph.run
          Labels.run) batch = _
  apply (leads_reading _).bind_congr
  rintro observed _ rfl
  apply (leads_reading _).bind_congr
  rintro _ _ rfl
  apply (leads_allCreated observed aligned).bind_congr
  intro _ after created
  show ((liftM (ensure after.allCreated (.other "creation remains incomplete")) : Publishing Unit) >>= fun _ => do
    Graph.run
    Labels.run) after = _
  rw [created]
  rfl

end Turn

theorem prepare_creationOrder [Fingerprint] (id : BatchId) {plan : Plan} (accepted : plan.check = .ok ()) :
    ∃ batch, Batch.prepare id plan = .ok batch ∧ batch.check id = .ok () ∧
      ∀ ticket index, (ticket, index) ∈ batch.creationOrder ↔ plan.tickets[index]? = some ticket := by
  have prepared : ∃ batch, Batch.prepare id plan = .ok batch ∧ batch.plan = plan := by
    unfold Batch.prepare
    rw [accepted]
    exact ⟨_, rfl, rfl⟩
  rcases prepared with ⟨batch, made, planned⟩
  rcases check_prepare made with ⟨checked, pending⟩
  refine ⟨batch, made, checked, ?_⟩
  intro ticket index
  rw [(aligned_of_check checked).mem_creationOrder, pending index, planned]
  exact and_iff_left rfl

/-- The plans that are accepted, and the order in which their tickets get their issues: each ticket once, after its
blockers, until none is left. -/
theorem accepted_plans_are_created [Fingerprint] :
    (∀ plan : Plan, plan.check = .ok () ↔ plan.WellFormed ∧ plan.Publishable) ∧
      (∀ (id : BatchId) (plan : Plan), plan.check = .ok () →
        ∃ batch, Batch.prepare id plan = .ok batch ∧ batch.check id = .ok () ∧
          ∀ ticket index, (ticket, index) ∈ batch.creationOrder ↔ plan.tickets[index]? = some ticket) ∧
      ∀ (id : BatchId) (batch : Batch), batch.check id = .ok () →
        (∀ ticket index, (ticket, index) ∈ batch.creationOrder ↔
          batch.plan.tickets[index]? = some ticket ∧ (batch.status index).isCreated = false) ∧
        (batch.creationOrder.map fun ticket => ticket.1.key).Nodup ∧
        (∀ before ticket after, batch.creationOrder = before ++ ticket :: after →
          ∀ key, .ticket key ∈ ticket.1.blockers →
            key ∈ batch.createdKeys ∨ key ∈ before.map fun earlier => earlier.1.key) ∧
        (∀ observed turns, batch.plan.tickets.length ≤ turns →
          publishTickets observed turns batch = (batch.creationOrder.forM (publishTicket observed)) batch) ∧
        run batch = runTrusting batch := by
  refine ⟨fun _ => check_eq_ok, fun id _ accepted => prepare_creationOrder id accepted, ?_⟩
  intro id batch checked
  have aligned := aligned_of_check checked
  refine ⟨aligned.mem_creationOrder, creationOrder_nodup batch, ?_, ?_, run_eq_runTrusting aligned⟩
  · intro before ticket after split key blocked
    exact creationOrder_ordered split blocked
  · intro observed turns enough
    rw [publishTickets_eq observed turns aligned, turns_eq enough]

end TicketPublication

import BazelRepo.TicketPublication.Creation

namespace TicketPublication

open Library Library.Stateful

variable [Fingerprint] {id : BatchId} {authority : Option TicketKey} {α : Type}

theorem keeps_reading {pre : Knowledge → Batch → Prop} (reading : Reading α) :
    Keeps (protocol id authority) pre (liftM reading : Publishing α) fun known batch _ => pre known batch :=
  keeps_lift reading

theorem keeps_check {pre : Knowledge → Batch → Prop} (x : Except Failure α) :
    Keeps (protocol id authority) pre (liftM x : Publishing α) fun known batch _ => pre known batch :=
  keeps_except fun _ _ _ _ before => before

theorem keeps_current {pre : Knowledge → Batch → Prop} :
    Keeps (protocol id authority) pre (get : Publishing Batch) fun known batch current => pre known batch ∧ current = batch :=
  keeps_get fun _ _ before => ⟨before, rfl⟩

def Selected (id : BatchId) (ticket : Ticket) (index : Nat) (known : Knowledge) (batch : Batch) : Prop :=
  Current id known batch ∧ batch.plan.tickets[index]? = some ticket ∧
    (batch.status index).isCreated = false ∧ ticket.blockers.all batch.blockerCreated = true

omit [Fingerprint] in
theorem Selected.ready {ticket : Ticket} {index : Nat} {known : Knowledge} {batch : Batch}
    (selected : Selected id ticket index known batch) : Ready id index known batch := ⟨selected.1, selected.2.2.1⟩

theorem keeps_resumeTicket (ticket : Ticket) (index : Nat) :
    Keeps (protocol id authority) (Selected id ticket index) (resumeTicket ticket index)
      fun known batch _ => Ready id index known batch := by
  unfold resumeTicket
  apply Keeps.bind keeps_current
  intro current
  apply Keeps.bind (keeps_reading _)
  intro found
  split
  · apply Keeps.ite
    · intro authorized
      apply (keeps_createTicket ticket index).mono
      · rintro known _ ⟨⟨current, planned, _, blockers⟩, rfl⟩
        exact ⟨current, planned, .inr authorized, blockers⟩
      · exact fun _ _ _ after => after
    · intro _
      exact keeps_throw _
  · exact keeps_pure fun _ _ before => before.1.ready
  · exact keeps_throw _

theorem keeps_issueFor (observed : List (Option IssueMapping)) (ticket : Ticket) (index : Nat) :
    Keeps (protocol id authority) (Selected id ticket index) (issueFor observed ticket index)
      fun known batch _ => Ready id index known batch := by
  unfold issueFor
  apply Keeps.bind keeps_current
  intro current
  split
  · apply (keeps_reading _).mono (fun _ _ before => before)
    exact fun _ _ _ after => after.1.ready
  · cases status : current.status index with
    | pending =>
      apply (keeps_createTicket ticket index).mono
      · rintro known _ ⟨⟨current, planned, _, blockers⟩, rfl⟩
        exact ⟨current, planned, .inl status, blockers⟩
      · exact fun _ _ _ after => after
    | created mapping =>
      rintro known _ ⟨⟨_, _, uncreated, _⟩, rfl⟩
      rw [status] at uncreated
      cases uncreated
    | creating => exact (keeps_resumeTicket ticket index).mono (fun _ _ before => before.1) fun _ _ _ after => after
    | retryAuthorized =>
      exact (keeps_resumeTicket ticket index).mono (fun _ _ before => before.1) fun _ _ _ after => after

theorem keeps_verifyIssue (ticket : Ticket) (index : Nat) (created : Issue) :
    Keeps (protocol id authority) (Ready id index) (verifyIssue ticket index created)
      fun known batch _ => Ready id index known batch := by
  unfold verifyIssue
  apply Keeps.bind keeps_current
  intro _
  apply Keeps.bind (keeps_reading _)
  intro _
  apply Keeps.bind (keeps_check _)
  intro _
  apply Keeps.bind (keeps_check _)
  intro _
  exact keeps_pure fun _ _ before => before.1

theorem keeps_attempt {pre : Knowledge → Batch → Prop} {post : Knowledge → Batch → α → Prop} {step : Publishing α}
    (keeps : Keeps (protocol id authority) pre step post) :
    Keeps (protocol id authority) pre (attempt step)
      fun known batch result => ∀ a, result = .ok a → post known batch a := by
  intro known batch before
  unfold attempt
  apply Program.Follows.bind _ (keeps known batch before)
  rintro later result promised _ ⟨⟩
  exact promised

theorem keeps_saveMapping (index : Nat) (mapping : IssueMapping) :
    Keeps (protocol id authority) (Ready id index) (saveMapping index mapping)
      fun known batch _ => Current id known batch := by
  unfold saveMapping
  apply Keeps.bind (keeps_setStatus index (.created mapping))
  intro _
  have saving : Keeps (protocol id authority)
      (fun known batch => ∃ before, Ready id index known before ∧ batch = before.withStatus index (.created mapping))
      save fun known batch _ => SavedStatus id (Ready id index) index (.created mapping) known batch := by
    apply keeps_saveStatus (fun _ _ before => before.1)
    intro known saved batch before _ _
    apply TicketStatus.Advances.create
    intro earlier status
    have uncreated := before.2
    rw [status] at uncreated
    cases uncreated
  apply Keeps.bind (keeps_attempt saving)
  intro result
  cases result with
  | ok u => exact keeps_pure fun known batch saved => current_of_savedStatus (saved u rfl)
  | error failure =>
    apply Keeps.bind (keeps_setStatus index .creating)
    intro _
    exact keeps_throw _

omit [Fingerprint] in
theorem Batch.nextTicket_eq_some {batch : Batch} {ticket : Ticket} {index : Nat}
    (next : batch.nextTicket = some (ticket, index)) :
    batch.plan.tickets[index]? = some ticket ∧ (batch.status index).isCreated = false ∧
      ticket.blockers.all batch.blockerCreated = true := by
  have holds := List.find?_some next
  have member := List.mem_zipIdx_iff_getElem?.mp (List.mem_of_find?_eq_some next)
  simp only [Bool.and_eq_true, Bool.not_eq_true'] at holds
  exact ⟨member, holds.1, holds.2⟩

theorem keeps_publishTicket (observed : List (Option IssueMapping)) (ticket : Ticket) (index : Nat) :
    Keeps (protocol id authority) (Selected id ticket index) (publishTicket observed (ticket, index))
      fun known batch _ => Current id known batch := by
  unfold publishTicket
  apply Keeps.bind (keeps_issueFor observed ticket index)
  intro created
  apply Keeps.bind (keeps_verifyIssue ticket index created)
  intro mapping
  exact keeps_saveMapping index mapping

theorem steady_publishTickets (observed : List (Option IssueMapping)) (turns : Nat) :
    Steady id authority (publishTickets observed turns) := by
  induction turns with
  | zero => exact steady_pure ()
  | succ turns ih =>
    apply Keeps.bind keeps_current
    intro current
    cases next : current.nextTicket with
    | none => exact keeps_pure fun _ _ before => before.1
    | some selected =>
      have turn : Keeps (protocol id authority) (fun known batch => Current id known batch ∧ current = batch)
          (publishTicket observed selected) fun known batch _ => Current id known batch := by
        apply (keeps_publishTicket observed selected.1 selected.2).mono
        · rintro known _ ⟨holds, rfl⟩
          exact ⟨holds, Batch.nextTicket_eq_some next⟩
        · exact fun _ _ _ after => after
      apply Keeps.bind turn
      intro _
      exact ih

theorem steady_run : Steady id authority run := by
  unfold run
  apply steady_get.bind
  intro _
  apply (steady_reading _).bind
  intro _
  apply (steady_reading _).bind
  intro _
  apply (steady_publishTickets _ _).bind
  intro _
  apply steady_get.bind
  intro _
  apply (steady_except _).bind
  intro _
  apply Graph.steady_run.bind
  intro _
  exact Labels.steady_run

theorem steady_adopt (ticket : TicketKey) (issue : IssueNumber) : Steady id authority (adopt ticket issue) := by
  unfold adopt
  apply Keeps.bind keeps_current
  intro current
  apply Keeps.bind (keeps_check _)
  intro index
  apply Keeps.bind (keeps_check _)
  intro planned
  apply Keeps.bind (keeps_reading _)
  intro remote
  apply Keeps.bind (keeps_check _)
  intro _
  have agreeing : Keeps (protocol id authority) (fun known batch => Current id known batch ∧ current = batch)
      (liftM (checkAdoption (current.status index) remote.mapping) : Publishing Unit)
      fun known batch _ => (Current id known batch ∧ current = batch) ∧
        checkAdoption (current.status index) remote.mapping = .ok () :=
    keeps_except fun _ _ _ checked before => ⟨before, checked⟩
  apply Keeps.bind agreeing
  intro _
  apply Keeps.bind (keeps_setStatus index (.created remote.mapping))
  intro _
  apply keeps_saveCurrent fun _ _ before => before.1.1
  rintro known saved batch ⟨⟨_, rfl⟩, agrees⟩ _ _
  apply TicketStatus.Advances.create
  intro earlier status
  rw [status] at agrees
  simpa [checkAdoption, ensure_eq_ok] using agrees

theorem steady_authorizeRetry (ticket : TicketKey) : Steady id (some ticket) (authorizeRetry ticket) := by
  unfold authorizeRetry
  apply Keeps.bind keeps_current
  intro current
  have located : Keeps (protocol id (some ticket)) (fun known batch => Current id known batch ∧ current = batch)
      (liftM (context (current.position ticket) "unknown ticket key") : Publishing Nat)
      fun known batch index => (Current id known batch ∧ current = batch) ∧ current.position ticket = some index :=
    keeps_except fun _ _ _ found before => ⟨before, okOr_eq_ok.mp found⟩
  apply Keeps.bind located
  intro index
  have uncertain : Keeps (protocol id (some ticket))
      (fun known batch => (Current id known batch ∧ current = batch) ∧ current.position ticket = some index)
      (liftM (ensure (current.status index).isUncertain (.other "ticket has no uncertain creation to retry")) :
        Publishing Unit)
      fun known batch _ => ((Current id known batch ∧ current = batch) ∧ current.position ticket = some index) ∧
        (current.status index).isUncertain = true :=
    keeps_except fun _ _ _ checked before => ⟨before, ensure_eq_ok.mp checked⟩
  apply Keeps.bind uncertain
  intro _
  apply Keeps.bind (keeps_setStatus index .retryAuthorized)
  intro _
  apply keeps_saveCurrent fun _ _ before => before.1.1.1
  rintro known saved batch ⟨⟨⟨_, rfl⟩, found⟩, uncertain⟩ planned checked
  apply TicketStatus.Advances.authorize _ uncertain
  refine ⟨ticket, rfl, ?_⟩
  rw [Batch.keyAt, planned]
  exact keyAt_of_position checked found

theorem check_prepare {plan : Plan} {prepared : Batch} (made : Batch.prepare id plan = .ok prepared) :
    prepared.check id = .ok () ∧ ∀ index, prepared.status index = .pending := by
  have remade := made
  unfold Batch.prepare at made
  simp only [bind_eq_ok, Except.ok.injEq] at made
  rcases made with ⟨⟨⟩, planned, rfl⟩
  constructor
  · have zipped : ∀ rows : List Progress, (rows.zip rows).all (fun pair => sameIdentity pair.1 pair.2) = true := by
      intro rows
      induction rows with
      | nil => rfl
      | cons progress rest ih =>
        rw [List.zip_cons_cons, List.all_cons, ih]
        simp [sameIdentity]
    have unmapped : ∀ rows : List Ticket, ∀ mappings, (rows.map fun ticket =>
        (⟨ticket.key, markerOf id ticket.key, .pending⟩ : Progress)).foldlM (checkMapping plan.parent) mappings =
          .ok mappings := by
      intro rows mappings
      induction rows with
      | nil => rfl
      | cons ticket rest ih => exact ih
    unfold Batch.check
    dsimp only
    rw [remade]
    simp [ensure, zipped, unmapped]
  · intro index
    unfold Batch.status
    dsimp only
    rw [List.getElem?_map]
    cases plan.tickets[index]? <;> rfl

theorem saved_of_readSnapshot {visible : Option Batch} {saved : Batch} (read : readSnapshot id visible = .ok saved) :
    visible = some saved ∧ saved.check id = .ok () := by
  unfold readSnapshot at read
  simp only [bind_eq_ok, Except.ok.injEq] at read
  rcases read with ⟨_, found, ⟨⟩, checked, rfl⟩
  exact ⟨okOr_eq_ok.mp found, checked⟩

theorem follows_onSaved {visible : Option Batch} {command : Batch → Program Call Call.Answer (Except Failure Unit)}
    (follows : ∀ saved, saved.check id = .ok () →
      (command saved).Follows (protocol id authority) (fun _ _ => True) ⟨some saved, false, []⟩) :
    (onSaved id visible command).Follows (protocol id authority) (fun _ _ => True) ⟨visible, false, []⟩ := by
  unfold onSaved
  cases read : readSnapshot id visible with
  | error failure => trivial
  | ok saved =>
    rcases saved_of_readSnapshot read with ⟨rfl, checked⟩
    exact follows saved checked

theorem follows_steady {step : Publishing α} (steady : Steady id authority step) {saved : Batch} (batch : Batch)
    (checked : saved.check id = .ok ()) (identity : batch.id = saved.id) (planned : saved.plan = batch.plan)
    (tickets : saved.tickets = batch.tickets) {β : Type} (f : Except Failure α × Batch → β) :
    (step batch >>= fun result => (.done (f result) : Program Call Call.Answer β)).Follows (protocol id authority)
      (fun _ _ => True) ⟨some saved, false, []⟩ := by
  have named := (tickets_of_check checked).1
  apply Program.Follows.bind _ (steady _ batch ⟨identity.trans named, saved, rfl, named, planned, tickets⟩)
  exact fun _ _ _ => trivial

theorem follows_prepare (plan : Plan) (visible : Option Batch) :
    (prepare id plan visible).Follows (protocol id authority) (fun _ _ => True) ⟨visible, false, []⟩ := by
  unfold prepare
  cases made : Batch.prepare id plan with
  | error failure => trivial
  | ok prepared =>
    cases visible with
    | some saved => trivial
    | none =>
      rcases check_prepare made with ⟨checked, pending⟩
      exact ⟨⟨rfl, checked, pending⟩, fun _ => trivial⟩

theorem execute_follows (visible : Option Batch) (command : Command) :
    (command.execute id visible).Follows (protocol id command.authority) (fun _ _ => True) ⟨visible, false, []⟩ := by
  cases command with
  | prepare plan => exact follows_prepare plan visible
  | publish =>
    apply follows_onSaved
    intro saved checked
    have attempt : (publication saved).Follows (protocol id none) (fun _ _ => True) ⟨some saved, false, []⟩ :=
      follows_steady steady_run (resetObservations saved) checked rfl rfl rfl reportOf
    apply Program.Follows.bind _ attempt
    intro _ _ _
    trivial
  | authorizeRetry ticket acknowledged =>
    cases acknowledged with
    | false => trivial
    | true =>
      apply follows_onSaved
      intro saved checked
      exact follows_steady (steady_authorizeRetry ticket) saved checked rfl rfl rfl Prod.fst
  | adopt ticket issue =>
    apply follows_onSaved
    intro saved checked
    exact follows_steady (steady_adopt ticket issue) saved checked rfl rfl rfl Prod.fst
  | status =>
    apply follows_onSaved
    intro saved _
    have reading : ((status saved).embed Call.remote fun _ answer => answer).Follows (protocol id none)
        (fun _ _ => True) ⟨some saved, false, []⟩ :=
      Program.follows_embed (fun _ => trivial) (fun _ _ => rfl) (fun _ => trivial) _
    apply Program.Follows.bind _ reading
    intro _ _ _
    trivial

end TicketPublication

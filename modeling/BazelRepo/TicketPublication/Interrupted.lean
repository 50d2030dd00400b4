import BazelRepo.TicketPublication.Duplicates

namespace TicketPublication

open Library Library.Stateful

section Answers

variable [Fingerprint] {id : BatchId}

def Directory.answering (authority : Option TicketKey) (answers : (call : Call) → call.Answer) (directory : Directory)
    (call : Call) : Directory × call.Answer :=
  (directory.answered authority call (answers call), answers call)

omit [Fingerprint] in
theorem Directory.answered_running (directory : Directory) (authority : Option TicketKey) (call : Call)
    (answer : call.Answer) (running later : Option (Command × Program Call Call.Answer (Except Failure Unit))) :
    { Directory.answered { directory with running := running } authority call answer with running := later } =
      { directory.answered authority call answer with running := later } := by
  cases call with
  | remote | create => rfl
  | persist | persistNoclobber => cases answer <;> rfl

theorem Directory.steps_runIn {command : Command} {answers : (call : Call) → call.Answer}
    (possible : ∀ (directory : Directory) call, directory.Possible call (answers call))
    (program : Program Call Call.Answer (Except Failure Unit)) : ∀ directory : Directory,
      Relation.ReflTransGen (Directory.Step id) { directory with running := some (command, program) }
        { (program.runIn (Directory.answering command.authority answers) directory).1 with
          running := some (command, .done (program.runIn (Directory.answering command.authority answers) directory).2) } := by
  induction program with
  | done result =>
    intro directory
    exact .refl
  | ask call next ih =>
    intro directory
    have step : Directory.Step id { directory with running := some (command, .ask call next) } _ :=
      .answer (answers call) rfl (possible _ call)
    rw [Directory.answered_running] at step
    exact .head step (ih (answers call) _)

theorem Directory.steps_execute {command : Command} {answers : (call : Call) → call.Answer}
    (possible : ∀ (directory : Directory) call, directory.Possible call (answers call)) {directory after : Directory}
    {result : Except Failure Unit} (free : directory.running = none)
    (ran : (command.execute id directory.visible).runIn (Directory.answering command.authority answers) directory =
      (after, result)) :
    Relation.ReflTransGen (Directory.Step id) directory (after.finished command.authority result) := by
  have run : Relation.ReflTransGen (Directory.Step id)
      { directory with running := some (command, command.execute id directory.visible) } _ :=
    Directory.steps_runIn possible (command.execute id directory.visible) directory
  rw [ran] at run
  have last : Directory.Step id { after with running := some (command, .done result) } _ := .finish rfl
  exact .head (.start command free) (run.tail last)

theorem Root.steps_of_directory {root : Root} {directory : Directory}
    (steps : Relation.ReflTransGen (Directory.Step id) (root id) directory) :
    Root.Steps root (Function.update root id directory) := by
  induction steps with
  | refl =>
    rw [Function.update_eq_self]
  | tail _ step ih =>
    rename_i middle last _
    have next : Root.Step (Function.update root id middle) (Function.update (Function.update root id middle) id last) := by
      apply Root.Step.directory
      rw [Function.update_self]
      exact step
    rw [Function.update_idem] at next
    exact ih.tail next

theorem save_asks {batch : Batch} (checked : batch.check batch.id = .ok ()) :
    save batch = .ask (.persist batch) fun outcome => .done (saveOutcome outcome, batch) := by
  unfold save
  rw [bind_apply]
  show ((liftM (batch.check batch.id) : Publishing Unit) >>= fun _ => _) batch = _
  rw [checked]
  rfl

end Answers

section Interrupted

local instance plainFingerprint : Fingerprint := ⟨fun _ => ""⟩

def sampleKey : TicketKey := ⟨"a", by decide⟩

def sampleTicket : Ticket := ⟨sampleKey, "Title", "Body", [], []⟩

def samplePlan : Plan := ⟨1, "LowkeyLab/bazel-repo", ⟨1, one_ne_zero_u64⟩, [sampleTicket]⟩

def sampleId : BatchId := ⟨⟨1⟩, by decide⟩

def sampleBatch (status : TicketStatus) : Batch :=
  { schemaVersion := 1
    planFingerprint := ""
    id := sampleId
    plan := samplePlan
    tickets := [⟨sampleKey, markerOf sampleId sampleKey, status⟩] }

def sampleParent : Issue :=
  ⟨⟨1, one_ne_zero_u64⟩, ⟨1, one_ne_zero_u64⟩, ⟨"P", by decide⟩, "Parent", none, homeRepositoryUrl, some [], false⟩

/-- A remote without issues of the plan that never answers a creation request, and saves that all end one way. -/
def lossyAnswers (outcome : SaveOutcome) : (call : Call) → call.Answer
  | .remote (.readIssue _) => some sampleParent
  | .remote .enumerateIssues => some [some []]
  | .remote (.readRelationships ..) => some [some []]
  | .remote (.readParent _) => none
  | .remote (.addParent ..) | .remote (.addBlocker ..) | .remote (.addLabels ..) => none
  | .create .. => none
  | .persist _ => outcome
  | .persistNoclobber _ => .refused

theorem lossyAnswers_possible (outcome : SaveOutcome) (directory : Directory) (call : Call) :
    directory.Possible call (lossyAnswers outcome call) := by
  cases call with
  | persistNoclobber batch => exact fun _ => rfl
  | remote | create | persist => trivial

theorem samplePlan_check : samplePlan.check = .ok () := by
  have tickets : samplePlan.tickets.foldlM checkTicket [] = .ok [sampleKey] := by decide
  have resolved : resolve samplePlan.tickets [] = .ok () := by
    simp [samplePlan, sampleTicket, resolve, resolveRound, resolveTicket]
  unfold Plan.check
  rw [tickets, resolved]
  rfl

theorem prepare_sample : Batch.prepare sampleId samplePlan = .ok (sampleBatch .pending) := by
  unfold Batch.prepare
  rw [samplePlan_check]
  rfl

theorem sampleBatch_check {status : TicketStatus} (uncreated : status.isCreated = false) :
    (sampleBatch status).check sampleId = .ok () := by
  unfold Batch.check
  show (do
    ensure _ _
    let checked ← Batch.prepare sampleId samplePlan
    _) = _
  rw [prepare_sample]
  cases status with
  | created => cases uncreated
  | pending | creating | retryAuthorized => simp [sampleBatch, ensure, sameIdentity, checkMapping, samplePlan]

def Directory.requested (directory : Directory) (authority : Option TicketKey) : Directory :=
  { directory.persisted authority (sampleBatch .creating) .saved with
    sent := directory.sent ++ [ticketRequest sampleId sampleTicket] }

abbrev Directory.lossy (authority : Option TicketKey) : Directory → (call : Call) → Directory × call.Answer :=
  Directory.answering authority (lossyAnswers .saved)

theorem createTicket_sample (authority : Option TicketKey) (status : TicketStatus) (directory : Directory) :
    (createTicket sampleTicket 0 (sampleBatch status)).runIn (Directory.lossy authority) directory =
      (directory.requested authority, .error (.other Client.requestFailed), sampleBatch .creating) := by
  unfold createTicket
  have changed : (setStatus 0 .creating (sampleBatch status)).runIn (Directory.lossy authority) directory =
      (directory, .ok (), sampleBatch .creating) := rfl
  rw [runIn_bind_ok changed]
  have saved : (save (sampleBatch .creating)).runIn (Directory.lossy authority) directory =
      (directory.persisted authority (sampleBatch .creating) .saved, .ok (), sampleBatch .creating) := by
    rw [save_asks (sampleBatch_check rfl)]
    rfl
  rw [runIn_bind_ok saved]
  rfl

theorem run_sample (authority : Option TicketKey) {status : TicketStatus}
    (ready : status = .pending ∨ status = .retryAuthorized) (directory : Directory) :
    (run (sampleBatch status)).runIn (Directory.lossy authority) directory =
      (directory.requested authority, .error (.other Client.requestFailed), sampleBatch .creating) := by
  have current : ((get : Publishing Batch) (sampleBatch status)).runIn (Directory.lossy authority) directory =
      (directory, .ok (sampleBatch status), sampleBatch status) := rfl
  have observed : ((liftM (observe (sampleBatch status)) : Publishing _) (sampleBatch status)).runIn
      (Directory.lossy authority) directory = (directory, .ok [none], sampleBatch status) := by
    rcases ready with rfl | rfl <;> rfl
  have capacity : ((liftM (Graph.preflightCapacity (sampleBatch status) [none]) : Publishing _)
      (sampleBatch status)).runIn (Directory.lossy authority) directory = (directory, .ok (), sampleBatch status) := by
    rcases ready with rfl | rfl <;> rfl
  have next : (sampleBatch status).nextTicket = some (sampleTicket, 0) := by
    rcases ready with rfl | rfl <;> rfl
  unfold run
  rw [runIn_bind_ok current, runIn_bind_ok observed, runIn_bind_ok capacity]
  apply runIn_bind_error
  show (publishTickets [none] 1 (sampleBatch status)).runIn _ _ = _
  unfold publishTickets
  rw [runIn_bind_ok current, next]
  apply runIn_bind_error
  unfold publishTicket
  apply runIn_bind_error
  unfold issueFor
  rw [runIn_bind_ok current]
  rcases ready with rfl | rfl
  · exact createTicket_sample authority .pending directory
  · have found : ((liftM (Client.find ((sampleBatch .retryAuthorized).marker 0)) : Publishing _)
        (sampleBatch .retryAuthorized)).runIn (Directory.lossy authority) directory =
          (directory, .ok [], sampleBatch .retryAuthorized) := rfl
    show (resumeTicket sampleTicket 0 _).runIn _ _ = _
    unfold resumeTicket
    rw [runIn_bind_ok current, runIn_bind_ok found]
    exact createTicket_sample authority .retryAuthorized directory

theorem onSaved_sample {status : TicketStatus} (uncreated : status.isCreated = false)
    (command : Batch → Program Call Call.Answer (Except Failure Unit)) :
    onSaved sampleId (some (sampleBatch status)) command = command (sampleBatch status) := by
  have read : readSnapshot sampleId (some (sampleBatch status)) = .ok (sampleBatch status) := by
    show ((sampleBatch status).check sampleId >>= fun _ => Except.ok (sampleBatch status)) = _
    rw [sampleBatch_check uncreated]
    rfl
  unfold onSaved
  rw [read]

theorem publish_sample {status : TicketStatus} (ready : status = .pending ∨ status = .retryAuthorized)
    {directory : Directory} (free : directory.running = none) (visible : directory.visible = some (sampleBatch status)) :
    Relation.ReflTransGen (Directory.Step sampleId) directory
      ((directory.requested none).finished none (.error (.other Client.requestFailed))) := by
  have possible := lossyAnswers_possible .saved
  have steps := @Directory.steps_execute _ sampleId .publish _ possible directory (directory.requested none)
    (.error (.other Client.requestFailed)) free
  apply steps
  have uncreated : status.isCreated = false := by
    rcases ready with rfl | rfl <;> rfl
  rw [visible]
  show (onSaved _ _ _).runIn (Directory.lossy none) _ = _
  rw [onSaved_sample uncreated]
  unfold publication
  rw [Program.runIn_bind, Program.runIn_bind]
  have ran := run_sample none ready directory
  have reset : resetObservations (sampleBatch status) = sampleBatch status := rfl
  rw [reset, ran]
  rfl

theorem authorizeRetry_sample {directory : Directory} (free : directory.running = none)
    (visible : directory.visible = some (sampleBatch .creating)) :
    Relation.ReflTransGen (Directory.Step sampleId) directory
      ((directory.renamed (some sampleKey) (sampleBatch .retryAuthorized)).finished (some sampleKey)
        (.error (.other "cannot synchronize the batch directory"))) := by
  have possible := lossyAnswers_possible .unsynced
  have steps := @Directory.steps_execute _ sampleId (.authorizeRetry sampleKey true) _ possible directory
    (directory.renamed (some sampleKey) (sampleBatch .retryAuthorized))
    (.error (.other "cannot synchronize the batch directory")) free
  apply steps
  rw [visible]
  show (onSaved _ _ _).runIn (Directory.answering (some sampleKey) (lossyAnswers .unsynced)) _ = _
  rw [onSaved_sample rfl, Program.runIn_bind]
  have current : ((get : Publishing Batch) (sampleBatch .creating)).runIn
      (Directory.answering (some sampleKey) (lossyAnswers .unsynced)) directory =
        (directory, .ok (sampleBatch .creating), sampleBatch .creating) := rfl
  have located : ((liftM (context ((sampleBatch .creating).position sampleKey) "unknown ticket key") :
      Publishing Nat) (sampleBatch .creating)).runIn
        (Directory.answering (some sampleKey) (lossyAnswers .unsynced)) directory =
          (directory, .ok 0, sampleBatch .creating) := rfl
  have uncertain : ((liftM (ensure ((sampleBatch .creating).status 0).isUncertain
      (.other "ticket has no uncertain creation to retry")) : Publishing Unit) (sampleBatch .creating)).runIn
        (Directory.answering (some sampleKey) (lossyAnswers .unsynced)) directory =
          (directory, .ok (), sampleBatch .creating) := rfl
  have changed : (setStatus 0 .retryAuthorized (sampleBatch .creating)).runIn
      (Directory.answering (some sampleKey) (lossyAnswers .unsynced)) directory =
        (directory, .ok (), sampleBatch .retryAuthorized) := rfl
  unfold authorizeRetry
  rw [runIn_bind_ok current, runIn_bind_ok located, runIn_bind_ok uncertain, runIn_bind_ok changed,
    save_asks (sampleBatch_check rfl)]
  rfl

def prepared : Directory :=
  { durable := some (sampleBatch .pending)
    authorized := increment none fun _ => 0
    succeeded := increment none fun _ => 0 }

theorem prepare_steps : Relation.ReflTransGen (Directory.Step sampleId) {} prepared := by
  have asks : (Command.prepare samplePlan).execute sampleId none =
      .ask (.persistNoclobber (sampleBatch .pending)) fun outcome => .done (saveOutcome outcome) := by
    show TicketPublication.prepare sampleId samplePlan none = _
    unfold TicketPublication.prepare
    rw [prepare_sample]
    rfl
  have started : Directory.Step sampleId {} { running := some (.prepare samplePlan, _) } := .start (.prepare samplePlan) rfl
  rw [show Directory.visible {} = none from rfl, asks] at started
  have free : ∀ running, Directory.Possible { running := running } (.persistNoclobber (sampleBatch .pending))
      SaveOutcome.saved := by
    intro running occupied
    cases occupied
  have saved := @Directory.Step.answer _ sampleId _ (.prepare samplePlan) (.persistNoclobber (sampleBatch .pending))
    (fun outcome => .done (saveOutcome outcome)) SaveOutcome.saved rfl (free _)
  have finished := @Directory.Step.finish _ sampleId
    { Directory.renamed {} none (sampleBatch .pending) |>.synchronized with
      running := some (.prepare samplePlan, .done (.ok ())) } _ _ rfl
  exact .tail (.tail (.single started) saved) finished

/-- Prepared, published, authorized and published again, where only the first command reported success. -/
def interrupted : Directory :=
  { durable := some (sampleBatch .creating)
    sent := [ticketRequest sampleId sampleTicket, ticketRequest sampleId sampleTicket]
    authorized := increment none (increment (some sampleKey) (increment none (increment none fun _ => 0)))
    succeeded := increment none fun _ => 0 }

theorem interrupted_reached : Root.Steps Root.empty (Function.update Root.empty sampleId interrupted) := by
  apply Root.steps_of_directory
  have published : Relation.ReflTransGen (Directory.Step sampleId) prepared _ := publish_sample (.inl rfl) rfl rfl
  have authorized := (prepare_steps.trans published).trans (authorizeRetry_sample rfl rfl)
  exact authorized.trans (publish_sample (.inr rfl) rfl rfl)

/-- Every request is for a ticket of the durable plan, and each beyond the first was authorized; a request
waits for the durable issues of the blockers; durable issues stay. -/
theorem duplicates_are_authorized [Fingerprint] {root : Root} (reached : Root.Steps Root.empty root) (id : BatchId) :
    (∀ request ∈ (root id).sent, ∃ batch ticket, (root id).durable = some batch ∧ ticket ∈ batch.plan.tickets ∧
      request = ticketRequest id ticket) ∧
    (∀ batch, (root id).durable = some batch → batch.check id = .ok () ∧
      ∀ ticket ∈ batch.plan.tickets, (root id).requests id ticket ≤ 1 + (root id).authorized ticket.key) ∧
    (∀ command title body next, (root id).running = some (command, .ask (.create title body) next) →
      ∃ batch ticket, (root id).durable = some batch ∧ ticket ∈ batch.plan.tickets ∧
        (title, body) = ticketRequest id ticket ∧ ∀ key, .ticket key ∈ ticket.blockers →
          ∃ progress ∈ batch.tickets, progress.key = key ∧ ∃ mapping, progress.status = .created mapping) ∧
    ∀ later, Root.Steps root later → ∀ batch, (root id).durable = some batch →
      ∃ next, (later id).durable = some next ∧ next.plan = batch.plan ∧
        ∀ index mapping, batch.status index = .created mapping → next.status index = .created mapping := by
  have inv := reached.inv id
  refine ⟨?_, ?_, ?_, ?_⟩
  · intro request made
    cases durable : (root id).durable with
    | none =>
      rw [inv.sound.untouched durable] at made
      cases made
    | some batch =>
      rcases inv.sound.planned request made batch (Directory.mem_of_durable durable) with ⟨ticket, listed, same⟩
      exact ⟨batch, ticket, rfl, listed, same⟩
  · intro batch durable
    have member := Directory.mem_of_durable durable
    refine ⟨inv.sound.checked batch member, ?_⟩
    intro ticket listed
    rcases List.mem_iff_getElem?.mp listed with ⟨index, planned⟩
    exact (inv.sound.accounts batch member index ticket planned).bound
  · intro command title body next asking
    rcases inv.running _ _ asking with ⟨known, knows, ⟨batch, index, ticket, saved, synced, _, planned, rfl, rfl, blockers⟩, _⟩
    have visible := knows.saved.symm.trans saved
    have durable : (root id).durable = some batch := Directory.durable_of_settled (knows.synced synced) visible
    rw [marker_of_check (inv.sound.checked batch (Directory.mem_of_durable durable)) planned]
    refine ⟨batch, ticket, durable, List.mem_of_getElem? planned, rfl, ?_⟩
    intro key blocks
    have created := List.all_eq_true.mp blockers _ blocks
    rcases List.any_eq_true.mp created with ⟨progress, member, holds⟩
    rcases Bool.and_eq_true_iff.mp holds with ⟨named, mapped⟩
    refine ⟨progress, member, beq_iff_eq.mp named, ?_⟩
    cases status : progress.status with
    | created mapping => exact ⟨mapping, rfl⟩
    | pending | creating | retryAuthorized =>
      rw [status] at mapped
      cases mapped
  · intro later steps batch durable
    rcases reached.durable_extends steps durable with ⟨next, kept, extended⟩
    exact ⟨next, kept, extended.plan, extended.created⟩

theorem duplicates_are_authorized_interrupted :
    (sampleBatch .creating).check sampleId = .ok () ∧
      ∀ ticket ∈ samplePlan.tickets, interrupted.requests sampleId ticket ≤ 1 + interrupted.authorized ticket.key := by
  have holds := (duplicates_are_authorized interrupted_reached sampleId).2.1
  rw [Function.update_self] at holds
  exact holds _ rfl

/-- An authorization that reported a failure can still lead to a second request. -/
theorem failed_authorization_takes_effect :
    ¬ ∀ root, Root.Steps Root.empty root → ∀ id batch, (root id).durable = some batch →
      ∀ ticket ∈ batch.plan.tickets, (root id).requests id ticket ≤ 1 + (root id).succeeded ticket.key := by
  intro bounded
  have claimed := bounded _ interrupted_reached sampleId (sampleBatch .creating)
  rw [Function.update_self] at claimed
  have twice := claimed rfl sampleTicket List.mem_cons_self
  have sent : interrupted.requests sampleId sampleTicket = 2 := by
    show List.count _ [ticketRequest sampleId sampleTicket, ticketRequest sampleId sampleTicket] = 2
    rw [List.count_cons_self, List.count_cons_self, List.count_nil]
  rw [sent] at twice
  revert twice
  decide

end Interrupted

end TicketPublication

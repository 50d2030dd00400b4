import BazelRepo.TicketPublication.Steady

namespace TicketPublication

open Library Library.Stateful

def Batch.withStatus (batch : Batch) (index : Nat) (status : TicketStatus) : Batch :=
  { batch with tickets := batch.tickets.modify index fun progress => { progress with status := status } }

theorem Batch.status_withStatus (batch : Batch) (index : Nat) (status : TicketStatus) (other : Nat) :
    (batch.withStatus index status).status other =
      if other = index ∧ index < batch.tickets.length then status else batch.status other := by
  unfold Batch.status withStatus
  dsimp only
  rw [List.getElem?_modify]
  by_cases same : index = other
  · subst same
    by_cases inside : index < batch.tickets.length
    · simp [inside]
    · simp [inside]
  · simp [same, Ne.symm same]

theorem Batch.marker_withStatus (batch : Batch) (index : Nat) (status : TicketStatus) (other : Nat) :
    (batch.withStatus index status).marker other = batch.marker other := by
  unfold Batch.marker withStatus
  dsimp only
  rw [List.getElem?_modify]
  by_cases same : index = other
  · subst same
    cases batch.tickets[index]? <;> simp
  · simp [same]

theorem Batch.status_of_getElem? {batch : Batch} {index : Nat} {progress : Progress}
    (found : batch.tickets[index]? = some progress) : batch.status index = progress.status := by
  rw [status, found]
  rfl

theorem Batch.blockerCreated_withStatus {batch : Batch} {index : Nat} {status : TicketStatus}
    (uncreated : (batch.status index).isCreated = false) {blocker : Blocker}
    (created : batch.blockerCreated blocker = true) :
    (batch.withStatus index status).blockerCreated blocker = true := by
  cases blocker with
  | issue number => rfl
  | ticket key =>
    unfold blockerCreated at created ⊢
    rw [List.any_eq_true] at created ⊢
    rcases created with ⟨progress, member, holds⟩
    rcases List.getElem?_of_mem member with ⟨at', found⟩
    have apart : index ≠ at' := by
      intro same
      subst same
      rw [status_of_getElem? found] at uncreated
      rw [uncreated, Bool.and_false] at holds
      cases holds
    have kept : (batch.withStatus index status).tickets[at']? = some progress := by
      unfold withStatus
      dsimp only
      rw [List.getElem?_modify, found]
      simp [apart]
    exact ⟨progress, List.mem_of_getElem? kept, holds⟩

theorem map_identity {expected : List Progress} :
    ∀ {saved : List Progress}, expected.length = saved.length →
      (expected.zip saved).all (fun pair => sameIdentity pair.1 pair.2) = true →
      saved.map (fun progress => (progress.key, progress.marker)) =
        expected.map fun progress => (progress.key, progress.marker) := by
  induction expected with
  | nil =>
    intro saved length _
    rw [List.length_eq_zero_iff.mp length.symm]
  | cons first rest ih =>
    intro saved length same
    cases saved with
    | nil => cases length
    | cons second others =>
      rw [List.zip_cons_cons, List.all_cons, Bool.and_eq_true] at same
      rcases same with ⟨identity, later⟩
      simp only [sameIdentity, Bool.and_eq_true, beq_iff_eq] at identity
      rw [List.map_cons, List.map_cons, identity.1, identity.2, ih (Nat.succ.inj length) later]

section Checked

variable [Fingerprint]

theorem tickets_of_check {batch : Batch} {id : BatchId} (checked : batch.check id = .ok ()) :
    batch.id = id ∧ batch.plan.check = .ok () ∧
      batch.tickets.map (fun progress => (progress.key, progress.marker)) =
        batch.plan.tickets.map fun ticket => (ticket.key, markerOf id ticket.key) := by
  unfold Batch.check Batch.prepare at checked
  simp only [bind_eq_ok, ensure_eq_ok, Except.ok.injEq, Bool.and_eq_true, beq_iff_eq] at checked
  rcases checked with ⟨_, ⟨_, identity⟩, _, ⟨⟨⟩, planned, rfl⟩, _, _, _, ⟨length, same⟩, _⟩
  refine ⟨identity, planned, ?_⟩
  rw [map_identity length same, List.map_map, ← identity]
  rfl

theorem length_of_check {batch : Batch} {id : BatchId} (checked : batch.check id = .ok ()) :
    batch.tickets.length = batch.plan.tickets.length := by
  have lengths := congrArg List.length (tickets_of_check checked).2.2
  rw [List.length_map, List.length_map] at lengths
  exact lengths

omit [Fingerprint] in
theorem keys_withStatus (batch : Batch) (index : Nat) (status : TicketStatus) :
    (batch.withStatus index status).tickets.map Progress.key = batch.tickets.map Progress.key := by
  apply List.ext_getElem?
  intro other
  rw [Batch.withStatus, List.getElem?_map, List.getElem?_map, List.getElem?_modify]
  cases batch.tickets[other]? with
  | none => rfl
  | some progress =>
    by_cases same : index = other
    · simp [same]
    · simp [same]

theorem keyAt_of_position {batch : Batch} {index : Nat} {status : TicketStatus} {key : TicketKey} {id : BatchId}
    (checked : (batch.withStatus index status).check id = .ok ()) (found : batch.position key = some index) :
    batch.keyAt index = some key := by
  have keys : (batch.withStatus index status).tickets.map Progress.key = batch.plan.tickets.map Ticket.key := by
    have identities := congrArg (List.map Prod.fst) (tickets_of_check checked).2.2
    rw [List.map_map, List.map_map] at identities
    exact identities
  rw [keys_withStatus] at keys
  rcases List.findIdx?_eq_some_iff_getElem.mp found with ⟨inside, same, _⟩
  have listed : (batch.tickets.map Progress.key)[index]? = some key := by
    rw [List.getElem?_map, List.getElem?_eq_getElem inside, Option.map_some, beq_iff_eq.mp same]
  rw [Batch.keyAt, ← List.getElem?_map, ← keys, listed]

theorem marker_of_check {batch : Batch} {id : BatchId} (checked : batch.check id = .ok ()) {index : Nat}
    {ticket : Ticket} (planned : batch.plan.tickets[index]? = some ticket) :
    batch.marker index = markerOf id ticket.key := by
  have found := congrArg (fun rows => rows[index]?) (tickets_of_check checked).2.2
  simp only [List.getElem?_map, planned, Option.map_some, Option.map_eq_some_iff, Prod.mk.injEq] at found
  rcases found with ⟨progress, present, _, marked⟩
  rw [Batch.marker, present, ← marked]
  rfl

variable {id : BatchId} {authority : Option TicketKey} {α : Type}

def Ready (id : BatchId) (index : Nat) (known : Knowledge) (batch : Batch) : Prop :=
  Current id known batch ∧ (batch.status index).isCreated = false

theorem keeps_setStatus {pre : Knowledge → Batch → Prop} (index : Nat) (status : TicketStatus) :
    Keeps (protocol id authority) pre (setStatus index status)
      fun known batch _ => ∃ before, pre known before ∧ batch = before.withStatus index status :=
  keeps_modify fun _ batch before => ⟨batch, before, rfl⟩

omit [Fingerprint] in
theorem advances_withStatus {saved batch : Batch} {index : Nat} {status : TicketStatus} (identity : batch.id = id)
    (named : saved.id = id) (planned : saved.plan = batch.plan) (tickets : saved.tickets = batch.tickets)
    (step : TicketStatus.Advances (∃ key, authority = some key ∧ saved.keyAt index = some key)
      (batch.status index) status) :
    saved.Advances authority (batch.withStatus index status) where
  id := identity.trans named.symm
  plan := planned.symm
  steps := by
    intro other
    rw [Batch.status_withStatus, Batch.status_congr tickets]
    split
    · rename_i here
      rw [here.1]
      exact step
    · exact .same _

def SavedStatus (id : BatchId) (pre : Knowledge → Batch → Prop) (index : Nat) (status : TicketStatus)
    (known : Knowledge) (batch : Batch) : Prop :=
  ∃ before saved, batch = before.withStatus index status ∧ batch.check id = .ok () ∧
    known = ⟨some batch, true, freshIntents saved batch⟩ ∧ saved.tickets = before.tickets ∧ ∃ earlier, pre earlier before

theorem keeps_saveStatus {index : Nat} {status : TicketStatus} {pre : Knowledge → Batch → Prop}
    (current : ∀ known batch, pre known batch → Current id known batch)
    (step : ∀ known (saved batch : Batch), pre known batch → saved.plan = batch.plan →
      (batch.withStatus index status).check id = .ok () →
      TicketStatus.Advances (∃ key, authority = some key ∧ saved.keyAt index = some key) (batch.status index) status) :
    Keeps (protocol id authority)
      (fun known batch => ∃ before, pre known before ∧ batch = before.withStatus index status) save
      fun known batch _ => SavedStatus id pre index status known batch := by
  rintro known _ ⟨before, holds, rfl⟩
  rcases current known before holds with ⟨identity, saved, found, named, planned, tickets⟩
  have advances : (before.withStatus index status).check id = .ok () →
      saved.Advances authority (before.withStatus index status) := fun checked =>
    advances_withStatus identity named planned tickets (step known saved before holds planned checked)
  have keeps : Keeps (protocol id authority)
      (fun known state => known.saved = some saved ∧ state = before.withStatus index status) save _ :=
    keeps_save identity advances
  apply Program.Follows.mono _ (keeps known _ ⟨found, rfl⟩)
  rintro later result promised a same
  rcases promised a same with ⟨state, learnt, checked⟩
  rw [state]
  exact ⟨before, saved, rfl, checked, learnt, tickets, known, holds⟩

theorem current_of_saved {batch : Batch} (checked : batch.check id = .ok ()) {known : Knowledge}
    (saved : known.saved = some batch) : Current id known batch :=
  ⟨(tickets_of_check checked).1, batch, saved, (tickets_of_check checked).1, rfl, rfl⟩

theorem current_of_savedStatus {pre : Knowledge → Batch → Prop} {index : Nat} {status : TicketStatus}
    {known : Knowledge} {batch : Batch} (saved : SavedStatus id pre index status known batch) :
    Current id known batch := by
  rcases saved with ⟨_, _, _, checked, learnt, _⟩
  apply current_of_saved checked
  rw [learnt]

theorem keeps_saveCurrent {index : Nat} {status : TicketStatus} {pre : Knowledge → Batch → Prop}
    (current : ∀ known batch, pre known batch → Current id known batch)
    (step : ∀ known (saved batch : Batch), pre known batch → saved.plan = batch.plan →
      (batch.withStatus index status).check id = .ok () →
      TicketStatus.Advances (∃ key, authority = some key ∧ saved.keyAt index = some key) (batch.status index) status) :
    Keeps (protocol id authority)
      (fun known batch => ∃ before, pre known before ∧ batch = before.withStatus index status) save
      fun known batch _ => Current id known batch :=
  (keeps_saveStatus current step).mono (fun _ _ before => before) fun _ _ _ saved => current_of_savedStatus saved

theorem keeps_calling {call : Call} {pre : Knowledge → Batch → Prop} {post : Knowledge → Batch → call.Answer → Prop}
    (allowed : ∀ known batch, pre known batch → (protocol id authority).allowed known call)
    (holds : ∀ known batch answer, pre known batch →
      post ((protocol id authority).after known call answer) batch answer) :
    Keeps (protocol id authority) pre (calling call) post := by
  intro known batch before
  refine ⟨allowed known batch before, ?_⟩
  rintro answer _ ⟨⟩
  exact holds known batch answer before

theorem keeps_create {title body : String} {pre : Knowledge → Batch → Prop}
    (allowed : ∀ known batch, pre known batch → CreateAllowed known title body) :
    Keeps (protocol id authority) pre (create title body)
      fun known batch _ => ∃ earlier, pre earlier batch ∧ known.saved = earlier.saved := by
  unfold create
  have first : Keeps (protocol id authority) pre (calling (.create title body))
      fun known batch _ => ∃ earlier, pre earlier batch ∧ known.saved = earlier.saved :=
    keeps_calling allowed fun known batch _ before => ⟨known, before, rfl⟩
  apply Keeps.bind first
  intro answer
  have second : Keeps (protocol id authority)
      (fun known batch => ∃ earlier, pre earlier batch ∧ known.saved = earlier.saved)
      (liftM (context answer Client.requestFailed) : Publishing Issue)
      fun known batch _ => ∃ earlier, pre earlier batch ∧ known.saved = earlier.saved :=
    keeps_except fun _ _ _ _ before => before
  apply Keeps.bind second
  intro issue
  have third : Keeps (protocol id authority)
      (fun known batch => ∃ earlier, pre earlier batch ∧ known.saved = earlier.saved)
      (liftM (issue.checkContent title body) : Publishing Unit)
      fun known batch _ => ∃ earlier, pre earlier batch ∧ known.saved = earlier.saved :=
    keeps_except fun _ _ _ _ before => before
  apply Keeps.bind third
  intro _
  exact keeps_pure fun _ _ before => before

omit [Fingerprint] in
theorem mem_freshIntents {before after : Batch} {index : Nat} :
    index ∈ freshIntents before after ↔
      index < after.tickets.length ∧ before.status index ≠ .creating ∧ after.status index = .creating := by
  simp [freshIntents]

def Creatable (id : BatchId) (ticket : Ticket) (index : Nat) (known : Knowledge) (batch : Batch) : Prop :=
  Current id known batch ∧ batch.plan.tickets[index]? = some ticket ∧
    (batch.status index = .pending ∨ batch.status index = .retryAuthorized) ∧
    ticket.blockers.all batch.blockerCreated = true

theorem keeps_createTicket (ticket : Ticket) (index : Nat) :
    Keeps (protocol id authority) (Creatable id ticket index) (createTicket ticket index)
      fun known batch _ => Ready id index known batch := by
  unfold createTicket
  apply Keeps.bind (keeps_setStatus index .creating)
  intro _
  have saving : Keeps (protocol id authority)
      (fun known batch => ∃ before, Creatable id ticket index known before ∧ batch = before.withStatus index .creating)
      save fun known batch _ => SavedStatus id (Creatable id ticket index) index .creating known batch := by
    apply keeps_saveStatus (fun known batch before => before.1)
    intro known saved batch before _ _
    rcases before.2.2.1 with pending | authorized
    · rw [pending]
      exact .intent
    · rw [authorized]
      exact .consume
  apply Keeps.bind saving
  intro _
  have reading : Keeps (protocol id authority) (SavedStatus id (Creatable id ticket index) index .creating)
      (get : Publishing Batch)
      fun known batch current => current = batch ∧ CreateAllowed known ticket.title
          (issueBody ticket.body (current.marker index)) ∧ Ready id index known batch := by
    apply keeps_get
    rintro known _ ⟨before, saved, rfl, checked, rfl, tickets, earlier, _, planned, uncreated, blockers⟩
    have inside : index < before.tickets.length := by
      have length := length_of_check checked
      have bound := (List.getElem?_eq_some_iff.mp planned).1
      have same : (before.withStatus index .creating).tickets.length = before.tickets.length := by
        rw [Batch.withStatus, List.length_modify]
      rw [same] at length
      exact length.symm ▸ bound
    have intent : (before.withStatus index .creating).status index = .creating := by
      rw [Batch.status_withStatus, if_pos ⟨rfl, inside⟩]
    have plain : (before.status index).isCreated = false := by
      rcases uncreated with pending | authorized
      · rw [pending]
        rfl
      · rw [authorized]
        rfl
    refine ⟨rfl, ⟨_, index, ticket, rfl, rfl, ?_, planned, rfl, rfl, ?_⟩, current_of_saved checked rfl, ?_⟩
    · rw [mem_freshIntents]
      refine ⟨?_, ?_, intent⟩
      · rw [Batch.withStatus, List.length_modify]
        exact inside
      · rw [Batch.status_congr tickets]
        rcases uncreated with pending | authorized
        · rw [pending]
          decide
        · rw [authorized]
          decide
    · rw [List.all_eq_true] at blockers ⊢
      exact fun blocker member => Batch.blockerCreated_withStatus plain (blockers blocker member)
    · rw [intent]
      rfl
  apply Keeps.bind reading
  intro current
  have requesting : Keeps (protocol id authority)
      (fun known batch => current = batch ∧ CreateAllowed known ticket.title
        (issueBody ticket.body (current.marker index)) ∧ Ready id index known batch)
      (create ticket.title (issueBody ticket.body (current.marker index))) _ :=
    keeps_create fun _ _ before => before.2.1
  apply requesting.mono
  · exact fun _ _ before => before
  · rintro known batch _ ⟨earlier, ⟨_, _, current, uncreated⟩, same⟩
    unfold Current at current
    rw [← same] at current
    exact ⟨current, uncreated⟩

end Checked

end TicketPublication

import BazelRepo.TicketPublication.Directory

namespace TicketPublication

open Library

def TicketStatus.Allows (sent authorized : Nat) : TicketStatus → Prop
  | .pending => sent = 0
  | .retryAuthorized => sent ≤ authorized
  | .creating | .created _ => sent ≤ 1 + authorized

theorem TicketStatus.Allows.mono {status : TicketStatus} {sent authorized later : Nat} (more : authorized ≤ later)
    (allows : status.Allows sent authorized) : status.Allows sent later := by
  cases status <;> simp only [TicketStatus.Allows] at allows ⊢ <;> omega

theorem TicketStatus.Allows.bound {status : TicketStatus} {sent authorized : Nat}
    (allows : status.Allows sent authorized) : sent ≤ 1 + authorized := by
  cases status <;> simp only [TicketStatus.Allows] at allows <;> omega

theorem TicketStatus.Advances.allows {authorised : Prop} {before after : TicketStatus} {sent authorized later : Nat}
    (advances : before.Advances authorised after) (more : authorized ≤ later) (granted : authorised → authorized < later)
    (allows : before.Allows sent authorized) : after.Allows sent later := by
  cases advances with
  | same => exact allows.mono more
  | intent | consume =>
    simp only [TicketStatus.Allows] at allows ⊢
    omega
  | create _ =>
    have bound := allows.bound
    simp only [TicketStatus.Allows]
    omega
  | authorize given _ =>
    have bound := allows.bound
    have strict := granted given
    simp only [TicketStatus.Allows]
    omega

theorem TicketStatus.Advances.fresh {authorised : Prop} {before after : TicketStatus} {sent authorized : Nat}
    (advances : before.Advances authorised after) (new : before ≠ .creating) (intended : after = .creating)
    (allows : before.Allows sent authorized) : sent ≤ authorized := by
  subst intended
  cases advances with
  | same => exact absurd rfl new
  | intent =>
    simp only [TicketStatus.Allows] at allows
    omega
  | consume => exact allows

structure Batch.Extends (before after : Batch) : Prop where
  plan : after.plan = before.plan
  created : ∀ index mapping, before.status index = .created mapping → after.status index = .created mapping

theorem Batch.Extends.refl (batch : Batch) : batch.Extends batch := ⟨rfl, fun _ _ holds => holds⟩

theorem Batch.Extends.trans {first second third : Batch} (one : first.Extends second) (two : second.Extends third) :
    first.Extends third where
  plan := two.plan.trans one.plan
  created := fun index mapping holds => two.created index mapping (one.created index mapping holds)

theorem Batch.Advances.extend {authority : Option TicketKey} {before after : Batch}
    (advances : before.Advances authority after) : before.Extends after where
  plan := advances.plan
  created := by
    intro index mapping created
    have step := advances.steps index
    rw [created] at step
    generalize after.status index = status at step ⊢
    cases step with
    | same => rfl
    | create agrees => rw [agrees mapping rfl]
    | authorize _ uncertain => cases uncertain

def Directory.Accounts (directory : Directory) (id : BatchId) (batch : Batch) : Prop :=
  ∀ index ticket, batch.plan.tickets[index]? = some ticket →
    (batch.status index).Allows (directory.requests id ticket) (directory.authorized ticket.key)

theorem le_increment (authority : Option TicketKey) (counts : TicketKey → Nat) (key : TicketKey) :
    counts key ≤ increment authority counts key := Nat.le_add_right _ _

theorem lt_increment {authority : Option TicketKey} {counts : TicketKey → Nat} {key : TicketKey}
    (granted : authority = some key) : counts key < increment authority counts key := by
  rw [increment, if_pos granted]
  exact Nat.lt_succ_self _

theorem Directory.visible_eq_none {directory : Directory} (nothing : directory.visible = none) :
    directory.versions = [] := List.getLast?_eq_none_iff.mp nothing

theorem Directory.mem_of_visible {directory : Directory} {batch : Batch} (visible : directory.visible = some batch) :
    batch ∈ directory.versions := List.mem_of_getLast? visible

theorem Directory.mem_of_durable {directory : Directory} {batch : Batch} (durable : directory.durable = some batch) :
    batch ∈ directory.versions := by
  rw [Directory.versions, durable]
  exact List.mem_cons_self

theorem Directory.durable_of_settled {directory : Directory} {batch : Batch} (settled : directory.pending = [])
    (visible : directory.visible = some batch) : directory.durable = some batch := by
  rw [Directory.visible, Directory.versions, settled, List.append_nil] at visible
  cases durable : directory.durable with
  | none =>
    rw [durable] at visible
    cases visible
  | some kept =>
    rw [durable] at visible
    exact visible

theorem Directory.durable_of_versions {directory : Directory} (nothing : directory.versions = []) :
    directory.durable = none := by
  cases durable : directory.durable with
  | none => rfl
  | some batch =>
    rw [Directory.versions, durable] at nothing
    cases nothing

theorem Directory.versions_renamed (directory : Directory) (authority : Option TicketKey) (batch : Batch) :
    (directory.renamed authority batch).versions = directory.versions ++ [batch] :=
  (List.append_assoc ..).symm

theorem Directory.visible_renamed (directory : Directory) (authority : Option TicketKey) (batch : Batch) :
    (directory.renamed authority batch).visible = some batch := by
  rw [Directory.visible, Directory.versions_renamed, List.getLast?_concat]

theorem Directory.versions_synchronized (directory : Directory) :
    directory.synchronized.versions = directory.visible.toList := List.append_nil _

section Invariant

variable [Fingerprint]

/-- The snapshots that may be read after a crash, and the requests made so far. -/
structure Directory.Sound (id : BatchId) (directory : Directory) : Prop where
  checked : ∀ batch ∈ directory.versions, batch.check id = .ok ()
  ordered : directory.versions.Pairwise Batch.Extends
  accounts : ∀ batch ∈ directory.versions, directory.Accounts id batch
  untouched : directory.durable = none → directory.sent = []
  planned : ∀ request ∈ directory.sent, ∀ batch ∈ directory.versions, ∃ ticket ∈ batch.plan.tickets,
    request = ticketRequest id ticket

structure Directory.Knows (id : BatchId) (directory : Directory) (known : Knowledge) : Prop where
  saved : known.saved = directory.visible
  synced : known.synced = true → directory.pending = []
  intents : ∀ index ∈ known.intents, ∃ batch ticket, directory.visible = some batch ∧
    batch.status index = .creating ∧ batch.plan.tickets[index]? = some ticket ∧
    directory.requests id ticket ≤ directory.authorized ticket.key

structure Directory.Inv (id : BatchId) (directory : Directory) : Prop where
  sound : directory.Sound id
  running : ∀ command program, directory.running = some (command, program) → ∃ known, directory.Knows id known ∧
    program.Follows (protocol id command.authority) (fun _ _ => True) known

variable {id : BatchId} {directory : Directory}

theorem Directory.Sound.sublist {next : Directory} (sound : directory.Sound id)
    (kept : next.versions.Sublist directory.versions) (sent : next.sent = directory.sent)
    (authorized : next.authorized = directory.authorized) (durable : next.durable = none → directory.durable = none) :
    next.Sound id where
  checked := fun batch member => sound.checked batch (kept.subset member)
  ordered := sound.ordered.sublist kept
  accounts := by
    intro batch member index ticket planned
    rw [Directory.requests, sent, authorized]
    exact sound.accounts batch (kept.subset member) index ticket planned
  untouched := fun nothing => sent.trans (sound.untouched (durable nothing))
  planned := by
    intro request made batch member
    rw [sent] at made
    exact sound.planned request made batch (kept.subset member)

theorem Directory.Sound.synchronized (sound : directory.Sound id) : directory.synchronized.Sound id := by
  have kept : directory.synchronized.versions.Sublist directory.versions := by
    rw [Directory.versions_synchronized]
    cases visible : directory.visible with
    | none => exact List.nil_sublist _
    | some batch => exact List.singleton_sublist.mpr (Directory.mem_of_visible visible)
  apply sound.sublist kept rfl rfl
  intro nothing
  exact Directory.durable_of_versions (Directory.visible_eq_none nothing)

theorem Directory.Sound.extends_visible (sound : directory.Sound id) {visible : Batch}
    (last : directory.visible = some visible) : ∀ batch ∈ directory.versions, batch.Extends visible := by
  intro batch member
  rcases List.getLast?_eq_some_iff.mp last with ⟨earlier, split⟩
  have ordered := sound.ordered
  rw [split] at ordered member
  rcases List.mem_append.mp member with member | member
  · exact (List.pairwise_append.mp ordered).2.2 batch member visible List.mem_cons_self
  · rw [List.mem_singleton.mp member]
    exact Batch.Extends.refl visible

theorem Directory.Sound.replace (sound : directory.Sound id) {authority : Option TicketKey} {before batch : Batch}
    (visible : directory.visible = some before) (checked : batch.check id = .ok ())
    (advances : before.Advances authority batch) : (directory.renamed authority batch).Sound id where
  checked := by
    rw [Directory.versions_renamed]
    intro version member
    rcases List.mem_append.mp member with member | member
    · exact sound.checked version member
    · rw [List.mem_singleton.mp member]
      exact checked
  ordered := by
    rw [Directory.versions_renamed]
    refine List.pairwise_append.mpr ⟨sound.ordered, List.pairwise_singleton _ _, ?_⟩
    intro version member other new
    rw [List.mem_singleton.mp new]
    exact (sound.extends_visible visible version member).trans advances.extend
  accounts := by
    rw [Directory.versions_renamed]
    intro version member index ticket planned
    rcases List.mem_append.mp member with member | member
    · exact (sound.accounts version member index ticket planned).mono (le_increment _ _ _)
    · rw [List.mem_singleton.mp member] at planned ⊢
      rw [advances.plan] at planned
      have allows := sound.accounts before (Directory.mem_of_visible visible) index ticket planned
      apply (advances.steps index).allows (le_increment _ _ _) _ allows
      rintro ⟨key, granted, position⟩
      rw [Batch.keyAt, planned] at position
      cases position
      exact lt_increment granted
  untouched := sound.untouched
  planned := by
    rw [Directory.versions_renamed]
    intro request made version member
    rcases List.mem_append.mp member with member | member
    · exact sound.planned request made version member
    · rw [List.mem_singleton.mp member, advances.plan]
      exact sound.planned request made before (Directory.mem_of_visible visible)

theorem Directory.Sound.first (sound : directory.Sound id) {authority : Option TicketKey} {batch : Batch}
    (nothing : directory.visible = none) (checked : batch.check id = .ok ())
    (pending : ∀ index, batch.status index = .pending) : (directory.renamed authority batch).Sound id := by
  have empty := Directory.visible_eq_none nothing
  have unsent := sound.untouched (Directory.durable_of_versions empty)
  have versions : (directory.renamed authority batch).versions = [batch] := by
    rw [Directory.versions_renamed, empty]
    rfl
  constructor
  · rw [versions]
    intro version member
    rw [List.mem_singleton.mp member]
    exact checked
  · rw [versions]
    exact List.pairwise_singleton _ _
  · rw [versions]
    intro version member index ticket _
    rw [List.mem_singleton.mp member, pending index, Directory.requests]
    show List.count _ directory.sent = 0
    rw [unsent]
    rfl
  · exact fun _ => unsent
  · intro request made
    have made : request ∈ directory.sent := made
    rw [unsent] at made
    cases made

theorem Directory.Sound.create (sound : directory.Sound id) {batch : Batch} (settled : directory.pending = [])
    (visible : directory.visible = some batch) {index : Nat} {ticket : Ticket}
    (planned : batch.plan.tickets[index]? = some ticket) (intended : batch.status index = .creating)
    (fresh : directory.requests id ticket ≤ directory.authorized ticket.key) :
    Directory.Sound id { directory with sent := directory.sent ++ [ticketRequest id ticket] } := by
  have versions : directory.versions = directory.durable.toList := by
    rw [Directory.versions, settled, List.append_nil]
  have durable := Directory.durable_of_settled settled visible
  have only : ∀ version ∈ directory.versions, version = batch := by
    intro version member
    rw [versions, durable] at member
    exact List.mem_singleton.mp member
  constructor
  · exact sound.checked
  · exact sound.ordered
  · intro version member other about listed
    cases only version member
    have allows := sound.accounts batch (Directory.mem_of_visible visible) other about listed
    show (batch.status other).Allows ((directory.sent ++ [ticketRequest id ticket]).count (ticketRequest id about)) _
    rw [List.count_append]
    by_cases same : other = index
    · subst same
      rw [planned] at listed
      cases listed
      have counted : directory.sent.count (ticketRequest id ticket) ≤ directory.authorized ticket.key := fresh
      rw [intended, List.count_singleton_self]
      simp only [TicketStatus.Allows]
      omega
    · have apart : ticketRequest id ticket ≠ ticketRequest id about := by
        intro equal
        have key := key_of_ticketRequest equal
        have checked := (tickets_of_check (sound.checked batch (Directory.mem_of_visible visible))).2.1
        exact same (index_of_key checked planned listed key).symm
      rw [List.count_singleton, if_neg (by simpa using apart)]
      exact allows
  · intro nothing
    rw [durable] at nothing
    cases nothing
  · intro request made version member
    rcases List.mem_append.mp made with made | made
    · exact sound.planned request made version member
    · rw [List.mem_singleton.mp made, only version member]
      exact ⟨ticket, List.mem_of_getElem? planned, rfl⟩

theorem Directory.Knows.persisted {known : Knowledge} (knows : directory.Knows id known) (sound : directory.Sound id)
    {authority : Option TicketKey} {batch : Batch} (checked : batch.check id = .ok ())
    (steps : ∀ before, known.saved = some before → before.Advances authority batch) (outcome : SaveOutcome) :
    (directory.persisted authority batch outcome).Knows id (known.afterPersist batch outcome) := by
  cases outcome with
  | refused =>
    refine ⟨knows.saved, knows.synced, ?_⟩
    intro index member
    cases member
  | unsynced =>
    refine ⟨(Directory.visible_renamed directory authority batch).symm, ?_, ?_⟩
    · intro impossible
      cases impossible
    · intro index member
      cases member
  | saved =>
    have visible : (directory.renamed authority batch).synchronized.visible = some batch := by
      rw [Directory.visible, Directory.versions_synchronized, Directory.visible_renamed]
      rfl
    refine ⟨visible.symm, fun _ => rfl, ?_⟩
    intro index member
    cases saved : known.saved with
    | none =>
      simp only [Knowledge.afterPersist, saved, Option.map_none, Option.getD_none] at member
      cases member
    | some before =>
      simp only [Knowledge.afterPersist, saved, Option.map_some, Option.getD_some] at member
      rcases mem_freshIntents.mp member with ⟨inside, new, intended⟩
      rw [length_of_check checked] at inside
      rcases List.getElem?_eq_some_iff.mpr ⟨inside, rfl⟩ with planned
      generalize batch.plan.tickets[index] = ticket at planned
      have advances := steps before saved
      refine ⟨batch, ticket, visible, intended, planned, ?_⟩
      have earlier := planned
      rw [advances.plan] at earlier
      have last : directory.visible = some before := knows.saved.symm.trans saved
      have allows := sound.accounts before (Directory.mem_of_visible last) index ticket earlier
      exact ((advances.steps index).fresh new intended allows).trans (le_increment _ _ _)

theorem Directory.Sound.persisted (sound : directory.Sound id) {authority : Option TicketKey} {batch : Batch}
    (renamed : (directory.renamed authority batch).Sound id) (outcome : SaveOutcome) :
    (directory.persisted authority batch outcome).Sound id := by
  cases outcome with
  | refused => exact sound
  | unsynced => exact renamed
  | saved => exact renamed.synchronized

theorem Directory.Sound.rerun (sound : directory.Sound id)
    (running : Option (Command × Program Call Call.Answer (Except Failure Unit))) :
    Directory.Sound id { directory with running := running } :=
  ⟨sound.checked, sound.ordered, sound.accounts, sound.untouched, sound.planned⟩

omit [Fingerprint] in
theorem Directory.Knows.rerun {known : Knowledge} (knows : directory.Knows id known)
    (running : Option (Command × Program Call Call.Answer (Except Failure Unit))) :
    Directory.Knows id { directory with running := running } known :=
  ⟨knows.saved, knows.synced, knows.intents⟩

theorem Directory.Knows.answered {known : Knowledge} (knows : directory.Knows id known) (sound : directory.Sound id)
    {authority : Option TicketKey} {call : Call} (allowed : (protocol id authority).allowed known call)
    (answer : call.Answer) (possible : directory.Possible call answer) :
    (directory.answered authority call answer).Sound id ∧
      (directory.answered authority call answer).Knows id ((protocol id authority).after known call answer) := by
  cases call with
  | remote request => exact ⟨sound, knows⟩
  | create title body =>
    rcases allowed with ⟨batch, index, ticket, saved, synced, fresh, planned, rfl, rfl, _⟩
    rcases knows.intents index fresh with ⟨intent, listed, visible, intended, about, unspent⟩
    rw [knows.saved, visible] at saved
    cases saved
    rw [planned] at about
    cases about
    have checked := sound.checked batch (Directory.mem_of_visible visible)
    rw [marker_of_check checked planned]
    refine ⟨sound.create (knows.synced synced) visible planned intended unspent, knows.saved, knows.synced, ?_⟩
    intro other member
    cases member
  | persist batch =>
    rcases allowed with ⟨checked, before, saved, advances⟩
    have visible : directory.visible = some before := knows.saved.symm.trans saved
    refine ⟨sound.persisted (sound.replace visible checked advances) answer, ?_⟩
    apply knows.persisted sound checked
    intro other found
    rw [saved] at found
    cases found
    exact advances
  | persistNoclobber batch =>
    rcases allowed with ⟨nothing, checked, pending⟩
    have visible : directory.visible = none := knows.saved.symm.trans nothing
    refine ⟨sound.persisted (sound.first visible checked pending) answer, ?_⟩
    apply knows.persisted sound checked
    intro other found
    rw [nothing] at found
    cases found

/-- One step of a directory keeps the invariant. -/
theorem Directory.Inv.step (inv : directory.Inv id) {next : Directory} (step : Directory.Step id directory next) :
    next.Inv id := by
  have idle : ∀ {stopped : Directory}, stopped.Sound id → stopped.running = none → stopped.Inv id := by
    intro stopped sound nothing
    refine ⟨sound, ?_⟩
    intro command program running
    rw [nothing] at running
    cases running
  cases step with
  | start command free =>
    refine ⟨inv.sound.rerun _, ?_⟩
    rintro _ _ ⟨⟩
    refine ⟨⟨directory.visible, false, []⟩, ⟨rfl, ?_, ?_⟩, execute_follows _ command⟩
    · intro impossible
      cases impossible
    · intro index member
      cases member
  | answer answer asking possible =>
    rcases inv.running _ _ asking with ⟨known, knows, allowed, follows⟩
    rcases knows.answered inv.sound allowed answer possible with ⟨sound, later⟩
    refine ⟨sound.rerun _, ?_⟩
    rintro _ _ ⟨⟩
    exact ⟨_, later.rerun _, follows answer⟩
  | finish ended =>
    exact idle (inv.sound.sublist (List.Sublist.refl _) rfl rfl fun nothing => nothing) rfl
  | crash => exact idle (inv.sound.rerun none) rfl
  | writeback waiting =>
    rename_i batch later
    have versions : directory.versions = directory.durable.toList ++ batch :: later := by
      rw [Directory.versions, waiting]
    have kept : (batch :: later).Sublist directory.versions := by
      rw [versions]
      exact List.sublist_append_right _ _
    have last : (batch :: later).getLast? = directory.visible := by
      rw [Directory.visible, versions, List.getLast?_append_of_ne_nil _ (List.cons_ne_nil _ _)]
    refine ⟨inv.sound.sublist kept rfl rfl (fun nothing => by cases nothing), ?_⟩
    intro command program running
    rcases inv.running command program running with ⟨known, knows, follows⟩
    refine ⟨known, ⟨knows.saved.trans last.symm, ?_, ?_⟩, follows⟩
    · intro synced
      have settled := knows.synced synced
      rw [waiting] at settled
      cases settled
    · intro index member
      rcases knows.intents index member with ⟨intent, ticket, visible, rest⟩
      exact ⟨intent, ticket, last.trans visible, rest⟩
  | powerLoss =>
    have kept : directory.powerLoss.versions.Sublist directory.versions := by
      rw [Directory.versions, Directory.versions]
      exact List.Sublist.append_left (List.nil_sublist _) _
    exact idle (inv.sound.sublist kept rfl rfl fun nothing => nothing) rfl

theorem Directory.Inv.durable_extends (inv : directory.Inv id) {next : Directory}
    (step : Directory.Step id directory next) {batch : Batch} (durable : directory.durable = some batch) :
    ∃ later, next.durable = some later ∧ batch.Extends later := by
  have listed := Directory.mem_of_durable durable
  have same : ∃ later, directory.durable = some later ∧ batch.Extends later := ⟨batch, durable, Batch.Extends.refl batch⟩
  have saved : ∀ {authority : Option TicketKey} {new : Batch}, (directory.renamed authority new).Sound id →
      ∀ outcome, ∃ later, (directory.persisted authority new outcome).durable = some later ∧ batch.Extends later := by
    intro authority new sound outcome
    cases outcome with
    | refused => exact same
    | unsynced => exact same
    | saved =>
      have visible := Directory.visible_renamed directory authority new
      refine ⟨new, visible, sound.extends_visible visible batch ?_⟩
      rw [Directory.versions_renamed]
      exact List.mem_append_left _ listed
  cases step with
  | start | finish | crash | powerLoss => exact same
  | writeback waiting =>
    rename_i new later
    have ordered := inv.sound.ordered
    rw [Directory.versions, durable, waiting] at ordered
    exact ⟨new, rfl, (List.pairwise_cons.mp ordered).1 new List.mem_cons_self⟩
  | answer answer asking possible =>
    rename_i command call next
    rcases inv.running _ _ asking with ⟨known, knows, allowed, _⟩
    cases call with
    | remote | create => exact same
    | persist new =>
      rcases allowed with ⟨checked, before, found, advances⟩
      exact saved (inv.sound.replace (knows.saved.symm.trans found) checked advances) answer
    | persistNoclobber new =>
      rcases allowed with ⟨nothing, checked, pending⟩
      exact saved (inv.sound.first (knows.saved.symm.trans nothing) checked pending) answer

theorem Directory.inv_empty : Directory.Inv id {} := by
  constructor
  · constructor
    · intro batch member
      cases member
    · exact List.Pairwise.nil
    · intro batch member
      cases member
    · exact fun _ => rfl
    · intro request made
      cases made
  · rintro _ _ ⟨⟩

theorem Root.Step.directory_step {root next : Root} (step : Root.Step root next) (id : BatchId) :
    next id = root id ∨ Directory.Step id (root id) (next id) := by
  cases step with
  | directory step =>
    rename_i other changed
    by_cases same : id = other
    · subst same
      rw [Function.update_self]
      exact .inr step
    · rw [Function.update_of_ne same]
      exact .inl rfl
  | powerLoss => exact .inr (.powerLoss _)

theorem Root.Steps.inv {root : Root} (reached : Root.Steps Root.empty root) (id : BatchId) : (root id).Inv id := by
  induction reached with
  | refl => exact Directory.inv_empty
  | tail _ step ih =>
    rcases step.directory_step id with same | step
    · rw [same]
      exact ih
    · exact ih.step step

theorem Root.Steps.durable_extends {root later : Root} (reached : Root.Steps Root.empty root)
    (steps : Root.Steps root later) {id : BatchId} {batch : Batch} (durable : (root id).durable = some batch) :
    ∃ next, (later id).durable = some next ∧ batch.Extends next := by
  induction steps with
  | refl => exact ⟨batch, durable, Batch.Extends.refl batch⟩
  | tail earlier step ih =>
    rcases ih with ⟨middle, kept, extended⟩
    rcases step.directory_step id with same | step
    · rw [same]
      exact ⟨middle, kept, extended⟩
    · have inv := Root.Steps.inv (reached.trans earlier) id
      rcases inv.durable_extends step kept with ⟨next, found, more⟩
      exact ⟨next, found, extended.trans more⟩

end Invariant

end TicketPublication

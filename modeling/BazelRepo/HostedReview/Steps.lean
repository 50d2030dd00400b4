import BazelRepo.HostedReview.Invariant

namespace HostedReview

open Library (Exchange Formats Program Protocol SaveOutcome Stateful Uuid Versions)

variable {directory later : Directory} {invocation other : InvocationId}

section Answers

theorem Directory.answered_log (directory : Directory) (invocation : InvocationId) (call : Call) (answer : call.Answer) :
    (directory.answered invocation call answer).log = directory.log ++ [(invocation, ⟨call, answer⟩)] := by
  cases call with
  | openStore => cases answer <;> rfl
  | readState | readWake | saveWake | save | freshId | pull | comments | actor | evidence | send => rfl

/-- Whoever is answered has the lock, unless it failed to get it. -/
theorem Directory.answered_holder {call : Call} {answer : call.Answer} (possible : directory.Possible invocation call answer) :
    (directory.answered invocation call answer).holder = some invocation ∨
      ∃ failure, call = .openStore ∧ directory.answered invocation call answer =
        directory.noted invocation ⟨.openStore, .error failure⟩ := by
  cases call with
  | openStore =>
    cases answer with
    | error failure => exact .inr ⟨failure, rfl, rfl⟩
    | ok u => exact .inl rfl
  | readState =>
    cases answer with
    | error => exact .inl possible
    | ok => exact .inl possible.1
  | freshId => exact .inl possible.1
  | readWake | saveWake | save | pull | comments | actor | evidence | send => exact .inl possible

end Answers

variable [Formats]

section Steps

theorem reviewing_asked {known : Known} (call : Call) (answer : call.Answer) :
    (reviewing.after known call answer).asked = known.asked ++ [⟨call, answer⟩] := by
  cases call with
  | readState => cases answer <;> rfl
  | save state => cases answer <;> rfl
  | openStore | readWake | saveWake | freshId | pull | comments | actor | evidence | send => rfl

omit [Formats] in
theorem Directory.Inv.fresh (inv : directory.Inv) (id : Uuid) :
    ({ directory with issued := directory.issued ++ [id] } : Directory).Inv :=
  { inv with issued := fun state member request listed => List.mem_append_left _ (inv.issued state member request listed) }

theorem Directory.Facts.fresh {known : Known} (inv : directory.Inv) (facts : directory.Facts known) {id : Uuid}
    (new : id ∉ directory.issued) :
    ({ directory with issued := directory.issued ++ [id] } : Directory).Facts { known with ids := known.ids ++ [id] } where
  requests := facts.requests
  ids := by
    intro used member
    rcases List.mem_append.mp member with member | member
    · exact ⟨List.mem_append_left _ (facts.ids used member).1, (facts.ids used member).2⟩
    · rw [List.mem_singleton.mp member]
      refine ⟨List.mem_append_right _ (List.mem_singleton_self _), ?_⟩
      rintro state listed request saved rfl
      exact new (inv.issued state listed request saved)
  intent := facts.intent

theorem Directory.Facts.sends {known : Known} {body : String} (facts : directory.Facts known) (answer : Except String Comment) :
    (directory.noted invocation ⟨.send body, answer⟩).Facts { known.note ⟨.send body, answer⟩ with intent := none } where
  requests := facts.requests
  ids := facts.ids
  intent := by
    intro earlier request intended
    cases intended

theorem answered_sound {known : Known} {call : Call} {answer : call.Answer} (inv : directory.Inv)
    (agrees : directory.Agrees invocation (some known)) (allowed : reviewing.allowed known call)
    (possible : directory.Possible invocation call answer) :
    (directory.answered invocation call answer).Inv ∧
      ((directory.answered invocation call answer).holder = some invocation →
        (directory.answered invocation call answer).Facts (reviewing.after known call answer)) := by
  rcases agrees with ⟨asked, knows⟩
  have quiet : ∀ exchange : Exchange Call Call.Answer, (∀ body, exchange.1 ≠ .send body) →
      directory.holder = some invocation →
      (directory.noted invocation exchange).Inv ∧ (directory.noted invocation exchange).Facts (known.note exchange) :=
    fun exchange silent locked => ⟨inv.noted silent, ((knows locked).noted silent).note exchange⟩
  cases call with
  | openStore =>
    rcases allowed with ⟨unread, noIds, noIntent⟩
    have kept : (directory.noted invocation ⟨.openStore, answer⟩).Inv := inv.noted (by simp)
    have nothing : ∀ directory : Directory, directory.Facts (known.note ⟨.openStore, answer⟩) := by
      intro directory
      refine ⟨?_, ?_, ?_⟩
      · intro requests read
        exact absurd (unread.symm.trans read) (by simp)
      · intro id member
        have member : id ∈ known.ids := member
        rw [noIds] at member
        cases member
      · intro earlier request intended
        exact absurd (noIntent.symm.trans intended) (by simp)
    cases answer with
    | error failure => exact ⟨kept, fun _ => nothing _⟩
    | ok u => exact ⟨{ kept with }, fun _ => nothing _⟩
  | readState =>
    cases answer with
    | error failure =>
      rcases quiet ⟨.readState, .error failure⟩ (by simp) possible with ⟨kept, facts⟩
      exact ⟨kept, fun _ => facts⟩
    | ok found =>
      rcases possible with ⟨locked, rfl⟩
      rcases allowed with ⟨noIds, noIntent⟩
      rcases quiet ⟨.readState, .ok directory.files.visible⟩ (by simp) locked with ⟨kept, facts⟩
      refine ⟨kept, fun _ => ⟨?_, facts.ids, ?_⟩⟩
      · intro requests read
        exact (Option.some.inj read).symm
      · intro earlier request intended
        exact absurd (noIntent.symm.trans intended) (by simp)
  | save state =>
    rcases allowed with ⟨requests, read, edit⟩
    have facts : (directory.noted invocation ⟨.save state, answer⟩).Facts known := (knows possible).noted (by simp)
    have kept : (directory.noted invocation ⟨.save state, answer⟩).Inv := inv.noted (by simp)
    have logged : ∀ exchange ∈ known.asked, (invocation, exchange) ∈ (directory.noted invocation ⟨.save state, answer⟩).log :=
      fun exchange member => List.mem_append_left _ (asked exchange member)
    refine ⟨kept.saved facts logged read edit answer, fun _ => ?_⟩
    have saved := facts.saved kept read edit answer
    cases answer <;> exact saved.note _
  | freshId =>
    rcases possible with ⟨locked, new⟩
    rcases quiet ⟨.freshId, answer⟩ (by simp) locked with ⟨kept, facts⟩
    exact ⟨kept.fresh answer, fun _ => facts.fresh kept new⟩
  | send body =>
    rcases allowed with ⟨earlier, request, intent, rfl⟩
    exact ⟨inv.sends (knows possible) intent answer, fun _ => (knows possible).sends answer⟩
  | readWake | saveWake | pull | comments | actor | evidence =>
    rcases quiet ⟨_, answer⟩ (by simp) possible with ⟨kept, facts⟩
    exact ⟨kept, fun _ => facts⟩

theorem answered_others {call : Call} {answer : call.Answer} {thought : Option Known}
    (possible : directory.Possible invocation call answer)
    (differs : other ≠ invocation) (holds : directory.Agrees other thought) :
    (directory.answered invocation call answer).Agrees other thought := by
  have logged : ∀ entry ∈ directory.log, entry ∈ (directory.answered invocation call answer).log := by
    intro entry member
    rw [Directory.answered_log]
    exact List.mem_append_left _ member
  rcases Directory.answered_holder possible with mine | ⟨failure, rfl, same⟩
  · have notOther : (directory.answered invocation call answer).holder ≠ some other := by
      rw [mine]
      exact fun same => differs (Option.some.inj same).symm
    cases thought with
    | none => exact notOther
    | some known => exact ⟨fun exchange member => logged _ (holds.1 exchange member), fun held => absurd held notOther⟩
  · rw [same] at logged ⊢
    cases thought with
    | none => exact holds
    | some known =>
      exact ⟨fun exchange member => logged _ (holds.1 exchange member), fun held => (holds.2 held).noted (by simp)⟩

theorem Runs.own {known : Known} {call : Call} {answer : call.Answer} (inv : directory.Inv)
    (agrees : directory.Agrees invocation (some known)) (allowed : reviewing.allowed known call)
    (runs : Runs directory invocation call answer later) :
    later.Inv ∧ later.Agrees invocation (some (reviewing.after known call answer)) := by
  cases runs with
  | run possible =>
    rcases answered_sound inv agrees allowed possible with ⟨kept, facts⟩
    refine ⟨kept, ?_, facts⟩
    intro exchange member
    rw [reviewing_asked] at member
    rw [Directory.answered_log]
    rcases List.mem_append.mp member with member | member
    · exact List.mem_append_left _ (agrees.1 exchange member)
    · rw [List.mem_singleton.mp member]
      exact List.mem_append_right _ (List.mem_singleton_self _)

omit [Formats] in
theorem Directory.Inv.sublist {files : Versions State} (inv : directory.Inv)
    (kept : files.all.Sublist directory.files.all)
    (durable : ∀ state, directory.files.durable = some state → ∃ newer, files.durable = some newer ∧
      Grown state.requests newer.requests) : ({ directory with files := files } : Directory).Inv where
  ordered := inv.ordered.sublist kept
  settled := fun state member => inv.settled state (kept.subset member)
  distinct := fun state member => inv.distinct state (kept.subset member)
  issued := fun state member => inv.issued state (kept.subset member)
  confirmed := fun state member => inv.confirmed state (kept.subset member)
  sent := by
    intro body sent
    rcases inv.sent body sent with ⟨state, found, request, listed, same⟩
    rcases durable state found with ⟨newer, later, grown⟩
    rcases grown.mem listed with ⟨after, member, becomes⟩
    exact ⟨newer, later, after, member, becomes.body.trans same⟩
  once := inv.once

theorem Moves.keeps (inv : directory.Inv) (moves : Moves directory later) :
    later.Inv ∧ ∀ invocation thought, directory.Agrees invocation thought → later.Agrees invocation thought := by
  have free : ∀ files : Versions State, ∀ invocation thought, directory.Agrees invocation thought →
      ({ directory with files := files, holder := none } : Directory).Agrees invocation thought := by
    intro files invocation thought agrees
    cases thought with
    | none => exact fun held => nomatch held
    | some known => exact ⟨agrees.1, fun held => nomatch held⟩
  cases moves with
  | release => exact ⟨{ inv with }, free directory.files⟩
  | powerLoss =>
    refine ⟨{ inv.sublist (Versions.sublist_powerLoss _) ?_ with }, free _⟩
    exact fun state found => ⟨state, found, .refl _⟩
  | @writeback files written =>
    refine ⟨inv.sublist written.sublist ?_, ?_⟩
    · intro state found
      have ordered := inv.ordered
      generalize directory.files = old at written found ordered
      cases written with
      | write durable newer rest =>
        dsimp only at found
        subst found
        exact ⟨newer, rfl, (List.pairwise_cons.mp ordered).1 newer List.mem_cons_self⟩
    · intro invocation thought agrees
      cases thought with
      | none => exact agrees
      | some known =>
        refine ⟨agrees.1, fun held => ?_⟩
        have facts := agrees.2 held
        refine ⟨?_, ?_, ?_⟩
        · rw [written.visible]
          exact facts.requests
        · intro id member
          refine ⟨(facts.ids id member).1, ?_⟩
          exact fun state listed => (facts.ids id member).2 state (written.sublist.subset listed)
        · intro earlier request intended
          exact absurd (facts.intent earlier request intended).1 written.not_settled

end Steps

end HostedReview

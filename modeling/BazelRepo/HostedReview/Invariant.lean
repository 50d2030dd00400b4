import BazelRepo.HostedReview.Directory
import Mathlib.Data.List.Nodup

namespace HostedReview

open Library (Exchange Formats Program Protocol SaveOutcome Stateful Uuid Versions)

variable [Formats]

structure Directory.Inv (directory : Directory) : Prop where
  ordered : directory.files.all.Pairwise fun a b => Grown a.requests b.requests
  settled : ∀ state ∈ directory.files.all, Settled state.requests
  distinct : ∀ state ∈ directory.files.all, (state.requests.map (·.id)).Nodup
  issued : ∀ state ∈ directory.files.all, ∀ request ∈ state.requests, request.id ∈ directory.issued
  confirmed : ∀ state ∈ directory.files.all, ∀ request ∈ state.requests, ∀ comment, request.comment = some comment →
    Confirmed directory.log request comment
  sent : ∀ body, Sent directory.log body → ∃ state, directory.files.durable = some state ∧
    ∃ request ∈ state.requests, request.body = body
  once : (sentBodies directory.log).Nodup

structure Directory.Facts (directory : Directory) (known : Known) : Prop where
  requests : ∀ requests, known.requests = some requests → requests = directory.files.visible.elim [] State.requests
  ids : ∀ id ∈ known.ids, id ∈ directory.issued ∧ ∀ state ∈ directory.files.all, ∀ request ∈ state.requests,
    request.id ≠ id
  intent : ∀ earlier request, known.intent = some (earlier, request) → directory.files.pending = [] ∧
    (∃ state, directory.files.durable = some state ∧ state.requests = earlier ++ [request]) ∧
    ¬ Sent directory.log request.body ∧ Justified known.cli known.asked earlier request

def Directory.Agrees (directory : Directory) (invocation : InvocationId) : Option Known → Prop
  | none => directory.holder ≠ some invocation
  | some known => (∀ exchange ∈ known.asked, (invocation, exchange) ∈ directory.log) ∧
      (directory.holder = some invocation → directory.Facts known)

section Log

variable {directory : Directory} {invocation : InvocationId} {exchange : Exchange Call Call.Answer} {log : Log}
  {request : Request} {comment : Nat}

omit [Formats] in
theorem sentBodies_snoc_other (quiet : ∀ body, exchange.1 ≠ .send body) :
    sentBodies (log ++ [(invocation, exchange)]) = sentBodies log := by
  unfold sentBodies
  rw [List.filterMap_append]
  rcases exchange with ⟨call, answer⟩
  cases call with
  | send body => exact absurd rfl (quiet body)
  | openStore | readState | readWake | saveWake | save | freshId | pull | comments | actor | evidence =>
    exact List.append_nil _

omit [Formats] in
theorem sentBodies_snoc_send (body : String) (answer : Except String Comment) :
    sentBodies (log ++ [(invocation, ⟨.send body, answer⟩)]) = sentBodies log ++ [body] := by
  unfold sentBodies
  rw [List.filterMap_append]
  rfl

omit [Formats] in
theorem Confirmed.grow {entry : InvocationId × Exchange Call Call.Answer}
    (quiet : Sent (log ++ [entry]) request.body → Sent log request.body) (confirmed : Confirmed log request comment) :
    Confirmed (log ++ [entry]) request comment := by
  cases confirmed with
  | matched seen unique => exact .matched (List.mem_append_left _ seen) unique
  | answered seen owner same => exact .answered (List.mem_append_left _ seen) owner same
  | tracked seen member owner marked named unsent =>
    exact .tracked (List.mem_append_left _ seen) member owner marked named fun sent => unsent (quiet sent)

omit [Formats] in
theorem Directory.Inv.noted (inv : directory.Inv) (quiet : ∀ body, exchange.1 ≠ .send body) :
    (directory.noted invocation exchange).Inv where
  ordered := inv.ordered
  settled := inv.settled
  distinct := inv.distinct
  issued := inv.issued
  confirmed := by
    intro state member request listed comment found
    apply (inv.confirmed state member request listed comment found).grow
    unfold Sent
    rw [sentBodies_snoc_other quiet]
    exact id
  sent := by
    intro body sent
    unfold Sent Directory.noted at sent
    rw [sentBodies_snoc_other quiet] at sent
    exact inv.sent body sent
  once := by
    unfold Directory.noted
    rw [sentBodies_snoc_other quiet]
    exact inv.once

theorem Directory.Facts.noted {known : Known} (facts : directory.Facts known) (quiet : ∀ body, exchange.1 ≠ .send body) :
    (directory.noted invocation exchange).Facts known where
  requests := facts.requests
  ids := facts.ids
  intent := by
    intro earlier request intended
    rcases facts.intent earlier request intended with ⟨settled, durable, unsent, justified⟩
    refine ⟨settled, durable, ?_, justified⟩
    unfold Sent Directory.noted
    rw [sentBodies_snoc_other quiet]
    exact unsent

theorem Justified.note {cli : Cli} {asked : Asked} {earlier : List Request} (justified : Justified cli asked earlier request)
    (exchange : Exchange Call Call.Answer) : Justified cli (asked ++ [exchange]) earlier request := by
  rcases justified with ⟨unconfirmed, reason⟩
  refine ⟨unconfirmed, ?_⟩
  split
  · rename_i nothing
    rw [nothing] at reason
    exact reason
  · rename_i found
    rw [found] at reason
    rcases reason with ⟨confirmed, late, comments, seen, incomplete⟩
    exact ⟨confirmed, late, comments, List.mem_append_left _ seen, incomplete⟩

theorem Directory.Facts.note {known : Known} (facts : directory.Facts known) (exchange : Exchange Call Call.Answer) :
    directory.Facts (known.note exchange) where
  requests := facts.requests
  ids := facts.ids
  intent := by
    intro earlier request intended
    rcases facts.intent earlier request intended with ⟨settled, durable, unsent, justified⟩
    exact ⟨settled, durable, unsent, justified.note exchange⟩

end Log

section Edits

variable {known : Known} {requests later : List Request}

theorem Edit.grown (edit : Edit known requests later) : Grown requests later := by
  have confirms : ∀ (request : Request) (comment at' : Nat), request.comment = none →
      request.Becomes { request with comment := some comment, at' := at' } := by
    intro request comment at' unconfirmed
    refine ⟨rfl, rfl, rfl, ?_⟩
    intro confirmed
    rw [unconfirmed] at confirmed
    cases confirmed
  cases edit with
  | matched split unconfirmed =>
    rw [split]
    exact grown_replace (confirms _ _ _ unconfirmed) _ _
  | tracked | intended => exact grown_append _ _
  | answered split unconfirmed =>
    rw [split]
    exact grown_replace (confirms _ _ _ unconfirmed) _ _

omit [Formats] in
theorem confirmed_of_last {head : Commit} (settled : Settled requests)
    (last : ∀ before found after, lastRequest head requests = some (before, found, after) → found.comment.isSome = true) :
    ∀ request ∈ requests, request.head = head → request.comment.isSome = true := by
  intro request member named
  cases found : lastRequest head requests with
  | none => exact absurd named (lastRequest_eq_none found request member)
  | some split =>
    rcases split with ⟨before, final, after⟩
    rcases lastRequest_eq_some found with ⟨same, finally', other⟩
    unfold Settled at settled
    rw [same] at settled member
    rcases List.mem_append.mp member with early | member
    · exact (List.pairwise_append.mp settled).2.2 request early final List.mem_cons_self (named.trans finally'.symm)
    · rcases List.mem_cons.mp member with rfl | member
      · exact last before request after found
      · exact absurd named (other request member)

theorem Justified.confirmed {cli : Cli} {asked : Asked} {request : Request} (settled : Settled requests)
    (justified : Justified cli asked requests request) :
    ∀ earlier ∈ requests, earlier.head = request.head → earlier.comment.isSome = true := by
  apply confirmed_of_last settled
  intro before found after last
  have reason := justified.2
  rw [last] at reason
  exact reason.1

omit [Formats] in
theorem settled_append {request : Request} (settled : Settled requests)
    (confirmed : ∀ earlier ∈ requests, earlier.head = request.head → earlier.comment.isSome = true) :
    Settled (requests ++ [request]) := by
  apply List.pairwise_append.mpr
  refine ⟨settled, List.pairwise_singleton _ _, ?_⟩
  intro earlier member last same
  rw [List.mem_singleton.mp same]
  exact confirmed earlier member

omit [Formats] in
theorem settled_replace {before after : List Request} {request confirmed : Request}
    (settled : Settled (before ++ request :: after)) (head : confirmed.head = request.head)
    (some : confirmed.comment.isSome = true) : Settled (before ++ confirmed :: after) := by
  rcases List.pairwise_append.mp settled with ⟨early, late, across⟩
  rcases List.pairwise_cons.mp late with ⟨_, rest⟩
  apply List.pairwise_append.mpr
  refine ⟨early, List.pairwise_cons.mpr ⟨fun _ _ _ => some, rest⟩, ?_⟩
  intro earlier member later listed
  rcases List.mem_cons.mp listed with rfl | listed
  · rw [head]
    exact across earlier member request List.mem_cons_self
  · exact across earlier member later (List.mem_cons_of_mem _ listed)

theorem Edit.settled (settled : Settled requests) (edit : Edit known requests later) : Settled later := by
  cases edit with
  | matched split =>
    rw [split] at settled
    exact settled_replace settled rfl rfl
  | tracked _ first =>
    apply settled_append settled
    intro earlier member same
    exact absurd same (lastRequest_eq_none first earlier member)
  | intended _ justified => exact settled_append settled (justified.confirmed settled)
  | answered split =>
    rw [split] at settled
    exact settled_replace settled rfl rfl

theorem Edit.ids (edit : Edit known requests later) : later.map (·.id) = requests.map (·.id) ∨
    ∃ id ∈ known.ids, later.map (·.id) = requests.map (·.id) ++ [id] := by
  cases edit with
  | matched split =>
    left
    rw [split, List.map_append, List.map_append]
    rfl
  | tracked fresh | intended fresh =>
    right
    exact ⟨_, fresh, List.map_append⟩
  | answered split =>
    left
    rw [split, List.map_append, List.map_append]
    rfl

theorem Edit.confirmed {log : Log} {invocation : InvocationId}
    (asked : ∀ exchange ∈ known.asked, (invocation, exchange) ∈ log)
    (unsent : ∀ request : Request, request.id ∈ known.ids → ¬ Sent log request.body)
    (confirmed : ∀ request ∈ requests, ∀ comment, request.comment = some comment → Confirmed log request comment)
    (edit : Edit known requests later) :
    ∀ request ∈ later, ∀ comment, request.comment = some comment → Confirmed log request comment := by
  intro request member comment found
  cases edit with
  | matched split unconfirmed seen unique =>
    rw [split] at confirmed
    rcases List.mem_append.mp member with early | member
    · exact confirmed request (List.mem_append_left _ early) comment found
    · rcases List.mem_cons.mp member with rfl | member
      · cases found
        exact .matched (asked _ seen) unique
      · exact confirmed request (List.mem_append_right _ (List.mem_cons_of_mem _ member)) comment found
  | tracked fresh first seen listed named owner marked line =>
    rcases List.mem_append.mp member with early | member
    · exact confirmed request early comment found
    · rw [List.mem_singleton.mp member] at found ⊢
      rw [named] at found
      cases found
      exact .tracked (asked _ seen) listed owner marked line (unsent _ fresh)
  | intended _ justified =>
    rcases List.mem_append.mp member with early | member
    · exact confirmed request early comment found
    · rw [List.mem_singleton.mp member, justified.1] at found
      cases found
  | answered split unconfirmed seen owner same =>
    rw [split] at confirmed
    rcases List.mem_append.mp member with early | member
    · exact confirmed request (List.mem_append_left _ early) comment found
    · rw [List.mem_singleton.mp member] at found ⊢
      cases found
      exact .answered (asked _ seen) owner same

theorem Edit.intended_of_newIntent {earlier : List Request} {request : Request} (edit : Edit known requests later)
    (intent : newIntent requests later = some (earlier, request)) :
    later = earlier ++ [request] ∧ requests = earlier ∧ request.id ∈ known.ids ∧
      Justified known.cli known.asked earlier request := by
  rcases newIntent_eq_some intent with ⟨rfl, rfl, unconfirmed⟩
  generalize whole : requests ++ [request] = later at edit
  cases edit with
  | matched split =>
    have lengths := congrArg List.length whole
    rw [split] at lengths
    simp at lengths
  | tracked _ _ _ _ named =>
    rcases List.append_inj whole rfl with ⟨_, same⟩
    cases same
    rw [named] at unconfirmed
    cases unconfirmed
  | intended fresh justified =>
    rcases List.append_inj whole rfl with ⟨_, same⟩
    cases same
    exact ⟨rfl, rfl, fresh, justified⟩
  | answered split =>
    have lengths := congrArg List.length whole
    rw [split] at lengths
    simp at lengths

end Edits

section Saving

variable {directory : Directory} {invocation : InvocationId} {known : Known} {state : State} {requests : List Request}

theorem Directory.Facts.version (facts : directory.Facts known) (read : known.requests = some requests) :
    (requests = [] ∧ directory.files.all = []) ∨
      ∃ newest, directory.files.visible = some newest ∧ newest ∈ directory.files.all ∧ newest.requests = requests := by
  have same := facts.requests requests read
  cases visible : directory.files.visible with
  | none =>
    rw [visible] at same
    exact .inl ⟨same, Versions.all_of_visible_eq_none visible⟩
  | some newest =>
    rw [visible] at same
    exact .inr ⟨newest, rfl, Versions.mem_of_visible visible, same.symm⟩

/-- A posted request is in the durable version, so its identifier was used. -/
theorem Directory.Facts.unsent (inv : directory.Inv) (facts : directory.Facts known) {request : Request}
    (fresh : request.id ∈ known.ids) : ¬ Sent directory.log request.body := by
  intro sent
  rcases inv.sent _ sent with ⟨durable, found, posted, listed, same⟩
  exact (facts.ids _ fresh).2 durable (Versions.mem_of_durable found) posted listed (Request.body_inj same).1

theorem Directory.Facts.grown (inv : directory.Inv) (facts : directory.Facts known) (read : known.requests = some requests)
    (edit : Edit known requests state.requests) : ∀ version ∈ directory.files.all, Grown version.requests state.requests := by
  intro version member
  rcases facts.version read with ⟨_, nothing⟩ | ⟨newest, visible, _, rfl⟩
  · rw [nothing] at member
    cases member
  · have before := Versions.le_visible (fun a => Grown.refl a.requests) inv.ordered visible version member
    exact before.trans edit.grown

theorem Directory.Inv.saved (inv : directory.Inv) (facts : directory.Facts known)
    (asked : ∀ exchange ∈ known.asked, (invocation, exchange) ∈ directory.log) (read : known.requests = some requests)
    (edit : Edit known requests state.requests) (outcome : SaveOutcome) :
    ({ directory with files := directory.files.after state outcome } : Directory).Inv := by
  have old : ∀ version ∈ (directory.files.after state outcome).all, version ∈ directory.files.all ∨ version = state := by
    intro version member
    rcases List.mem_append.mp ((Versions.sublist_after _ _ _).subset member) with member | member
    · exact .inl member
    · exact .inr (List.mem_singleton.mp member)
  have settled : Settled requests := by
    rcases facts.version read with ⟨rfl, _⟩ | ⟨newest, _, member, rfl⟩
    · exact .nil
    · exact inv.settled newest member
  have distinct : (requests.map (·.id)).Nodup := by
    rcases facts.version read with ⟨rfl, _⟩ | ⟨newest, _, member, rfl⟩
    · exact .nil
    · exact inv.distinct newest member
  have issued : ∀ request ∈ requests, request.id ∈ directory.issued := by
    rcases facts.version read with ⟨rfl, _⟩ | ⟨newest, _, member, rfl⟩
    · intro request listed
      cases listed
    · exact inv.issued newest member
  have confirmed : ∀ request ∈ requests, ∀ comment, request.comment = some comment →
      Confirmed directory.log request comment := by
    rcases facts.version read with ⟨rfl, _⟩ | ⟨newest, _, member, rfl⟩
    · intro request listed
      cases listed
    · exact inv.confirmed newest member
  have unused : ∀ id ∈ known.ids, id ∉ requests.map (·.id) := by
    intro id fresh listed
    rcases List.mem_map.mp listed with ⟨request, member, same⟩
    rcases facts.version read with ⟨rfl, _⟩ | ⟨newest, _, version, rfl⟩
    · cases member
    · exact (facts.ids id fresh).2 newest version request member same
  exact {
    ordered := Versions.pairwise_after (fun a => Grown.refl a.requests) (fun one two => one.trans two) inv.ordered
      (fun b visible => facts.grown inv read edit b (Versions.mem_of_visible visible)) outcome
    settled := by
      intro version member
      rcases old version member with member | rfl
      · exact inv.settled version member
      · exact edit.settled settled
    distinct := by
      intro version member
      rcases old version member with member | rfl
      · exact inv.distinct version member
      · rcases edit.ids with same | ⟨id, fresh, same⟩
        · rw [same]
          exact distinct
        · rw [same, List.nodup_append]
          refine ⟨distinct, List.pairwise_singleton _ _, ?_⟩
          intro earlier listed later last
          rw [List.mem_singleton.mp last]
          rintro rfl
          exact unused _ fresh listed
    issued := by
      intro version member request listed
      rcases old version member with member | rfl
      · exact inv.issued version member request listed
      · have id : request.id ∈ version.requests.map (·.id) := List.mem_map_of_mem listed
        rcases edit.ids with same | ⟨fresh, own, same⟩
        · rw [same] at id
          rcases List.mem_map.mp id with ⟨earlier, before, equal⟩
          rw [← equal]
          exact issued earlier before
        · rw [same] at id
          rcases List.mem_append.mp id with id | id
          · rcases List.mem_map.mp id with ⟨earlier, before, equal⟩
            rw [← equal]
            exact issued earlier before
          · rw [List.mem_singleton.mp id]
            exact (facts.ids fresh own).1
    confirmed := by
      intro version member
      rcases old version member with member | rfl
      · exact inv.confirmed version member
      · exact edit.confirmed asked (fun request fresh => facts.unsent inv fresh) confirmed
    sent := by
      intro body sent
      rcases inv.sent body sent with ⟨durable, found, request, listed, same⟩
      cases outcome with
      | refused => exact ⟨durable, found, request, listed, same⟩
      | unsynced => exact ⟨durable, found, request, listed, same⟩
      | saved =>
        rcases (facts.grown inv read edit durable (Versions.mem_of_durable found)).mem listed with ⟨later, member, becomes⟩
        refine ⟨state, ?_, later, member, becomes.body.trans same⟩
        show (directory.files.after state .saved).durable = some state
        rw [Versions.after_saved]
    once := inv.once }

theorem Directory.Facts.saved (inv : directory.Inv) (facts : directory.Facts known) (read : known.requests = some requests)
    (edit : Edit known requests state.requests) (outcome : SaveOutcome) :
    ({ directory with files := directory.files.after state outcome } : Directory).Facts (known.saved state outcome) := by
  cases outcome with
  | refused =>
    refine ⟨facts.requests, facts.ids, ?_⟩
    intro earlier request intended
    cases intended
  | unsynced =>
    refine ⟨?_, ?_, ?_⟩
    · intro current same
      cases same
      show state.requests = (directory.files.renamed state).visible.elim [] State.requests
      rw [Versions.visible_renamed]
      rfl
    · intro id none
      cases none
    · intro earlier request intended
      cases intended
  | saved =>
    have files := Versions.after_saved directory.files state
    refine ⟨?_, ?_, ?_⟩
    · intro current same
      cases same
      show state.requests = (directory.files.after state .saved).visible.elim [] State.requests
      rw [files]
      rfl
    · intro id none
      cases none
    · intro earlier request intended
      have intended : (known.requests.bind fun before => newIntent before state.requests) = some (earlier, request) :=
        intended
      rw [read, Option.bind_some] at intended
      rcases edit.intended_of_newIntent intended with ⟨whole, _, fresh, justified⟩
      refine ⟨?_, ⟨state, ?_, whole⟩, facts.unsent inv fresh, justified⟩
      · show (directory.files.after state .saved).pending = []
        rw [files]
      · show (directory.files.after state .saved).durable = some state
        rw [files]

end Saving

section Sending

variable {directory : Directory} {invocation : InvocationId} {known : Known} {earlier : List Request} {request : Request}

theorem Directory.Inv.sends (inv : directory.Inv) (facts : directory.Facts known)
    (intent : known.intent = some (earlier, request)) (answer : Except String Comment) :
    (directory.noted invocation ⟨.send request.body, answer⟩).Inv := by
  rcases facts.intent earlier request intent with ⟨pending, ⟨durable, found, whole⟩, unsent, unconfirmed, _⟩
  have only : ∀ version ∈ directory.files.all, version = durable := by
    intro version member
    unfold Versions.all at member
    rw [pending, found, List.append_nil] at member
    exact List.mem_singleton.mp member
  exact {
    ordered := inv.ordered
    settled := inv.settled
    distinct := inv.distinct
    issued := inv.issued
    confirmed := by
      intro version member other listed comment confirmed
      apply (inv.confirmed version member other listed comment confirmed).grow
      intro sent
      unfold Sent at sent
      rw [sentBodies_snoc_send] at sent
      rcases List.mem_append.mp sent with sent | sent
      · exact sent
      · -- the intent itself is not confirmed yet
        have equal := only version member
        subst equal
        have body := List.mem_singleton.mp sent
        have own : request ∈ version.requests := by
          rw [whole]
          exact List.mem_append_right _ (List.mem_singleton_self _)
        have same : other = request :=
          List.inj_on_of_nodup_map (inv.distinct version member) listed own (Request.body_inj body).1
        rw [same, unconfirmed] at confirmed
        cases confirmed
    sent := by
      intro body sent
      unfold Sent Directory.noted at sent
      rw [sentBodies_snoc_send] at sent
      rcases List.mem_append.mp sent with sent | sent
      · exact inv.sent body sent
      · refine ⟨durable, found, request, ?_, (List.mem_singleton.mp sent).symm⟩
        rw [whole]
        exact List.mem_append_right _ (List.mem_singleton_self _)
    once := by
      unfold Directory.noted
      rw [sentBodies_snoc_send, List.nodup_append]
      refine ⟨inv.once, List.pairwise_singleton _ _, ?_⟩
      intro body sent other same
      rw [List.mem_singleton.mp same]
      rintro rfl
      exact unsent sent }

end Sending

end HostedReview

import BazelRepo.HostedReview.Steps

namespace HostedReview

open Library Library.Stateful

variable [Formats] {cli : Cli} {head : Commit} {comments : List Comment} {actor : Nat}

section Rules

variable {α : Type} {pre : Known → State → Prop} {post : Known → State → α → Prop}

theorem keeps_asking {call : Call} {read : call.Answer → Except String α}
    (allowed : ∀ known state, pre known state → reviewing.allowed known call)
    (holds : ∀ known state answer a, pre known state → read answer = .ok a →
      post (reviewing.after known call answer) state a) : Keeps reviewing pre (asking call read) post := by
  intro known state before
  refine ⟨allowed known state before, ?_⟩
  intro answer a same
  exact holds known state answer a before same

theorem keeps_check {x : Except String α} (holds : ∀ known state a, x = .ok a → pre known state → post known state a) :
    Keeps reviewing pre (liftM x : Reviewing α) post := keeps_except holds

theorem keeps_reading :
    Keeps reviewing pre (get : Reviewing State) fun known state saved => pre known state ∧ state = saved :=
  keeps_get fun _ _ holds => ⟨holds, rfl⟩

theorem keeps_save {facts : Known → State → Prop}
    (edits : ∀ known state, facts known state →
      ∃ requests, known.requests = some requests ∧ Edit known requests state.requests) :
    Keeps reviewing facts save fun later state _ => ∃ known, facts known state ∧
      later = (known.note ⟨.save state, .saved⟩).saved state .saved := by
  apply keeps_reading.bind
  intro current
  apply keeps_asking
  · rintro known state ⟨holds, rfl⟩
    exact edits known state holds
  · rintro known state outcome _ ⟨holds, rfl⟩ ok
    cases outcome with
    | refused | unsynced => cases ok
    | saved => exact ⟨known, holds, rfl⟩

omit [Formats] in
theorem ensure_eq_ok {condition : Bool} {message : String} {u : Unit} (ok : ensure condition message = .ok u) :
    condition = true := by
  unfold ensure at ok
  split at ok
  · assumption
  · cases ok

end Rules

section Reads

def Current (cli : Cli) (known : Known) (saved : State) : Prop :=
  known.cli = cli ∧ known.requests = some saved.requests

def Observed (comments : List Comment) (known : Known) : Prop :=
  (⟨.comments, .ok comments⟩ : Exchange Call Call.Answer) ∈ known.asked

omit [Formats] in
theorem Observed.note {known : Known} (observed : Observed comments known) (exchange : Exchange Call Call.Answer) :
    Observed comments (known.note exchange) := List.mem_append_left _ observed

theorem checkComments_eq {checked : List Comment} (ok : checkComments comments = .ok checked) : checked = comments := by
  rcases bind_eq_ok.mp ok with ⟨_, _, same⟩
  cases same
  rfl

variable {pre : Known → State → Prop}

def Lasting (facts : Known → State → Prop) : Prop :=
  ∀ known state exchange, facts known state → facts (known.note exchange) state

theorem keeps_readPull (lasting : Lasting pre) : Keeps reviewing pre readPull fun known state _ => pre known state := by
  apply keeps_asking
  · exact fun _ _ _ => trivial
  · intro known state answer _ holds _
    exact lasting known state ⟨.pull, answer⟩ holds

theorem keeps_readComments (lasting : Lasting pre) :
    Keeps reviewing pre readComments fun known state comments => pre known state ∧ Observed comments known := by
  apply keeps_asking
  · exact fun _ _ _ => trivial
  · intro known state answer read holds ok
    refine ⟨lasting known state ⟨.comments, answer⟩ holds, ?_⟩
    rcases bind_eq_ok.mp ok with ⟨listed, rfl, checked⟩
    rw [checkComments_eq checked]
    exact List.mem_append_right _ (List.mem_singleton_self _)

theorem keeps_actor (lasting : Lasting pre) :
    Keeps reviewing pre (asking .actor id : Reviewing User) fun known state _ => pre known state := by
  apply keeps_asking
  · exact fun _ _ _ => trivial
  · intro known state answer _ holds _
    exact lasting known state ⟨.actor, answer⟩ holds

theorem keeps_evidence (lasting : Lasting pre) (kind : EvidenceKind) :
    Keeps reviewing pre (asking (.evidence kind) id : Reviewing (List Page)) fun known state _ => pre known state := by
  apply keeps_asking
  · exact fun _ _ _ => trivial
  · intro known state answer _ holds _
    exact lasting known state ⟨.evidence kind, answer⟩ holds

theorem keeps_freshId : Keeps reviewing pre (asking .freshId fun fresh => .ok fresh : Reviewing Uuid)
    fun later state id => ∃ known, pre known state ∧
      later = { known.note ⟨.freshId, id⟩ with ids := known.ids ++ [id] } := by
  apply keeps_asking
  · exact fun _ _ _ => trivial
  · rintro known state answer _ holds ⟨⟩
    exact ⟨known, holds, rfl⟩

omit [Formats] in
theorem lasting_current : Lasting (Current cli) := fun _ _ _ current => current

end Reads

section Sending

variable {earlier : List Request} {request : Request}

def Intending (earlier : List Request) (request : Request) (known : Known) (_ : State) : Prop :=
  known.intent = some (earlier, request) ∧ known.requests = some (earlier ++ [request])

omit [Formats] in
theorem lasting_intending : Lasting (Intending earlier request) := fun _ _ _ intending => intending

theorem keeps_beforeSend (initial : Bool) :
    Keeps reviewing (Intending earlier request) (beforeSend head initial comments)
      fun known state _ => Intending earlier request known state := by
  apply Keeps.bind (keeps_readPull lasting_intending)
  intro current
  apply Keeps.ite
  · exact fun _ => keeps_pure fun _ _ holds => holds
  · intro _
    apply Keeps.bind (keeps_readComments lasting_intending)
    intro freshComments
    apply Keeps.bind (keeps_check fun _ _ _ _ holds => holds.1)
    intro freshReview
    apply Keeps.ite
    · exact fun _ => keeps_pure fun _ _ holds => holds
    · intro _
      apply Keeps.ite
      · exact fun _ => keeps_pure fun _ _ holds => holds
      · intro _
        apply Keeps.ite
        · exact fun _ => keeps_pure fun _ _ holds => holds
        · exact fun _ => keeps_pure fun _ _ holds => holds

theorem keeps_confirmSent (unconfirmed : request.comment = none) (comment : Comment) :
    Keeps reviewing (fun known _ => known.requests = some (earlier ++ [request]) ∧
        (⟨.send request.body, .ok comment⟩ : Exchange Call Call.Answer) ∈ known.asked)
      (confirmSent earlier request comment) fun _ _ _ => True := by
  apply Keeps.bind (keeps_check fun known state _ ok holds => And.intro (ensure_eq_ok ok) holds)
  intro _
  apply Keeps.bind (keeps_check fun _ _ _ _ holds => holds)
  intro created
  let confirmed : Request := { request with comment := some comment.id, at' := max request.at' created }
  apply @Keeps.bind _ _ _ _ _ _ _ _ _ _ _ (fun known state _ => state.requests = earlier ++ [confirmed] ∧
    known.requests = some (earlier ++ [request]) ∧ Edit known (earlier ++ [request]) (earlier ++ [confirmed]))
  · apply keeps_modify
    rintro known state ⟨valid, read, seen⟩
    simp only [Bool.and_eq_true, beq_iff_eq] at valid
    exact ⟨rfl, read, .answered rfl unconfirmed seen valid.1.2 valid.2⟩
  · intro _
    apply Keeps.bind (keeps_save _)
    · intro _
      exact keeps_pure fun _ _ _ => trivial
    · rintro known state ⟨same, read, edit⟩
      exact ⟨_, read, same ▸ edit⟩

omit [Formats] in
theorem newIntent_append (unconfirmed : request.comment = none) :
    newIntent earlier (earlier ++ [request]) = some (earlier, request) := by
  unfold newIntent
  rw [List.getLast?_concat]
  dsimp only
  rw [List.dropLast_concat, if_pos ⟨rfl, unconfirmed⟩]

theorem keeps_intend (unconfirmed : request.comment = none) :
    Keeps reviewing (fun known state => state.requests = earlier ++ [request] ∧
        known.requests = some earlier ∧ Edit known earlier (earlier ++ [request]))
      save fun known state _ => Intending earlier request known state := by
  apply (keeps_save _).mono (fun _ _ holds => holds)
  · rintro later state _ ⟨known, ⟨same, read, _⟩, rfl⟩
    refine ⟨?_, ?_⟩
    · show (known.requests.bind fun before => newIntent before state.requests) = _
      rw [read, same]
      exact newIntent_append unconfirmed
    · show some state.requests = _
      rw [same]
  · rintro known state ⟨same, read, edit⟩
    exact ⟨earlier, read, same ▸ edit⟩

theorem keeps_post :
    Keeps reviewing (Intending earlier request) (asking (.send request.body) id : Reviewing Comment)
      fun known _ comment => known.requests = some (earlier ++ [request]) ∧
        (⟨.send request.body, .ok comment⟩ : Exchange Call Call.Answer) ∈ known.asked := by
  apply keeps_asking
  · rintro known state ⟨intent, _⟩
    exact ⟨earlier, request, intent, rfl⟩
  · rintro known state answer comment ⟨_, read⟩ ok
    have same : answer = .ok comment := ok
    subst same
    exact ⟨read, List.mem_append_right _ (List.mem_singleton_self _)⟩

theorem keeps_sendRequest (unconfirmed : request.comment = none) (initial : Bool) :
    Keeps reviewing (fun known state => known.requests = some earlier ∧ state.requests = earlier ∧
        request.id ∈ known.ids ∧ Justified known.cli known.asked earlier request)
      (sendRequest earlier request initial comments) fun _ _ _ => True := by
  have noted : Keeps reviewing (fun known state => known.requests = some earlier ∧ state.requests = earlier ∧
        request.id ∈ known.ids ∧ Justified known.cli known.asked earlier request)
      (modify fun saved => { saved with requests := earlier ++ [request] } : Reviewing Unit)
      fun known state _ => state.requests = earlier ++ [request] ∧ known.requests = some earlier ∧
        Edit known earlier (earlier ++ [request]) := by
    apply keeps_modify
    rintro known state ⟨read, _, fresh, justified⟩
    exact ⟨rfl, read, .intended fresh justified⟩
  apply noted.bind
  intro _
  apply (keeps_intend unconfirmed).bind
  intro _
  apply (keeps_beforeSend initial).bind
  intro stopped
  cases stopped with
  | some report => exact keeps_pure fun _ _ _ => trivial
  | none =>
    apply keeps_post.bind
    intro comment
    exact keeps_confirmSent unconfirmed comment

end Sending

section Following

variable {status : Review} {last : Option Request}

structure Ready (cli : Cli) (head : Commit) (comments : List Comment) (last : Option Request) (known : Known)
    (saved : State) : Prop where
  current : Current cli known saved
  observed : Observed comments known
  last : (lastRequest head saved.requests).map (·.2.1) = last

omit [Formats] in
theorem head?_matching {request : Request} {comment : Comment}
    (single : (if request.comment.isNone then requestComments request.actor request.body comments else []).length ≤ 1)
    (found : (if request.comment.isNone then requestComments request.actor request.body comments else []).head? =
      some comment) :
    request.comment = none ∧ requestComments request.actor request.body comments = [comment] := by
  split at found
  · rename_i unconfirmed
    rw [if_pos unconfirmed] at single
    rcases List.head?_eq_some_iff.mp found with ⟨rest, split⟩
    rw [split] at single
    have alone : rest = [] := List.eq_nil_of_length_eq_zero (by simpa using single)
    rw [alone] at split
    exact ⟨Option.isNone_iff_eq_none.mp unconfirmed, split⟩
  · cases found

theorem keeps_inspectSavedRequest {before after : List Request} {request : Request} (knownComments : List Nat) :
    Keeps reviewing (fun known saved => Ready cli head comments last known saved ∧
        saved.requests = before ++ request :: after)
      (inspectSavedRequest before request after actor comments knownComments)
      fun known saved inspected => inspected = none → Ready cli head comments last known saved := by
  apply Keeps.bind (keeps_check fun _ _ _ _ holds => holds)
  intro _
  apply Keeps.bind (keeps_check fun _ _ _ ok holds => And.intro (of_decide_eq_true (ensure_eq_ok ok)) holds)
  intro _
  cases found : (if request.comment.isNone then requestComments request.actor request.body comments else []).head? with
  | some comment =>
    apply Keeps.bind (keeps_check fun _ _ _ _ holds => holds)
    intro created
    let confirmed : Request := { request with comment := some comment.id, at' := max request.at' created }
    apply @Keeps.bind _ _ _ _ _ _ _ _ _ _ _ fun known state _ => state.requests = before ++ confirmed :: after ∧
      known.requests = some (before ++ request :: after) ∧
      Edit known (before ++ request :: after) (before ++ confirmed :: after)
    · apply keeps_modify
      rintro known state ⟨single, ready, split⟩
      rcases head?_matching single found with ⟨unconfirmed, unique⟩
      refine ⟨rfl, split ▸ ready.current.2, .matched rfl unconfirmed ready.observed unique⟩
    · intro _
      apply Keeps.bind (keeps_save _)
      · intro _
        exact keeps_pure fun _ _ _ none => nomatch none
      · rintro known state ⟨same, read, edit⟩
        exact ⟨_, read, same ▸ edit⟩
  | none =>
    apply Keeps.ite
    · exact fun _ => keeps_pure fun _ _ _ none => nomatch none
    · exact fun _ => keeps_pure fun _ _ holds _ => holds.2.1

theorem keeps_requestReview (knownComments : List Nat) (read : review comments head.val = .ok status) :
    Keeps reviewing (Ready cli head comments last)
      (requestReview cli head comments status actor knownComments last) fun _ _ _ => True := by
  apply Keeps.ite
  · exact fun _ => keeps_pure fun _ _ _ => trivial
  · intro _
    apply Keeps.ite
    · exact fun _ => keeps_pure fun _ _ _ => trivial
    · intro _
      apply Keeps.ite
      · exact fun _ => keeps_pure fun _ _ _ => trivial
      · intro sent
        apply keeps_freshId.bind
        intro fresh
        apply keeps_reading.bind
        intro saved
        apply (keeps_sendRequest rfl _).mono _ fun _ _ _ _ => trivial
        rintro later state ⟨⟨known, ready, rfl⟩, rfl⟩
        refine ⟨ready.current.2, rfl, List.mem_append_right _ (List.mem_singleton_self _), rfl, ?_⟩
        have same := ready.last
        cases found : lastRequest head state.requests with
        | none =>
          rw [found] at same
          subst same
          by_contra other
          refine sent ⟨fun initial => other (ready.current.1 ▸ initial.1), ?_⟩
          intro requested
          rcases decide_eq_request.mp requested with ⟨_, none, _⟩
          cases none
        | some parts =>
          rcases parts with ⟨before, request, after⟩
          rw [found] at same
          subst same
          by_cases requested : decide true status (some (request.at', request.comment.isSome)) cli.now = .request
          · rcases decide_eq_request.mp requested with ⟨at', same, incomplete, late⟩
            simp only [Option.some.injEq, Prod.mk.injEq] at same
            refine ⟨same.2, ?_, comments, List.mem_append_left _ ready.observed, incomplete ▸ read⟩
            show request.at' + 3600 < known.cli.now
            rw [same.1, ready.current.1]
            exact late
          · refine absurd ⟨?_, requested⟩ sent
            rintro ⟨_, none⟩
            cases none

theorem keeps_followUp (read : review comments head.val = .ok status) :
    Keeps reviewing (fun known saved => Current cli known saved ∧ Observed comments known)
      (followUp cli head comments status actor) fun _ _ _ => True := by
  apply Keeps.bind (keeps_check fun _ _ _ _ holds => holds)
  intro _
  apply keeps_reading.bind
  intro saved
  dsimp only
  split
  · rename_i nothing
    apply (keeps_requestReview _ read).mono _ fun _ _ _ holds => holds
    rintro known state ⟨⟨current, observed⟩, rfl⟩
    refine ⟨current, observed, ?_⟩
    rw [nothing]
    rfl
  · rename_i before request after found
    apply Keeps.bind ((keeps_inspectSavedRequest _).mono _ fun _ _ _ holds => holds)
    · intro inspected
      cases inspected with
      | some report => exact keeps_pure fun _ _ _ => trivial
      | none => exact (keeps_requestReview _ read).mono (fun _ _ holds => holds rfl) fun _ _ _ holds => holds
    · rintro known state ⟨⟨current, observed⟩, rfl⟩
      refine ⟨⟨current, observed, ?_⟩, (lastRequest_eq_some found).1⟩
      rw [found]
      rfl

theorem keeps_trackExisting {id now : Nat} :
    Keeps reviewing (Ready cli head comments none) (trackExisting id now head comments actor) fun _ _ _ => True := by
  unfold trackExisting
  cases found : comments.find? (·.id == id) with
  | none => exact keeps_throw _
  | some comment =>
    have matching := List.find?_some found
    have named : comment.id = id := beq_iff_eq.mp matching
    apply Keeps.bind (keeps_check fun _ _ _ ok holds => And.intro (ensure_eq_ok ok) holds)
    intro _
    apply Keeps.bind (keeps_check fun _ _ _ _ holds => holds)
    intro at'
    apply Keeps.bind (keeps_check fun _ _ _ _ holds => holds)
    intro _
    apply keeps_freshId.bind
    intro fresh
    let tracked : Request := ⟨fresh, head, at', actor, some id⟩
    apply @Keeps.bind _ _ _ _ _ _ _ _ _ _ _ fun known state _ => ∃ requests, state.requests = requests ++ [tracked] ∧
      known.requests = some requests ∧ Edit known requests (requests ++ [tracked])
    · apply keeps_modify
      rintro later state ⟨known, ⟨valid, ready⟩, rfl⟩
      simp only [Bool.and_eq_true, beq_iff_eq] at valid
      have listed : tracked.id ∈ known.ids ++ [fresh] := List.mem_append_right _ (List.mem_singleton_self _)
      have first : lastRequest tracked.head state.requests = none := Option.map_eq_none_iff.mp ready.last
      have confirmed : tracked.comment = some comment.id := congrArg some named.symm
      have owner : comment.user.id = tracked.actor := valid.1.1
      exact ⟨state.requests, rfl, ready.current.2, .tracked listed first (List.mem_append_left _ ready.observed)
        (List.mem_of_find?_eq_some found) confirmed owner valid.1.2 valid.2⟩
    · intro _
      apply Keeps.bind (keeps_save _)
      · intro _
        exact keeps_pure fun _ _ _ => trivial
      · rintro known state ⟨requests, same, read, edit⟩
        exact ⟨requests, read, same ▸ edit⟩

theorem keeps_trackAction :
    Keeps reviewing (fun known saved => Current cli known saved ∧ Observed comments known)
      (trackAction cli head comments status actor) fun _ _ _ => True := by
  apply keeps_reading.bind
  intro saved
  split
  · exact keeps_pure fun _ _ _ => trivial
  · rename_i nothing
    apply Keeps.bind (keeps_check fun _ _ _ _ holds => holds)
    intro _
    split
    · exact keeps_throw _
    · have tracks (id : Nat) := @keeps_trackExisting _ cli head comments actor id cli.now
      apply (tracks _).mono _ fun _ _ _ holds => holds
      rintro known state ⟨⟨current, observed⟩, rfl⟩
      refine ⟨current, observed, ?_⟩
      rw [nothing]
      rfl

theorem keeps_reviewAction (pull : Pull) :
    Keeps reviewing (fun known saved => Current cli known saved ∧
        (pull.state = "open" ∧ pull.headSha = head.val → Observed comments known))
      (reviewAction cli head pull comments) fun _ _ _ => True := by
  apply Keeps.ite
  · exact fun _ => keeps_pure fun _ _ _ => trivial
  · intro isOpen
    apply Keeps.ite
    · exact fun _ => keeps_pure fun _ _ _ => trivial
    · intro same
      apply Keeps.bind (keeps_check fun _ _ _ ok holds => And.intro ok
        (And.intro holds.1 (holds.2 ⟨not_not.mp isOpen, not_not.mp same⟩)))
      intro status
      apply Keeps.ite
      · exact fun _ => keeps_pure fun _ _ _ => trivial
      · intro _
        apply Keeps.bind (keeps_actor fun _ _ exchange holds => ⟨holds.1, holds.2.1, holds.2.2.note exchange⟩)
        intro actor
        apply Keeps.bind (keeps_check fun _ _ _ _ holds => holds)
        intro _
        apply Keeps.ite
        · exact fun _ => keeps_trackAction.mono (fun _ _ holds => holds.2) fun _ _ _ holds => holds
        · intro _ known state holds
          exact keeps_followUp holds.1 known state holds.2

theorem keeps_reviewOnce :
    Keeps reviewing (Current cli) (reviewOnce cli head) fun _ _ _ => True := by
  apply Keeps.bind (keeps_readPull lasting_current)
  intro pull
  apply Keeps.ite
  · intro _
    apply Keeps.bind (keeps_readComments lasting_current)
    intro comments
    exact (keeps_reviewAction pull).mono (fun _ _ holds => ⟨holds.1, fun _ => holds.2⟩) fun _ _ _ holds => holds
  · intro other
    exact (keeps_reviewAction pull).mono (fun _ _ holds => ⟨holds, fun same => absurd same other⟩) fun _ _ _ holds => holds

theorem keeps_observe : Keeps reviewing (Current cli) (observe cli head) fun _ _ _ => True := by
  apply Keeps.bind (keeps_readPull lasting_current)
  intro pull
  apply Keeps.bind (keeps_check fun _ _ _ _ holds => holds)
  intro _
  apply Keeps.ite
  · exact fun _ => keeps_pure fun _ _ _ => trivial
  · intro _
    apply Keeps.ite
    · exact fun _ => keeps_pure fun _ _ _ => trivial
    · intro _
      apply Keeps.bind (keeps_readComments lasting_current)
      intro comments
      have lasting : Lasting fun known saved => Current cli known saved ∧ Observed comments known :=
        fun _ _ exchange holds => ⟨holds.1, holds.2.note exchange⟩
      apply Keeps.bind (keeps_check fun _ _ _ _ holds => holds)
      intro _
      apply Keeps.bind (keeps_evidence lasting .checks)
      intro checks
      apply Keeps.bind (keeps_evidence lasting .statuses)
      intro statuses
      apply Keeps.bind (keeps_evidence lasting .workflows)
      intro workflows
      apply Keeps.bind (keeps_check fun _ _ _ _ holds => holds)
      intro _
      exact (keeps_reviewAction pull).mono (fun _ _ holds => ⟨holds.1, fun _ => holds.2⟩) fun _ _ _ holds => holds

theorem keeps_wake : Keeps reviewing (Current cli) (wake cli head) fun _ _ _ => True := by
  have read : Keeps reviewing (Current cli) (asking .readWake id : Reviewing Unit) fun known saved _ => Current cli known saved := by
    apply keeps_asking
    · exact fun _ _ _ => trivial
    · exact fun _ _ _ _ current _ => current
  apply read.bind
  intro _
  apply @Keeps.bind _ _ _ _ _ _ _ _ _ _ _ fun _ _ _ => True
  · intro known saved current
    apply Library.Program.Follows.bind _ (keeps_observe known saved current)
    exact fun _ _ _ _ _ => trivial
  · intro observed
    apply @Keeps.bind _ _ _ _ _ _ _ _ _ _ _ fun _ _ _ => True
    · apply keeps_asking
      · exact fun _ _ _ => trivial
      · exact fun _ _ _ _ _ _ => trivial
    · intro _
      exact keeps_pure fun _ _ _ => trivial

end Following

end HostedReview

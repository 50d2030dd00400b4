import BazelRepo.HostedReview.Command

namespace HostedReview

open Library (Exchange Formats Program Protocol SaveOutcome Stateful Uuid Versions)

abbrev Asked := List (Exchange Call Call.Answer)

section Requests

/-- A saved request keeps what it is, and a confirmed one changes no more. -/
structure Request.Becomes (before after : Request) : Prop where
  id : after.id = before.id
  head : after.head = before.head
  actor : after.actor = before.actor
  confirmed : before.comment.isSome = true → after = before

theorem Request.Becomes.refl (request : Request) : request.Becomes request := ⟨rfl, rfl, rfl, fun _ => rfl⟩

theorem Request.Becomes.trans {first second third : Request} (one : first.Becomes second) (two : second.Becomes third) :
    first.Becomes third where
  id := two.id.trans one.id
  head := two.head.trans one.head
  actor := two.actor.trans one.actor
  confirmed := by
    intro confirmed
    have same := one.confirmed confirmed
    subst same
    exact two.confirmed confirmed

theorem Request.Becomes.body {before after : Request} (becomes : before.Becomes after) : after.body = before.body := by
  unfold Request.body
  rw [becomes.id, becomes.head]

inductive Grown : List Request → List Request → Prop where
  | more (added : List Request) : Grown [] added
  | kept {request later : Request} {before after : List Request} (becomes : request.Becomes later)
    (rest : Grown before after) : Grown (request :: before) (later :: after)

theorem Grown.refl (requests : List Request) : Grown requests requests := by
  induction requests with
  | nil => exact .more []
  | cons request rest ih => exact .kept (.refl request) ih

theorem Grown.trans {first second third : List Request} (one : Grown first second) (two : Grown second third) :
    Grown first third := by
  induction one generalizing third with
  | more => exact .more third
  | kept becomes _ ih =>
    cases two with
    | kept later rest => exact .kept (becomes.trans later) (ih rest)

theorem Grown.mem {before after : List Request} (grown : Grown before after) {request : Request}
    (member : request ∈ before) : ∃ later ∈ after, request.Becomes later := by
  induction grown with
  | more => cases member
  | kept becomes _ ih =>
    rcases List.mem_cons.mp member with rfl | member
    · exact ⟨_, List.mem_cons_self, becomes⟩
    · rcases ih member with ⟨later, listed, step⟩
      exact ⟨later, List.mem_cons_of_mem _ listed, step⟩

theorem grown_append (requests added : List Request) : Grown requests (requests ++ added) := by
  induction requests with
  | nil => exact .more added
  | cons request rest ih => exact .kept (.refl request) ih

theorem grown_replace {request later : Request} (becomes : request.Becomes later) (before after : List Request) :
    Grown (before ++ request :: after) (before ++ later :: after) := by
  induction before with
  | nil => exact .kept becomes (.refl after)
  | cons first rest ih => exact .kept (.refl first) ih

def Settled (requests : List Request) : Prop :=
  requests.Pairwise fun earlier later => earlier.head = later.head → earlier.comment.isSome = true

theorem lastRequest_eq_none {head : Commit} {requests : List Request} (nothing : lastRequest head requests = none) :
    ∀ request ∈ requests, request.head ≠ head := by
  induction requests with
  | nil =>
    intro request member
    cases member
  | cons first rest ih =>
    unfold lastRequest at nothing
    split at nothing
    · cases nothing
    · rename_i absent
      split at nothing
      · cases nothing
      · rename_i differs
        intro request member
        rcases List.mem_cons.mp member with rfl | member
        · exact differs
        · exact ih absent request member

theorem lastRequest_eq_some {head : Commit} {requests before after : List Request} {found : Request}
    (last : lastRequest head requests = some (before, found, after)) :
    requests = before ++ found :: after ∧ found.head = head ∧ ∀ request ∈ after, request.head ≠ head := by
  induction requests generalizing before with
  | nil => cases last
  | cons first rest ih =>
    unfold lastRequest at last
    split at last
    · rename_i earlier found' after' later
      cases last
      rcases ih later with ⟨split, named, rest⟩
      exact ⟨congrArg (first :: ·) split, named, rest⟩
    · rename_i absent
      split at last
      · rename_i named
        cases last
        exact ⟨rfl, named, lastRequest_eq_none absent⟩
      · cases last

end Requests

section Bodies

theorem Commit.length_val (head : Commit) : head.val.toList.length = 40 := by
  have valid := head.valid
  simp only [isCommit, Bool.and_eq_true, beq_iff_eq] at valid
  exact valid.1

theorem Commit.val_inj {a b : Commit} (same : a.val.toList = b.val.toList) : a = b := by
  rcases a with ⟨a, _⟩
  rcases b with ⟨b, _⟩
  cases String.toList_inj.mp same
  rfl

theorem length_toString_uuid (id : Uuid) : (toString id).toList.length = 36 :=
  (congrArg List.length (String.toList_ofList)).trans
    (Library.length_hyphenate (Library.length_fixedDigits 16 32 _))

theorem Request.toList_body (request : Request) : request.body.toList =
    "@codex review\n\nReview commit `".toList ++ (request.head.val.toList ++
      ("`.\n\n<!-- hosted-review-request:v1 ".toList ++ ((toString request.id).toList ++
        (" ".toList ++ request.head.val.toList ++ " -->".toList)))) := by
  unfold Request.body
  simp only [String.toList_append, List.append_assoc]
  rfl

theorem Request.body_inj {a b : Request} (same : a.body = b.body) : a.id = b.id ∧ a.head = b.head := by
  have lists := congrArg String.toList same
  rw [a.toList_body, b.toList_body] at lists
  have rest := List.append_cancel_left lists
  rcases List.append_inj rest (a.head.length_val.trans b.head.length_val.symm) with ⟨heads, rest⟩
  have ids := List.append_cancel_left rest
  rcases List.append_inj ids ((length_toString_uuid a.id).trans (length_toString_uuid b.id).symm) with ⟨ids, _⟩
  exact ⟨Uuid.toString_inj (String.toList_inj.mp ids), Commit.val_inj heads⟩

end Bodies

abbrev InvocationId := Nat

abbrev Log := List (InvocationId × Exchange Call Call.Answer)

/-- The state directory of a pull request, and everything that was asked so far. -/
structure Directory where
  files : Versions State := {}
  holder : Option InvocationId := none
  issued : List Uuid := []
  log : Log := []

namespace Directory

def noted (directory : Directory) (invocation : InvocationId) (exchange : Exchange Call Call.Answer) : Directory :=
  { directory with log := directory.log ++ [(invocation, exchange)] }

/-- Only the holder of the lock goes on; identifiers are unique, and whatever the remote answers is possible. -/
def Possible (directory : Directory) (invocation : InvocationId) : (call : Call) → call.Answer → Prop
  | .openStore, .ok _ => directory.holder = none
  | .openStore, .error _ => True
  | .readState, .ok found => directory.holder = some invocation ∧ found = directory.files.visible
  | .freshId, id => directory.holder = some invocation ∧ id ∉ directory.issued
  | .readState, .error _ | .readWake, _ | .saveWake, _ | .save _, _ | .pull, _ | .comments, _ | .actor, _
  | .evidence _, _ | .send _, _ => directory.holder = some invocation

instance (directory : Directory) (invocation : InvocationId) :
    (call : Call) → (answer : call.Answer) → Decidable (directory.Possible invocation call answer)
  | .openStore, .ok _ => inferInstanceAs (Decidable (_ = _))
  | .openStore, .error _ => inferInstanceAs (Decidable True)
  | .readState, .ok _ => inferInstanceAs (Decidable (_ ∧ _))
  | .freshId, _ => inferInstanceAs (Decidable (_ ∧ _))
  | .readState, .error _ | .readWake, _ | .saveWake, _ | .save _, _ | .pull, _ | .comments, _ | .actor, _
  | .evidence _, _ | .send _, _ => inferInstanceAs (Decidable (_ = _))

def answered (directory : Directory) (invocation : InvocationId) (call : Call) (answer : call.Answer) : Directory :=
  match call, answer with
  | .openStore, .ok u => { directory.noted invocation ⟨.openStore, .ok u⟩ with holder := some invocation }
  | .save state, outcome =>
    { directory.noted invocation ⟨.save state, outcome⟩ with files := directory.files.after state outcome }
  | .freshId, id => { directory.noted invocation ⟨.freshId, id⟩ with issued := directory.issued ++ [id] }
  | .openStore, .error failure => directory.noted invocation ⟨.openStore, .error failure⟩
  | .readState, answer => directory.noted invocation ⟨.readState, answer⟩
  | .readWake, answer => directory.noted invocation ⟨.readWake, answer⟩
  | .saveWake, answer => directory.noted invocation ⟨.saveWake, answer⟩
  | .pull, answer => directory.noted invocation ⟨.pull, answer⟩
  | .comments, answer => directory.noted invocation ⟨.comments, answer⟩
  | .actor, answer => directory.noted invocation ⟨.actor, answer⟩
  | .evidence kind, answer => directory.noted invocation ⟨.evidence kind, answer⟩
  | .send body, answer => directory.noted invocation ⟨.send body, answer⟩

end Directory

inductive Runs (directory : Directory) (invocation : InvocationId) : (call : Call) → call.Answer → Directory → Prop where
  | run {call : Call} {answer : call.Answer} (possible : directory.Possible invocation call answer) :
    Runs directory invocation call answer (directory.answered invocation call answer)

/-- An invocation ends or crashes, a renamed file becomes durable, or the power fails. -/
inductive Moves (directory : Directory) : Directory → Prop where
  | release : Moves directory { directory with holder := none }
  | writeback {files : Versions State} (written : directory.files.Writeback files) :
    Moves directory { directory with files := files }
  | powerLoss : Moves directory { directory with files := directory.files.powerLoss, holder := none }

def sentBodies (log : Log) : List String :=
  log.filterMap fun entry => match entry.2.1 with
    | .send body => some body
    | _ => none

def Sent (log : Log) (body : String) : Prop := body ∈ sentBodies log

section Knowledge

variable [Formats]

/-- What makes a request confirmed: the unique comment of its owner with its body, the response to its post, or, for
one that was never posted, the comment that a caller tracked. -/
inductive Confirmed (log : Log) (request : Request) : Nat → Prop where
  | matched {invocation : InvocationId} {comments : List Comment} {comment : Comment}
    (seen : (invocation, ⟨.comments, .ok comments⟩) ∈ log)
    (unique : requestComments request.actor request.body comments = [comment]) : Confirmed log request comment.id
  | answered {invocation : InvocationId} {comment : Comment}
    (seen : (invocation, ⟨.send request.body, .ok comment⟩) ∈ log) (owner : comment.user.id = request.actor)
    (same : comment.body = request.body) : Confirmed log request comment.id
  | tracked {invocation : InvocationId} {comments : List Comment} {comment : Comment}
    (seen : (invocation, ⟨.comments, .ok comments⟩) ∈ log) (member : comment ∈ comments)
    (owner : comment.user.id = request.actor) (marked : contains comment.body "@codex review" = true)
    (named : contains comment.body (commitLine request.head) = true) (unsent : ¬ Sent log request.body) :
    Confirmed log request comment.id

def Justified (cli : Cli) (asked : Asked) (earlier : List Request) (request : Request) : Prop :=
  request.comment = none ∧
    match lastRequest request.head earlier with
    | none => cli.action = .request
    | some (_, previous, _) => previous.comment.isSome = true ∧ previous.at' + 3600 < cli.now ∧
        ∃ comments, (⟨.comments, .ok comments⟩ : Exchange Call Call.Answer) ∈ asked ∧
          review comments request.head.val = .ok .incomplete

/-- What an invocation knows: its exchanges, the saved requests, unused identifiers, and its unsent intent. -/
structure Known where
  cli : Cli
  asked : Asked := []
  requests : Option (List Request) := none
  ids : List Uuid := []
  intent : Option (List Request × Request) := none

inductive Edit (known : Known) (requests : List Request) : List Request → Prop where
  | matched {before after : List Request} {request : Request} {comments : List Comment} {comment : Comment} {at' : Nat}
    (split : requests = before ++ request :: after) (unconfirmed : request.comment = none)
    (seen : (⟨.comments, .ok comments⟩ : Exchange Call Call.Answer) ∈ known.asked)
    (unique : requestComments request.actor request.body comments = [comment]) :
    Edit known requests (before ++ { request with comment := some comment.id, at' := at' } :: after)
  | tracked {request : Request} {comments : List Comment} {comment : Comment} (fresh : request.id ∈ known.ids)
    (first : lastRequest request.head requests = none)
    (seen : (⟨.comments, .ok comments⟩ : Exchange Call Call.Answer) ∈ known.asked) (member : comment ∈ comments)
    (confirmed : request.comment = some comment.id) (owner : comment.user.id = request.actor)
    (marked : contains comment.body "@codex review" = true)
    (named : contains comment.body (commitLine request.head) = true) : Edit known requests (requests ++ [request])
  | intended {request : Request} (fresh : request.id ∈ known.ids)
    (justified : Justified known.cli known.asked requests request) : Edit known requests (requests ++ [request])
  | answered {earlier : List Request} {request : Request} {comment : Comment} {at' : Nat}
    (split : requests = earlier ++ [request]) (unconfirmed : request.comment = none)
    (seen : (⟨.send request.body, .ok comment⟩ : Exchange Call Call.Answer) ∈ known.asked)
    (owner : comment.user.id = request.actor) (same : comment.body = request.body) :
    Edit known requests (earlier ++ [{ request with comment := some comment.id, at' := at' }])

def newIntent (before after : List Request) : Option (List Request × Request) :=
  match after.getLast? with
  | none => none
  | some request => if after.dropLast = before ∧ request.comment = none then some (before, request) else none

omit [Formats] in
theorem newIntent_eq_some {before after earlier : List Request} {request : Request}
    (intent : newIntent before after = some (earlier, request)) :
    after = earlier ++ [request] ∧ before = earlier ∧ request.comment = none := by
  unfold newIntent at intent
  split at intent
  · cases intent
  · rename_i last found
    split at intent
    · rename_i added
      cases intent
      rcases List.getLast?_eq_some_iff.mp found with ⟨init, rfl⟩
      rcases added with ⟨same, unconfirmed⟩
      rw [List.dropLast_concat] at same
      exact ⟨congrArg (· ++ [_]) same, rfl, unconfirmed⟩
    · cases intent

def Known.saved (known : Known) (state : State) : SaveOutcome → Known
  | .refused => { known with intent := none }
  | .unsynced => { known with requests := some state.requests, ids := [], intent := none }
  | .saved =>
    { known with
      requests := some state.requests
      ids := []
      intent := known.requests.bind fun before => newIntent before state.requests }

def Known.note (known : Known) (exchange : Exchange Call Call.Answer) : Known :=
  { known with asked := known.asked ++ [exchange] }

/-- Saves follow the rules, and only an intent that was just made durable is sent. -/
def reviewing : Protocol Call Call.Answer Known where
  allowed known
    | .save state => ∃ requests, known.requests = some requests ∧ Edit known requests state.requests
    | .send body => ∃ earlier request, known.intent = some (earlier, request) ∧ body = request.body
    | .openStore => known.requests = none ∧ known.ids = [] ∧ known.intent = none
    | .readState => known.ids = [] ∧ known.intent = none
    | .readWake | .saveWake | .freshId | .pull | .comments | .actor | .evidence _ => True
  after known
    | .readState, .ok found =>
      { known.note ⟨.readState, .ok found⟩ with requests := some (found.elim [] State.requests) }
    | .save state, outcome => (known.note ⟨.save state, outcome⟩).saved state outcome
    | .freshId, id => { known.note ⟨.freshId, id⟩ with ids := known.ids ++ [id] }
    | .send body, answer => { known.note ⟨.send body, answer⟩ with intent := none }
    | .openStore, answer => known.note ⟨.openStore, answer⟩
    | .readState, .error failure => known.note ⟨.readState, .error failure⟩
    | .readWake, answer => known.note ⟨.readWake, answer⟩
    | .saveWake, answer => known.note ⟨.saveWake, answer⟩
    | .pull, answer => known.note ⟨.pull, answer⟩
    | .comments, answer => known.note ⟨.comments, answer⟩
    | .actor, answer => known.note ⟨.actor, answer⟩
    | .evidence kind, answer => known.note ⟨.evidence kind, answer⟩

end Knowledge

end HostedReview

import BazelRepo.HostedReview.Sends

namespace HostedReview

open Library Library.Stateful

variable [Formats]

section Invocations

omit [Formats] in
theorem readStore_requests {target : Target} {found : Option State} {saved : State}
    (read : readStore target found = .ok saved) : saved.requests = found.elim [] State.requests := by
  cases found with
  | none =>
    cases read
    rfl
  | some state =>
    rcases bind_eq_ok.mp read with ⟨_, _, same⟩
    cases same
    rfl

theorem execute_follows (target : Target) (cli : Cli) :
    (execute target cli).Follows reviewing (fun _ _ => True) { cli := cli } := by
  unfold execute
  split
  · trivial
  · rename_i head _
    apply And.intro ⟨rfl, rfl, rfl⟩
    intro opened
    cases opened with
    | error failure => trivial
    | ok u =>
      apply And.intro ⟨rfl, rfl⟩
      intro read
      simp only [Program.bind]
      cases found : read >>= readStore target with
      | error failure => trivial
      | ok saved =>
        rcases bind_eq_ok.mp found with ⟨state, rfl, checked⟩
        have serves : Keeps reviewing (Current cli)
            (if cli.action = .wake then wake cli head else reviewOnce cli head) fun _ _ _ => True :=
          Keeps.ite (fun _ => keeps_wake) fun _ => keeps_reviewOnce
        have current : Current cli (reviewing.after (reviewing.after { cli := cli } .openStore (.ok u)) .readState (.ok state))
            saved := ⟨rfl, congrArg some (readStore_requests checked).symm⟩
        apply Program.Follows.bind _ (serves _ saved current)
        exact fun _ _ _ => trivial

/-- Invocations on one pull request, whatever the remote and the disk do. -/
def reviews (target : Target) : Discipline (execute target) Runs Moves reviewing where
  entry cli := { cli := cli }
  post _ _ := True
  inv := Directory.Inv
  agrees := Directory.Agrees
  follows := execute_follows target
  starts := by
    intro directory invocation cli _ idle
    refine ⟨?_, fun held => absurd held idle⟩
    intro exchange asked
    cases asked
  own := Runs.own
  others := by
    intro directory later invocation known call answer other thought _ _ _ runs differs holds
    cases runs with
    | run possible => exact answered_others possible differs holds
  moved := Moves.keeps

omit [Formats] in
theorem inv_initial : ({} : Directory).Inv where
  ordered := .nil
  settled := by simp [Versions.all]
  distinct := by simp [Versions.all]
  issued := by simp [Versions.all]
  confirmed := by simp [Versions.all]
  sent := by simp [Sent, sentBodies]
  once := .nil

end Invocations

section Intents

def Known.Earned (known : Known) : Prop :=
  ∀ earlier request, known.intent = some (earlier, request) → ∃ state : State,
    (⟨.save state, .saved⟩ : Exchange Call Call.Answer) ∈ known.asked ∧ state.requests = earlier ++ [request]

omit [Formats] in
theorem Known.Earned.note {known : Known} (earned : known.Earned) (exchange : Exchange Call Call.Answer) :
    (known.note exchange).Earned := by
  intro earlier request intended
  rcases earned earlier request intended with ⟨state, saved, whole⟩
  exact ⟨state, List.mem_append_left _ saved, whole⟩

theorem Known.Earned.after {known : Known} (earned : known.Earned) (call : Call) (answer : call.Answer) :
    (reviewing.after known call answer).Earned := by
  cases call with
  | readState => cases answer <;> exact earned.note _
  | save state =>
    cases answer with
    | refused | unsynced =>
      intro earlier request intended
      cases intended
    | saved =>
      intro earlier request intended
      rcases Option.bind_eq_some_iff.mp intended with ⟨before, _, new⟩
      exact ⟨state, List.mem_append_right _ (List.mem_singleton_self _), (newIntent_eq_some new).1⟩
  | send body =>
    intro earlier request intended
    cases intended
  | openStore | readWake | saveWake | freshId | pull | comments | actor | evidence => exact earned.note _

theorem Known.Earned.through {asked : Asked} :
    ∀ {known : Known}, known.Earned → (reviewing.through known asked).Earned := by
  induction asked with
  | nil => exact id
  | cons exchange rest ih => exact fun earned => ih (earned.after exchange.1 exchange.2)

theorem asked_through {asked : Asked} : ∀ {known : Known}, (reviewing.through known asked).asked = known.asked ++ asked := by
  induction asked with
  | nil => exact (List.append_nil _).symm
  | cons exchange rest ih =>
    intro known
    show (reviewing.through (reviewing.after known exchange.1 exchange.2) rest).asked = _
    rw [ih, reviewing_asked, List.append_assoc]
    rfl

theorem cli_after (known : Known) (call : Call) (answer : call.Answer) : (reviewing.after known call answer).cli = known.cli := by
  cases call with
  | readState | save => cases answer <;> rfl
  | openStore | readWake | saveWake | freshId | pull | comments | actor | evidence | send => rfl

theorem cli_through {asked : Asked} : ∀ {known : Known}, (reviewing.through known asked).cli = known.cli := by
  induction asked with
  | nil => exact rfl
  | cons exchange rest ih =>
    intro known
    exact ih.trans (cli_after known exchange.1 exchange.2)

end Intents

section Posts

abbrev Invocations := Sessions Directory InvocationId Call Call.Answer Cli (Except String Report)

structure Certain (directory : Directory) (cli : Cli) (asked : Asked) (body : String) (earlier : List Request)
    (request : Request) : Prop where
  named : body = request.body
  /-- This invocation has just made the request durable, as the last one. -/
  intended : ∃ state, (⟨.save state, .saved⟩ : Exchange Call Call.Answer) ∈ asked ∧ state.requests = earlier ++ [request]
  durable : ∃ state, directory.files.durable = some state ∧ state.requests = earlier ++ [request]
  unsent : ¬ Sent directory.log body
  /-- Every other durable request for the head is confirmed. -/
  confirmed : ∀ previous ∈ earlier, previous.head = request.head →
    ∃ comment, previous.comment = some comment ∧ Confirmed directory.log previous comment
  /-- It is the first one for the head, or follows an incomplete review and an hour. -/
  due : (cli.action = .request ∧ (∀ previous ∈ earlier, previous.head ≠ request.head) ∧
      ∀ other : Request, other.head = request.head → ¬ Sent directory.log other.body) ∨
    ∃ before previous after comments, lastRequest request.head earlier = some (before, previous, after) ∧
      previous.at' + 3600 < cli.now ∧ (⟨.comments, .ok comments⟩ : Exchange Call Call.Answer) ∈ asked ∧
      review comments request.head.val = .ok .incomplete

/-- The earlier requests for the head are confirmed, because the last one is. -/
theorem Directory.Inv.certain {directory : Directory} {known : Known} {earlier : List Request} {request : Request}
    (inv : directory.Inv) (facts : directory.Facts known) (earned : known.Earned)
    (intent : known.intent = some (earlier, request)) :
    Certain directory known.cli known.asked request.body earlier request := by
  rcases facts.intent earlier request intent with ⟨_, ⟨state, durable, whole⟩, unsent, _, reason⟩
  have member : state ∈ directory.files.all := Versions.mem_of_durable durable
  have listed : ∀ previous ∈ earlier, previous ∈ state.requests := by
    intro previous early
    rw [whole]
    exact List.mem_append_left _ early
  have settled := inv.settled state member
  rw [whole, Settled, List.pairwise_append] at settled
  refine ⟨rfl, earned earlier request intent, ⟨state, durable, whole⟩, unsent, ?_, ?_⟩
  · intro previous early same
    have isSome := settled.2.2 previous early request (List.mem_singleton_self _) same
    rcases Option.isSome_iff_exists.mp isSome with ⟨comment, confirmed⟩
    exact ⟨comment, confirmed, inv.confirmed state member previous (listed previous early) comment confirmed⟩
  · split at reason
    · rename_i nothing
      have others := lastRequest_eq_none nothing
      refine .inl ⟨reason, others, ?_⟩
      intro other same sent
      rcases inv.sent other.body sent with ⟨found, there, saved, inside, equal⟩
      cases durable.symm.trans there
      rw [whole] at inside
      rcases List.mem_append.mp inside with early | last
      · exact others saved early ((Request.body_inj equal).2.trans same)
      · rw [List.mem_singleton.mp last] at equal
        exact unsent (equal ▸ sent)
    · rename_i before previous after found
      rcases reason with ⟨_, late, comments, seen, incomplete⟩
      exact .inr ⟨before, previous, after, comments, found, late, seen, incomplete⟩

/-- No uncertain request is posted again, whatever is lost and whoever crashes. -/
theorem posts_are_certain (target : Target) {pool : Invocations}
    (steps : Sessions.Steps (execute target) Runs Moves { state := {} } pool) :
    (sentBodies pool.state.log).Nodup ∧
    ∀ {invocation cli asked body next answer later},
      pool.session invocation = some ⟨cli, asked, .ask (.send body) next⟩ →
      Runs pool.state invocation (.send body) answer later →
      ∃ earlier request, Certain pool.state cli asked body earlier request := by
  have idle : ∀ invocation, ({} : Directory).Agrees invocation none := fun _ none => nomatch none
  have good := ((reviews target).good_initial inv_initial idle).steps steps
  refine ⟨good.inv.once, ?_⟩
  intro invocation cli asked body next answer later posting ran
  have agrees := good.agrees invocation
  rw [posting] at agrees
  rcases (good.follows posting).1 with ⟨earlier, request, intent, rfl⟩
  cases ran with
  | run holds =>
    have earned : (reviewing.through { cli := cli } asked).Earned := Known.Earned.through fun _ _ none => nomatch none
    have certain := good.inv.certain (agrees.2 holds) earned intent
    rw [show ((reviews target).known ⟨cli, asked, _⟩) = reviewing.through { cli := cli } asked from rfl, cli_through, asked_through] at certain
    exact ⟨earlier, request, certain⟩

/-- A remote on which nothing was requested yet. It does not answer a post. -/
def unrequested (head : String) (directory : Directory) : (call : Call) → Option call.Answer
  | .openStore => some (.ok ())
  | .readState => some (.ok directory.files.visible)
  | .save _ => some .saved
  | .freshId => some ⟨7⟩
  | .pull => some (.ok ⟨"open", head⟩)
  | .comments => some (.ok [])
  | .actor => some (.ok ⟨1, "owner", "User"⟩)
  | .readWake | .saveWake | .evidence _ | .send _ => none

def answers (remote : Directory → (call : Call) → Option call.Answer) (invocation : InvocationId)
    (directory : Directory) (call : Call) : Option (call.Answer × Directory) :=
  (remote directory call).bind fun answer =>
    if directory.Possible invocation call answer then some (answer, directory.answered invocation call answer) else none

omit [Formats] in
theorem runs_of_answers {remote : Directory → (call : Call) → Option call.Answer} {invocation : InvocationId}
    {directory : Directory} {call : Call} {answer : call.Answer} {later : Directory}
    (answered : answers remote invocation directory call = some (answer, later)) :
    Runs directory invocation call answer later := by
  rcases Option.bind_eq_some_iff.mp answered with ⟨given, _, chosen⟩
  split at chosen
  · rename_i possible
    cases chosen
    exact .run possible
  · cases chosen

def isPost : Program Call Call.Answer (Except String Report) → Bool
  | .ask (.send _) _ => true
  | _ => false

omit [Formats] in
theorem isPost_eq_true {program : Program Call Call.Answer (Except String Report)} (posts : isPost program = true) :
    ∃ body next, program = .ask (.send body) next := by
  unfold isPost at posts
  split at posts
  · exact ⟨_, _, rfl⟩
  · cases posts

omit [Formats] in
/-- The first request for a head reaches its post. -/
theorem posts_are_certain_first : ∃ (_ : Formats) (pool : Invocations) (cli : Cli) (asked : Asked) (body : String)
    (earlier : List Request) (request : Request), Certain pool.state cli asked body earlier request := by
  let formats : Formats := ⟨fun _ => none, fun _ => none⟩
  let head := "aaaaaaaaaaaaaaaaaaaaaaaaaaaaaaaaaaaaaaaa"
  let target : Target := ⟨"owner/name", 1⟩
  let cli : Cli := ⟨.request, head, 5, none⟩
  let initial : Invocations := { state := {} }
  let served := Sessions.serve (answers (unrequested head) 0) 9 {} (execute target cli)
  have reached : (isPost served.2.2 && served.2.1.holder == some 0) = true := by decide +kernel
  simp only [Bool.and_eq_true, beq_iff_eq] at reached
  rcases isPost_eq_true reached.1 with ⟨body, next, posts⟩
  have start : Sessions.Step (execute target) Runs Moves initial
      { initial with session := Function.update initial.session 0 (some ⟨cli, [], execute target cli⟩) } := .start rfl cli
  have serves := Sessions.serves_serve (@runs_of_answers (unrequested head) 0) 9 {} (execute target cli)
  have begun : Function.update initial.session 0 (some ⟨cli, [], execute target cli⟩) 0 =
      some ⟨cli, [], execute target cli⟩ := Function.update_self _ _ _
  rcases serves.steps begun with ⟨pool, steps, state, there⟩
  have posting : pool.session 0 = some ⟨cli, served.1, .ask (.send body) next⟩ := by
    rw [there, ← posts]
    rfl
  have held : pool.state.holder = some 0 := state ▸ reached.2
  have response : Runs pool.state 0 (.send body) (.error "lost") _ := .run held
  rcases (posts_are_certain target (.head start steps)).2 posting response with ⟨earlier, request, certain⟩
  exact ⟨formats, pool, cli, served.1, body, earlier, request, certain⟩

end Posts

end HostedReview

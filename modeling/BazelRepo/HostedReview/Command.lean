import BazelRepo.HostedReview.Policy
import BazelRepo.Library.Sessions
import BazelRepo.Library.Versions

namespace HostedReview

open Library (Formats Json Program SaveOutcome Stateful Uuid)

inductive Action where
  | request
  | poll
  | track
  | wake
  deriving DecidableEq

/-- What a caller says; the repository and the pull request are those of the store. -/
structure Cli where
  action : Action
  head : String
  now : Nat
  requestComment : Option Nat

structure Target where
  repository : String
  pr : Nat

inductive EvidenceKind where
  | checks
  | statuses
  | workflows
  deriving DecidableEq

structure CheckRecord where
  identity : Option String
  name : Option String
  state : Option String
  conclusion : Option String

structure Page where
  total : Option Nat
  records : Option (List CheckRecord)

inductive Call where
  /-- Opens the store and takes its lock. -/
  | openStore
  | readState
  /-- The wake record and the assignment receipt, which must be the retained ones. -/
  | readWake
  | saveWake
  | save (state : State)
  /-- A new request identifier. -/
  | freshId
  | pull
  | comments
  | actor
  | evidence (kind : EvidenceKind)
  | send (body : String)

abbrev Call.Answer : Call → Type
  | openStore => Except String Unit
  | readState => Except String (Option State)
  | readWake => Except String Unit
  | saveWake => Except String Unit
  | save _ => SaveOutcome
  | freshId => Uuid
  | pull => Except String Pull
  | comments => Except String (List Comment)
  | actor => Except String User
  | evidence _ => Except String (List Page)
  | send _ => Except String Comment

abbrev Reviewing (α : Type) := Stateful Call Call.Answer State String α

def asking {α : Type} (call : Call) (read : call.Answer → Except String α) : Reviewing α :=
  ExceptT.mk fun state => do
    let answer ← Program.perform call
    pure (read answer, state)

def ensure (condition : Bool) (message : String) : Except String Unit :=
  if condition then .ok () else .error message

inductive Report where
  | closed
  | headChanged (head : String)
  | complete (head : String)
  | alreadyTracked
  | tracked (comment requestedAt : Nat)
  | reconciled (request : Uuid) (comment : Nat)
  | externalRequest
  | untrackedHead
  | uncertain
  | waiting
  | changedBeforeSend
  | providerUnavailableBeforeSend
  | requested (head : String) (request : Uuid) (comment requestedAt : Nat)
  /-- The observation of a wake failed; its record says why. -/
  | unobserved (detail : String)

section Store

def Request.identified (request : Request) : Bool := 0 < request.actor && request.comment != some 0

def State.check (target : Target) (state : State) : Except String Unit := do
  ensure (state.version == 1 && state.repository == target.repository && state.pr == target.pr)
    "saved review identity does not match"
  ensure ((state.requests.map (·.id)).Nodup && state.requests.all Request.identified) "invalid saved request identity"

def State.fresh (target : Target) : State := ⟨1, target.repository, target.pr, []⟩

def readStore (target : Target) : Option State → Except String State
  | none => .ok (.fresh target)
  | some state => do
    state.check target
    .ok state

def save : Reviewing Unit := do
  let state ← get
  asking (.save state) fun outcome => if outcome = .saved then .ok () else .error "cannot persist review state"

end Store

def lastRequest (head : Commit) : List Request → Option (List Request × Request × List Request)
  | [] => none
  | request :: rest =>
    match lastRequest head rest with
    | some (before, found, after) => some (request :: before, found, after)
    | none => if request.head = head then some ([], request, rest) else none

section Remote

variable [Formats]

def Comment.identified (comment : Comment) : Bool := 0 < comment.id && 0 < comment.user.id

def checkComments (comments : List Comment) : Except String (List Comment) := do
  comments.forM fun comment => do
    ensure comment.identified "invalid GitHub comment identity"
    let _ ← timestamp comment.createdAt
    pure ()
  .ok comments

def readComments : Reviewing (List Comment) := asking .comments fun answer => answer >>= checkComments

def readPull : Reviewing Pull := asking .pull id

def Comment.isRequest (comment : Comment) : Bool :=
  comment.user.kind != "Bot" && contains comment.body "@codex review"

def Comment.createdFrom (comment : Comment) (at' : Nat) : Bool :=
  match timestamp comment.createdAt with
  | .ok created => at' ≤ created
  | .error _ => false

def requestComments (actor : Nat) (body : String) (comments : List Comment) : List Comment :=
  comments.filter fun comment => comment.user.id == actor && comment.body == body

def inspectSavedRequest (before : List Request) (request : Request) (after : List Request) (actor : Nat)
    (comments : List Comment) (knownComments : List Nat) : Reviewing (Option Report) := do
  liftM (ensure (request.actor == actor) "authenticated caller differs from saved request owner")
  let matching := if request.comment.isNone then requestComments request.actor request.body comments else []
  liftM (ensure (matching.length ≤ 1) "multiple comments match one request; inspect remote state")
  match matching.head? with
  | some comment => do
    let created ← liftM (timestamp comment.createdAt)
    let confirmed : Request := { request with comment := some comment.id, at' := max request.at' created }
    modify fun saved => { saved with requests := before ++ confirmed :: after }
    save
    pure (some (.reconciled request.id comment.id))
  | none =>
    -- an external request has no verified head binding
    if comments.any fun comment => comment.isRequest && !knownComments.contains comment.id &&
        comment.createdFrom request.at' && some comment.id != request.comment && comment.body != request.body then
      pure (some .externalRequest)
    else pure none

def commitLine (head : Commit) : String := s!"Review commit `{head.val}`."

def trackExisting (id now : Nat) (head : Commit) (comments : List Comment) (actor : Nat) : Reviewing Report := do
  match comments.find? (·.id == id) with
  | none => throw "request comment is missing"
  | some comment => do
    liftM (ensure (comment.user.id == actor && contains comment.body "@codex review" &&
      contains comment.body (commitLine head))
      "request comment must belong to this caller and explicitly identify this commit")
    let at' ← liftM (timestamp comment.createdAt)
    liftM (ensure (at' ≤ now) "request comment is later than the observation time")
    let request ← asking .freshId fun fresh => .ok fresh
    modify fun saved => { saved with requests := saved.requests ++ [⟨request, head, at', actor, some id⟩] }
    save
    pure (.tracked id at')

def beforeSend (head : Commit) (initial : Bool) (comments : List Comment) : Reviewing (Option Report) := do
  let current ← readPull
  if current.state ≠ "open" ∨ current.headSha ≠ head.val then pure (some .changedBeforeSend)
  else do
    let freshComments ← readComments
    let freshReview ← liftM (review freshComments current.headSha)
    if freshReview = .complete then pure (some (.complete current.headSha))
    else if (initial = true ∧ freshReview ≠ .missing) ∨ (initial = false ∧ freshReview ≠ .incomplete) then
      pure (some .providerUnavailableBeforeSend)
    else if freshComments.any fun comment => comment.isRequest && !comments.any (·.id == comment.id) then
      pure (some .externalRequest)
    else pure none

def confirmSent (earlier : List Request) (request : Request) (comment : Comment) : Reviewing Report := do
  liftM (ensure (0 < comment.id && comment.user.id == request.actor && comment.body == request.body)
    "review request response is uncertain")
  let created ← liftM (timestamp comment.createdAt)
  let confirmed : Request := { request with comment := some comment.id, at' := max request.at' created }
  modify fun saved => { saved with requests := earlier ++ [confirmed] }
  save
  pure (.requested request.head.val request.id comment.id confirmed.at')

def sendRequest (earlier : List Request) (request : Request) (initial : Bool) (comments : List Comment) :
    Reviewing Report := do
  modify fun saved => { saved with requests := earlier ++ [request] }
  -- the intent is committed before the outgoing effect
  save
  let stopped ← beforeSend request.head initial comments
  match stopped with
  | some report => pure report
  | none => do
    let comment ← asking (.send request.body) id
    confirmSent earlier request comment

def Decision.report (head : Commit) : Decision → Report
  | complete => .complete head.val
  | closed => .closed
  | untracked => .untrackedHead
  | uncertain => .uncertain
  | waiting | request => .waiting

/-- Whether another request may be sent, and the request if so. -/
def requestReview (cli : Cli) (head : Commit) (comments : List Comment) (status : Review) (actor : Nat)
    (known : List Nat) (last : Option Request) : Reviewing Report := do
  let decision := decide true status (last.map fun request => (request.at', request.comment.isSome)) cli.now
  let initial := cli.action = .request ∧ last.isNone = true
  if initial ∧ status ≠ .missing then pure .untrackedHead
  else if initial ∧ comments.any (fun comment => comment.isRequest && !known.contains comment.id) = true then
    pure .externalRequest
  else if ¬ initial ∧ decision ≠ .request then pure (decision.report head)
  else do
    let fresh ← asking .freshId fun fresh => .ok fresh
    let saved ← get
    sendRequest saved.requests ⟨fresh, head, cli.now, actor, none⟩ initial comments

def followUp (cli : Cli) (head : Commit) (comments : List Comment) (status : Review) (actor : Nat) : Reviewing Report := do
  liftM (ensure cli.requestComment.isNone "request-comment is only valid with track")
  let saved ← get
  let known := saved.requests.filterMap (·.comment)
  match lastRequest head saved.requests with
  | none => requestReview cli head comments status actor known none
  | some (before, request, after) => do
    let inspected ← inspectSavedRequest before request after actor comments known
    match inspected with
    | some report => pure report
    | none => requestReview cli head comments status actor known (some request)

def trackAction (cli : Cli) (head : Commit) (comments : List Comment) (status : Review) (actor : Nat) : Reviewing Report := do
  let saved ← get
  match lastRequest head saved.requests with
  | some _ => pure .alreadyTracked
  | none => do
    liftM (ensure (status == .incomplete) "tracking requires an authenticated incomplete review for this head")
    match cli.requestComment with
    | none => throw "request comment is required"
    | some id => trackExisting id cli.now head comments actor

def reviewAction (cli : Cli) (head : Commit) (pull : Pull) (comments : List Comment) : Reviewing Report :=
  if pull.state ≠ "open" then pure .closed
  else if pull.headSha ≠ head.val then pure (.headChanged pull.headSha)
  else do
    let status ← liftM (review comments head.val)
    if status = .complete then pure (.complete head.val)
    else do
      let actor ← asking .actor id
      liftM (ensure (0 < actor.id) "invalid authenticated caller identity")
      if cli.action = .track then trackAction cli head comments status actor.id
      else followUp cli head comments status actor.id

section Wake

def completePages (pages : List Page) : Except String (List CheckRecord) :=
  match pages with
  | [] => .error "empty response pages"
  | first :: _ => match first.total with
    | none => .error "missing total count"
    | some total => do
      let records ← pages.mapM fun page =>
        if page.total ≠ some total then .error "response count changed between pages"
        else page.records.elim (.error "missing response inventory") .ok
      ensure (records.flatten.length == total) "incomplete response pages"
      .ok records.flatten

def CheckRecord.conclude (kind : EvidenceKind) (record : CheckRecord) : Except String String := do
  let _ ← record.name.elim (.error "missing check name") .ok
  let state ← record.state.elim (.error "missing check status") .ok
  if kind ≠ .statuses ∧ state = "completed" then record.conclusion.elim (.error "missing check conclusion") .ok
  else .ok state

/-- Whether a conclusion is pending; a failed one is not, an unknown one is an error. -/
def isPending (conclusion : String) : Except String Bool :=
  if conclusion ∈ ["success", "skipped", "neutral"] then .ok false
  else if conclusion ∈ ["queued", "pending", "in_progress", "requested", "waiting"] then .ok true
  else if conclusion ∈ ["failure", "error", "cancelled", "timed_out", "action_required", "startup_failure", "stale"] then
    .ok false
  else .error "unknown check state"

def categoryStatus (kind : EvidenceKind) (pages : List Page) : Except String Unit := do
  let records ← completePages pages
  let identities ← records.mapM fun record => do
    let identity ← record.identity.elim (.error "missing check identity") .ok
    let conclusion ← record.conclude kind
    let _ ← isPending conclusion
    .ok identity
  ensure identities.Nodup "duplicate response identity"

def ciStatus (checks statuses workflows : List Page) : Except String Unit := do
  categoryStatus .checks checks
  categoryStatus .statuses statuses
  categoryStatus .workflows workflows

def observe (cli : Cli) (head : Commit) : Reviewing Report := do
  let pull ← readPull
  liftM (ensure (pull.state == "open" || pull.state == "closed") "unknown PR state")
  if pull.state = "closed" then pure .closed
  else if pull.headSha ≠ head.val then pure (.headChanged pull.headSha)
  else do
    let comments ← readComments
    let _ ← liftM (review comments head.val)
    let checks ← asking (.evidence .checks) id
    let statuses ← asking (.evidence .statuses) id
    let workflows ← asking (.evidence .workflows) id
    liftM (ciStatus checks statuses workflows)
    reviewAction cli head pull comments

def wake (cli : Cli) (head : Commit) : Reviewing Report := do
  asking .readWake id
  let observed ← (ExceptT.mk fun state => do
    let ended ← observe cli head state
    pure (.ok ended.1, ended.2) : Reviewing (Except String Report))
  asking .saveWake id
  pure (match observed with
    | .ok report => report
    | .error detail => .unobserved detail)

end Wake

def reviewOnce (cli : Cli) (head : Commit) : Reviewing Report := do
  let pull ← readPull
  if pull.state = "open" ∧ pull.headSha = head.val then do
    let comments ← readComments
    reviewAction cli head pull comments
  else reviewAction cli head pull []

def execute (target : Target) (cli : Cli) : Program Call Call.Answer (Except String Report) :=
  match Commit.tryFrom cli.head with
  | .error failure => .done (.error failure)
  | .ok head => do
    let opened : Except String Unit ← Program.perform Call.openStore
    match opened with
    | .error failure => .done (.error failure)
    | .ok _ => do
      let read : Except String (Option State) ← Program.perform Call.readState
      match read >>= readStore target with
      | .error failure => .done (.error failure)
      | .ok saved => do
        let ended ← (if cli.action = .wake then wake cli head else reviewOnce cli head) saved
        pure ended.1

end Remote

end HostedReview

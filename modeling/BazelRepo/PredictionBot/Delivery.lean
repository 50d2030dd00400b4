import BazelRepo.PredictionBot.History

namespace PredictionBot

open Library (BTreeMap Lowercase Uuid okOr parseU64)

structure CommandCall where
  key : String
  actor : Actor
  command : Command

structure Attempt where
  count : Nat
  membership : Option MembershipEvidence
  verificationError : Option StoreError

/-- Where a call of the store stands between two of its awaits. A refresh inside the retry loop knows the
attempt it belongs to. -/
inductive Phase where
  | preflight
  | attempt (attempt : Attempt)
  | refresh (response : String) (attempt : Option Attempt)
  | publishing (response : String) (view : View)
  | finished (result : Except StoreError String)

structure Call where
  request : CommandCall
  phase : Phase

structure Commit where
  key : String
  actor : UserId
  response : String
  events : List Event

/-- The database of a guild, one process over it, and every commit so far. -/
structure World where
  database : Database := {}
  published : Option View := none
  loaded : List View := []
  calls : Nat → Option Call := fun _ => none
  next : Nat := 0
  commits : List Commit := []

/-- A failure of the database around one transaction: before it took effect, or in the answer after. -/
inductive Fault where
  | before (failure : TransactionFailure)
  | acknowledgement (failure : TransactionFailure)

inductive Action where
  | deliver (request : CommandCall)
  | preflight (id : Nat) (fault : Option StoreError) (membership : Option MembershipEvidence)
      (verificationError : Option StoreError)
  | attempt (id : Nat) (acceptedAt : Int64) (ids : Nat → Uuid) (fault : Option Fault)
  | refresh (id : Nat) (fault : Option StoreError)
  | publish (id : Nat)
  | configure (configuration : Configuration)
  | view
  | publishLoaded (index : Nat)
  | crash

def Action.caller : Action → Option Nat
  | .preflight id .. | .attempt id .. | .refresh id _ | .publish id => some id
  | _ => none

def Action.faulty : Action → Bool
  | .preflight _ fault .. => fault.isSome
  | .attempt _ _ _ fault => fault.isSome
  | .refresh _ fault => fault.isSome
  | _ => false

def retryable (failure : TransactionFailure) : Bool :=
  failure.stage != .validate &&
    (failure.error == .database (some "40001") || failure.error == .database (some "40P01") ||
      failure.error == .database (some "23505"))

def afterFailure (attempt : Attempt) (failure : TransactionFailure) : Phase :=
  if retryable failure ∧ attempt.count < 2 then .attempt { attempt with count := attempt.count + 1 }
  else .finished (.error failure.error)

def preflightPhase (database : Database) (request : CommandCall) (fault : Option StoreError)
    (membership : Option MembershipEvidence) (verificationError : Option StoreError) : Phase :=
  match fault with
  | some error => .finished (.error error)
  | none =>
    match receipt database request.key request.actor.userId with
    | .error error => .finished (.error error)
    | .ok (some response) => .refresh response none
    | .ok none => .attempt ⟨0, membership, verificationError⟩

def failedRefresh (attempt : Option Attempt) (error : StoreError) : Phase :=
  match attempt with
  | some attempt => afterFailure attempt ⟨.refresh, error⟩
  | none => .finished (.error error)

def refreshPhase [Lowercase] (store : Store) (guild : GuildId) (database : Database) (response : String)
    (attempt : Option Attempt) (fault : Option StoreError) : Phase :=
  match fault with
  | some error => failedRefresh attempt error
  | none =>
    match load store guild database with
    | .error error => failedRefresh attempt error
    | .ok view => .publishing response view

def committedPhase (committed : Committed) (attempt : Attempt) : Phase :=
  match committed.published with
  | some view => .publishing committed.response view
  | none => .refresh committed.response (some attempt)

def publishView (published : Option View) (view : View) : Option View :=
  match published with
  | some current => if view.revision.val ≤ current.revision.val then some current else some view
  | none => some view

def World.setPhase (world : World) (id : Nat) (request : CommandCall) (phase : Phase) : World :=
  { world with calls := Function.update world.calls id (some ⟨request, phase⟩) }

def World.commit (world : World) (key : String) (actor : UserId) (committed : Committed) : World :=
  { world with
    database := committed.database
    commits :=
      if committed.recorded then world.commits ++ [⟨key, actor, committed.response, committed.events⟩]
      else world.commits }

def CommandCall.delivery (request : CommandCall) (attempt : Attempt) (acceptedAt : Int64) (ids : Nat → Uuid) :
    Delivery :=
  { key := request.key
    actor := request.actor
    command := request.command
    acceptedAt
    membership := attempt.membership
    verificationError := attempt.verificationError
    ids }

/-- What the caller hears of a committed transaction, unless the answer is lost. -/
def heardPhase (committed : Committed) (attempt : Attempt) : Option Fault → Phase
  | some (.acknowledgement failure) => afterFailure attempt failure
  | _ => committedPhase committed attempt

/-- One transaction attempt; the advisory lock makes its body one step of the guild. -/
def World.transact [Lowercase] (store : Store) (guild : GuildId) (world : World) (id : Nat)
    (request : CommandCall) (attempt : Attempt) (acceptedAt : Int64) (ids : Nat → Uuid)
    (fault : Option Fault) : World :=
  match fault with
  | some (.before failure) => world.setPhase id request (afterFailure attempt failure)
  | _ =>
    match PredictionBot.transact store guild (request.delivery attempt acceptedAt ids) world.database with
    | .error failure => world.setPhase id request (afterFailure attempt failure)
    | .ok committed =>
      (world.commit request.key request.actor.userId committed).setPhase id request
        (heardPhase committed attempt fault)

def World.advance [Lowercase] (store : Store) (guild : GuildId) (world : World) (id : Nat) (call : Call) :
    Action → World
  | .preflight _ fault membership verificationError =>
    match call.phase with
    | .preflight =>
      world.setPhase id call.request
        (preflightPhase world.database call.request fault membership verificationError)
    | _ => world
  | .attempt _ acceptedAt ids fault =>
    match call.phase with
    | .attempt attempt => world.transact store guild id call.request attempt acceptedAt ids fault
    | _ => world
  | .refresh _ fault =>
    match call.phase with
    | .refresh response attempt =>
      world.setPhase id call.request (refreshPhase store guild world.database response attempt fault)
    | _ => world
  | .publish _ =>
    match call.phase with
    | .publishing response view =>
      { world.setPhase id call.request (.finished (.ok response)) with
        published := publishView world.published view }
    | _ => world
  | _ => world

def World.deliver (guild : GuildId) (world : World) (request : CommandCall) : World :=
  let phase : Phase :=
    if validKey guild request.key request.actor then .preflight
    else .finished (.error (.configuration "invalid guild or command key"))
  { world.setPhase world.next request phase with next := world.next + 1 }

def World.configure (store : Store) (guild : GuildId) (world : World) (configuration : Configuration) : World :=
  match configureAnnouncements store guild configuration world.database with
  | .error _ => world
  | .ok committed => world.commit configuration.key configuration.actor.userId committed

def World.step [Lowercase] (store : Store) (guild : GuildId) (world : World) (action : Action) : World :=
  match action.caller with
  | some id =>
    match world.calls id with
    | some call => world.advance store guild id call action
    | none => world
  | none =>
    match action with
    | .deliver request => world.deliver guild request
    | .configure configuration => world.configure store guild configuration
    | .view =>
      match load store guild world.database with
      | .error _ => world
      | .ok view => { world with loaded := world.loaded ++ [view] }
    | .publishLoaded index =>
      match world.loaded[index]? with
      | some view => { world with published := publishView world.published view }
      | none => world
    -- The process dies: its calls and caches are gone, the database stays.
    | .crash => { world with published := none, loaded := [], calls := fun _ => none }
    | _ => world

def World.run [Lowercase] (store : Store) (guild : GuildId) (world : World) (actions : List Action) : World :=
  actions.foldl (World.step store guild) world

structure ConfigurationVersion where
  val : Int64
  deriving DecidableEq

structure PendingAnnouncement where
  revision : EventRevision
  channelId : ChannelId
  configurationVersion : ConfigurationVersion
  attempts : Int64
  snapshot : SnapshotV1

inductive AttemptOutcome where
  | delivered (messageId : UInt64)
  | retry (reason : String) (providerDelay : Option Int64)
  | pause (reason : String)

def saturatingAdd (a b : Int64) : Int64 :=
  (Library.checkedAdd a b).getD (if b < 0 then Int64.minValue else Int64.maxValue)

def retryAt (now failures : Int64) (providerDelay : Option Int64) : Int64 :=
  let exponent := min (max (saturatingAdd failures (-1)) 0) 6
  let localDelay := min (5 * 2 ^ exponent.toNatClampNeg) 300
  saturatingAdd now (max localDelay (max (providerDelay.getD 0) 0))

def Database.oldest (database : Database) (revision : EventRevision) : Bool :=
  database.outbox.toList.all fun older => !(older.2.state == .pending && older.1.val < revision.val)

def SettingsRow.open (settings : SettingsRow) : Bool := settings.enabled && settings.pauseReason.isNone

def decodePending (settings : SettingsRow) (revision : EventRevision) (row : OutboxRow) :
    Except StoreError PendingAnnouncement := do
  let stored ← okOr settings.channelId (.database none)
  let channelId ← okOr (parseU64 stored) (.history "invalid announcement channel ID")
  .ok
    { revision
      channelId := ⟨channelId⟩
      configurationVersion := ⟨settings.configurationVersion⟩
      attempts := row.attempts
      snapshot := row.snapshot }

/-- The row of a guild in a batch, if it has one; a full batch can leave it out. -/
def nextDue (database : Database) (now : Int64) : Except StoreError (Option PendingAnnouncement) :=
  match database.settings with
  | none => .ok none
  | some settings =>
    match database.outbox.toList.find? fun row => row.2.state == .pending && settings.open &&
        database.oldest row.1 && row.2.nextAttemptAt ≤ now with
    | none => .ok none
    | some row => (decodePending settings row.1 row.2).map some

def stillEligible (database : Database) (item : PendingAnnouncement) : Bool :=
  match database.outbox[item.revision]?, database.settings with
  | some row, some settings =>
    row.state == .pending && settings.open && settings.channelId == some (toString item.channelId) &&
      settings.configurationVersion == item.configurationVersion.val && database.oldest item.revision
  | _, _ => false

def updateRow (database : Database) (revision : EventRevision) (update : OutboxRow → OutboxRow) : Database :=
  match database.outbox[revision]? with
  | some row =>
    if row.state = .pending then { database with outbox := database.outbox.insert revision (update row) }
    else database
  | none => database

def applicable (database : Database) (item : PendingAnnouncement) : Bool :=
  (database.outbox[item.revision]?).any (fun row => row.state == .pending) &&
    database.settings.any fun settings => settings.configurationVersion == item.configurationVersion.val

def OutboxRow.deferred (row : OutboxRow) (attempts deadline : Int64) (reason : String) : OutboxRow :=
  { row with attempts := attempts, nextAttemptAt := deadline, lastFailure := some reason }

/-- Records what became of an attempt; only what is still pending can change. -/
def finishAttempt (database : Database) (item : PendingAnnouncement) (outcome : AttemptOutcome)
    (completedAt : Int64) : Database :=
  match outcome with
  | .delivered messageId =>
    -- A send under way stays a delivery to the old channel even after another one is set.
    updateRow database item.revision fun row =>
      { row with
        state := .delivered
        deliveredChannelId := some (toString item.channelId)
        deliveredMessageId := some (toString messageId)
        lastFailure := none }
  | .retry reason providerDelay =>
    if applicable database item then
      let attempts := saturatingAdd item.attempts 1
      updateRow database item.revision fun row => row.deferred attempts (retryAt completedAt attempts providerDelay) reason
    else database
  | .pause reason =>
    if applicable database item then
      let paused := { database with settings := database.settings.map fun row => { row with pauseReason := some reason } }
      updateRow paused item.revision fun row => row.deferred (saturatingAdd item.attempts 1) completedAt reason
    else database

/-- Where the worker stands with the row of a guild, between two of its awaits. -/
inductive WorkerPhase where
  | idle
  | due (item : PendingAnnouncement)
  | eligible (item : PendingAnnouncement)
  | sent (item : PendingAnnouncement) (outcome : AttemptOutcome)

/-- The rows of a guild, the one worker over them, and the revisions it sent. -/
structure Announcer where
  database : Database := {}
  phase : WorkerPhase := .idle
  sent : List EventRevision := []

inductive AnnouncerAction where
  | execute (delivery : Delivery)
  | configure (configuration : Configuration)
  | discover (now : Int64)
  | check
  | send (outcome : AttemptOutcome)
  | finish (completedAt : Int64)
  | abandon

def Announcer.discover (announcer : Announcer) (now : Int64) : Announcer :=
  match announcer.phase, nextDue announcer.database now with
  | .idle, .ok (some item) => { announcer with phase := .due item }
  | _, _ => announcer

def Announcer.check (announcer : Announcer) : Announcer :=
  match announcer.phase with
  | .due item => { announcer with phase := if stillEligible announcer.database item then .eligible item else .idle }
  | _ => announcer

def Announcer.send (announcer : Announcer) (outcome : AttemptOutcome) : Announcer :=
  match announcer.phase with
  | .eligible item => { announcer with phase := .sent item outcome, sent := announcer.sent ++ [item.revision] }
  | _ => announcer

def Announcer.finish (announcer : Announcer) (completedAt : Int64) : Announcer :=
  match announcer.phase with
  | .sent item outcome =>
    { announcer with
      database := finishAttempt announcer.database item outcome completedAt
      phase := .idle }
  | _ => announcer

/-- A batch is awaited before the next one is discovered; any query can fail and the worker can be restarted
at any await, which abandons the attempt. -/
def Announcer.step [Lowercase] (store : Store) (guild : GuildId) (announcer : Announcer) : AnnouncerAction → Announcer
  | .execute delivery =>
    if validKey guild delivery.key delivery.actor then
      match transact store guild delivery announcer.database with
      | .error _ => announcer
      | .ok committed => { announcer with database := committed.database }
    else announcer
  | .configure configuration =>
    match configureAnnouncements store guild configuration announcer.database with
    | .error _ => announcer
    | .ok committed => { announcer with database := committed.database }
  | .discover now => announcer.discover now
  | .check => announcer.check
  | .send outcome => announcer.send outcome
  | .finish completedAt => announcer.finish completedAt
  | .abandon => { announcer with phase := .idle }

def Announcer.run [Lowercase] (store : Store) (guild : GuildId) (announcer : Announcer)
    (actions : List AnnouncerAction) : Announcer :=
  actions.foldl (Announcer.step store guild) announcer

end PredictionBot

import BazelRepo.PredictionBot.Events
import BazelRepo.PredictionBot.Decide

namespace PredictionBot

open Library (BTreeMap Lowercase Uuid okOr isControl)

inductive StoreError where
  | membershipUnavailable
  | database (code : Option String)
  | domain (error : DomainError)
  | metadata (error : EventError)
  | history (message : String)
  | configuration (message : String)
  deriving DecidableEq

inductive Stage where
  | validate
  | acquire
  | replay
  | decide
  | append
  | commit
  | refresh
  deriving DecidableEq

structure TransactionFailure where
  stage : Stage
  error : StoreError
  deriving DecidableEq

def atStage {α : Type} (stage : Stage) (result : Except StoreError α) : Except TransactionFailure α :=
  result.mapError (TransactionFailure.mk stage)

structure Store where
  application : ApplicationId
  defaults : Policy

def Store.context (store : Store) (guild : GuildId) (revision : EventRevision) (key : String)
    (acceptedAt : Int64) : Context :=
  { application := store.application, guild, revision, command := key, acceptedAt }

structure EventRow where
  commandKey : String
  acceptedAt : Int64
  event : CloudEvent
  deriving DecidableEq

structure CommandRow where
  actorId : String
  acceptedAt : Int64
  response : String
  lastRevision : EventRevision
  deriving DecidableEq

structure SettingsRow where
  channelId : Option String
  enabled : Bool
  configurationVersion : Int64
  pauseReason : Option String
  deriving DecidableEq

inductive OutboxState where
  | pending
  | delivered
  | discarded
  deriving DecidableEq

structure OutboxRow where
  snapshot : SnapshotV1
  state : OutboxState
  attempts : Int64
  nextAttemptAt : Int64
  lastFailure : Option String := none
  deliveredChannelId : Option String := none
  deliveredMessageId : Option String := none
  deriving DecidableEq

structure Database where
  events : BTreeMap EventRevision EventRow := ∅
  commands : BTreeMap String CommandRow := ∅
  settings : Option SettingsRow := none
  outbox : BTreeMap EventRevision OutboxRow := ∅
  deriving DecidableEq

structure View where
  revision : EventRevision
  state : State
  deriving DecidableEq

def uniqueViolation : StoreError := .database (some "23505")

def checkViolation : StoreError := .database (some "23514")

/-- The constraints of the event table: its checks, its primary key and its unique identity. -/
def Database.insertEvent (database : Database) (guild : GuildId) (revision : EventRevision)
    (row : EventRow) : Except StoreError Database :=
  if revision.val ≤ 0 ∨ row.event.extension "guildid" ≠ some (.string (toString guild)) ∨
      row.event.extension "revision" ≠ some (.string (toString revision)) ∨
      row.event.extension "commandid" ≠ some (.string row.commandKey) then
    .error checkViolation
  else if database.events[revision]?.isSome ∨
      database.events.toList.any (fun stored => stored.2.event.identity == row.event.identity) then
    .error uniqueViolation
  else .ok { database with events := database.events.insert revision row }

def Database.insertCommand (database : Database) (key : String) (row : CommandRow) :
    Except StoreError Database :=
  if row.lastRevision.val < 0 then .error checkViolation
  else if database.commands[key]?.isSome then .error uniqueViolation
  else .ok { database with commands := database.commands.insert key row }

def Database.insertOutbox (database : Database) (revision : EventRevision) (row : OutboxRow) :
    Except StoreError Database :=
  if database.outbox[revision]?.isSome then .error uniqueViolation
  else .ok { database with outbox := database.outbox.insert revision row }

def receipt (database : Database) (key : String) (actor : UserId) : Except StoreError (Option String) :=
  match database.commands[key]? with
  | none => .ok none
  | some row =>
    if row.actorId ≠ toString actor then .error (.history "command actor mismatch")
    else .ok (some row.response)

def eventActor : Event → Option UserId
  | .guildEconomyInitialized .. => none
  | .memberEnrolled userId _ => some userId
  | .betPlaced _ userId .. => some userId
  | .pointsGranted userId .initial .. => some userId
  | .pointsGranted _ .periodic .. => some ⟨0⟩
  | .marketCreated _ creator .. => some creator
  | .marketResolved _ _ resolver .. => some resolver
  | .marketResolverAdded _ _ addedBy _ => some addedBy
  | .marketResolverRemoved _ _ removedBy _ => some removedBy
  | .announcementsEnabled _ moderator _ => some moderator
  | .marketCancelled _ moderator .. => some moderator

def validateEventActor (event : Event) (actor : UserId) : Except StoreError Unit :=
  match eventActor event with
  | none => if actor.val ≠ 0 then .ok () else .error (.history "system cannot enroll")
  | some expected =>
    if actor ≠ expected then .error (.history "receipt actor disagrees with event") else .ok ()

def eventTimeMatches (event : Event) (acceptedAt : Int64) : Bool :=
  match event with
  | .announcementsEnabled _ _ enabledAt => enabledAt == acceptedAt
  | .guildEconomyInitialized .. => true
  | .memberEnrolled _ enrolledAt => enrolledAt == acceptedAt
  | .pointsGranted _ _ _ _ throughDue _ => throughDue ≤ acceptedAt
  | .marketCreated _ _ _ _ createdAt _ => createdAt == acceptedAt
  | .betPlaced _ _ _ _ time => time == acceptedAt
  | .marketResolved _ _ _ settledAt _ _ => settledAt == acceptedAt
  | .marketResolverAdded _ _ _ addedAt => addedAt == acceptedAt
  | .marketResolverRemoved _ _ _ removedAt => removedAt == acceptedAt
  | .marketCancelled _ _ cancelledAt _ => cancelledAt == acceptedAt

def validateEventTime (event : Event) (acceptedAt : Int64) : Except StoreError Unit :=
  if eventTimeMatches event acceptedAt then .ok ()
  else .error (.history "payload timestamp disagrees with metadata")

def enqueue (database : Database) (revision : EventRevision) (event : Event) (state : State)
    (previousOdds : List OutcomeOdds) : Except StoreError Database :=
  if database.settings.map SettingsRow.enabled ≠ some true then .ok database
  else do
    let snapshot ← (eventSnapshot event state previousOdds).mapError StoreError.history
    match snapshot with
    | none => .ok database
    | some (snapshot, occurredAt) =>
      database.insertOutbox revision { snapshot, state := .pending, attempts := 0, nextAttemptAt := occurredAt }

/-- The event table joined with the receipts of its commands, in revision order. -/
def Database.rows (database : Database) : List (EventRevision × EventRow × Option CommandRow) :=
  database.events.toList.map fun (revision, row) => (revision, row, database.commands[row.commandKey]?)

/-- What the loader has read so far. -/
structure Reader where
  revision : EventRevision := ⟨0⟩
  identities : List (String × Uuid) := []
  events : List Event := []
  enrollment : Option (UserId × String × Int64) := none
  commandEnd : Option (String × EventRevision) := none
  completedCommands : List String := []

/-- A new command starts only where the one before it ended, and never starts again. -/
def Reader.boundary (reader : Reader) (key : String) (lastRevision : EventRevision) :
    Except StoreError (List String) :=
  match reader.commandEnd with
  | none => .ok reader.completedCommands
  | some (priorKey, priorEnd) =>
    if priorKey ≠ key then
      if priorEnd ≠ reader.revision ∨ priorKey ∈ reader.completedCommands ∨
          key ∈ priorKey :: reader.completedCommands then
        .error (.history "non-contiguous command events")
      else .ok (priorKey :: reader.completedCommands)
    else if priorEnd ≠ lastRevision then .error (.history "inconsistent command boundary")
    else .ok reader.completedCommands

def isInitialGrant : Event → Option UserId
  | .pointsGranted userId .initial .. => some userId
  | _ => none

/-- An enrollment is followed at once by its initial grant, and by nothing else. -/
def Reader.checkEnrollment (reader : Reader) (event : Event) (key : String) (acceptedAt : Int64) :
    Except StoreError Unit :=
  match reader.enrollment with
  | some (user, command, timestamp) =>
    if isInitialGrant event ≠ some user ∨ key ≠ command ∨ acceptedAt ≠ timestamp then
      .error (.history "enrollment is missing its initial grant")
    else .ok ()
  | none =>
    if (isInitialGrant event).isSome then .error (.history "initial grant has no enrollment") else .ok ()

def pendingEnrollment (event : Event) (key : String) (acceptedAt : Int64) :
    Option (UserId × String × Int64) :=
  match event with
  | .memberEnrolled userId _ => some (userId, key, acceptedAt)
  | _ => none

def Reader.read (store : Store) (guild : GuildId) (reader : Reader)
    (row : EventRevision × EventRow × Option CommandRow) : Except StoreError Reader :=
  let (revision, stored, command) := row
  if some revision ≠ reader.revision.next then .error (.history "non-contiguous event revisions")
  else do
    let command ← okOr command (.database none)
    let actor ← okOr (Library.parseU64 command.actorId) (.history "invalid receipt actor")
    if command.actorId ≠ toString actor ∨ stored.acceptedAt ≠ command.acceptedAt ∨
        command.lastRevision.val < revision.val then
      .error (.history "receipt disagrees with event metadata")
    else
      let completed ← reader.boundary stored.commandKey command.lastRevision
      let event ← stored.event.payload.mapError StoreError.metadata
      (stored.event.validate (store.context guild revision stored.commandKey stored.acceptedAt) event.name
        event.subject).mapError StoreError.metadata
      if stored.event.identity ∈ reader.identities then .error (.history "duplicate event identity")
      else
        validateEventTime event stored.acceptedAt
        validateEventActor event ⟨actor⟩
        reader.checkEnrollment event stored.commandKey stored.acceptedAt
        .ok
          { revision
            identities := stored.event.identity :: reader.identities
            events := reader.events ++ [event]
            enrollment := pendingEnrollment event stored.commandKey stored.acceptedAt
            commandEnd := some (stored.commandKey, command.lastRevision)
            completedCommands := completed }

def Reader.finish [Lowercase] (reader : Reader) : Except StoreError View :=
  if reader.enrollment.isSome then .error (.history "incomplete enrollment")
  else if reader.commandEnd.any (fun boundary => boundary.2 ≠ reader.revision) then
    .error (.history "incomplete command history")
  else do
    let state ← (replay reader.events).mapError StoreError.domain
    .ok ⟨reader.revision, state⟩

def load [Lowercase] (store : Store) (guild : GuildId) (database : Database) : Except StoreError View := do
  let reader ← database.rows.foldlM (Reader.read store guild) {}
  reader.finish

/-- One delivery of a command, with what the world supplies while its transaction runs. -/
structure Delivery where
  key : String
  actor : Actor
  command : Command
  acceptedAt : Int64
  membership : Option MembershipEvidence
  verificationError : Option StoreError
  ids : Nat → Uuid

def decideCommand [Lowercase] (store : Store) (state : State) (delivery : Delivery) :
    Except TransactionFailure Decision :=
  match decideWithMembership state delivery.actor delivery.command delivery.acceptedAt store.defaults
      delivery.membership with
  | .error .membershipRequired => .error ⟨.validate, .membershipUnavailable⟩
  | .error error => .error ⟨.decide, .domain error⟩
  | .ok decision => .ok decision

/-- The transaction so far: the projection it advances, its rows, and how many events it wrote. -/
structure Work where
  view : View
  database : Database
  appended : Nat

def previousOdds (state : State) : Event → List OutcomeOdds
  | .betPlaced id .. => (state.markets[id]?.map OutcomeOdds.forMarket).getD []
  | _ => []

/-- The envelope of an event; the encoder and the envelope's own checks may refuse it. -/
def envelope (store : Store) (guild : GuildId) (key : String) (acceptedAt : Int64) (id : Uuid)
    (revision : EventRevision) (event : Event) : Except StoreError CloudEvent :=
  if ¬ event.serializable then .error (.history "event cannot be serialized")
  else
    (CloudEvent.new id (store.context guild revision key acceptedAt) event.name event.subject event).mapError
      StoreError.metadata

def appendEvent [Lowercase] (store : Store) (guild : GuildId) (delivery : Delivery) (work : Work)
    (event : Event) : Except StoreError Work := do
  validateEventActor event delivery.actor.userId
  validateEventTime event delivery.acceptedAt
  let revision ← okOr work.view.revision.next (.history "revision overflow")
  let cloud ← envelope store guild delivery.key delivery.acceptedAt (delivery.ids work.appended) revision event
  let state ← (apply work.view.state event).mapError StoreError.domain
  let inserted ← work.database.insertEvent guild revision ⟨delivery.key, delivery.acceptedAt, cloud⟩
  let database ← enqueue inserted revision event state (previousOdds work.view.state event)
  .ok ⟨⟨revision, state⟩, database, work.appended + 1⟩

def isGrant : Command → Bool
  | .grant _ => true
  | _ => false

/-- A transaction that committed: its response, whether it wrote its receipt and which events with it,
and the view it publishes. A receipt found in the transaction publishes by a later read instead. -/
structure Committed where
  response : String
  recorded : Bool
  events : List Event
  published : Option View
  database : Database

def transact [Lowercase] (store : Store) (guild : GuildId) (delivery : Delivery) (database : Database) :
    Except TransactionFailure Committed := do
  let found ← atStage .replay (receipt database delivery.key delivery.actor.userId)
  match found with
  | some response => .ok ⟨response, false, [], none, database⟩
  | none =>
    match delivery.verificationError with
    | some error => .error ⟨.validate, error⟩
    | none => do
      let view ← atStage .replay (load store guild database)
      let decision ← decideCommand store view.state delivery
      -- A clock rollback can make a discovered grant premature; its key stays retryable.
      if isGrant delivery.command ∧ decision.events = [] then
        .ok ⟨decision.response, false, [], some view, database⟩
      else
        let work ← atStage .append
          (decision.events.foldlM (appendEvent store guild delivery) ⟨view, database, 0⟩)
        let database ← atStage .append (work.database.insertCommand delivery.key
          ⟨toString delivery.actor.userId, delivery.acceptedAt, decision.response, work.view.revision⟩)
        .ok ⟨decision.response, true, decision.events, some work.view, database⟩

def validKey (guild : GuildId) (key : String) (actor : Actor) : Bool :=
  let system := "grant:".toList.isPrefixOf key.toList
  guild.val != 0 && !key.isEmpty && key.utf8ByteSize ≤ 200 && !key.toList.any isControl &&
    hasCommandPrefix key && !endsWithColon key && (actor.userId.val == 0) == system

inductive ConfigurationChange where
  | set (channelId : ChannelId)
  | disable
  deriving DecidableEq

structure Configuration where
  key : String
  actor : Actor
  change : ConfigurationChange
  acceptedAt : Int64
  id : Uuid

def validateAdministrator (guild : GuildId) (actor : Actor) : Except StoreError Unit :=
  if guild.val = 0 ∨ actor.userId.val = 0 ∨ actor.moderator = false ∨ actor.bot then
    .error (.configuration "announcement configuration requires a guild administrator")
  else .ok ()

def validateKey (key : String) : Except StoreError Unit :=
  if key.isEmpty ∨ 200 < key.utf8ByteSize ∨ key.toList.any isControl ∨
      ¬ "discord:".toList.isPrefixOf key.toList ∨ endsWithColon key then
    .error (.configuration "invalid guild or command key")
  else .ok ()

def validateConfigurationRequest (guild : GuildId) (configuration : Configuration) :
    Except StoreError Unit := do
  validateAdministrator guild configuration.actor
  validateKey configuration.key
  if configuration.change = .set ⟨0⟩ then .error (.configuration "invalid announcement channel")
  else .ok ()

/-- A destination is welcomed unless announcements already go there. -/
def welcomeChannel (database : Database) : ConfigurationChange → Option ChannelId
  | .set channelId =>
    if database.settings.any (fun row => row.enabled && row.channelId == some (toString channelId)) then none
    else some channelId
  | .disable => none

def updatePending (update : OutboxRow → OutboxRow) (outbox : BTreeMap EventRevision OutboxRow) :
    BTreeMap EventRevision OutboxRow :=
  outbox.map fun _ row => if row.state = .pending then update row else row

def discardWelcome (row : OutboxRow) : OutboxRow :=
  match row.snapshot with
  | .enabled _ => { row with state := .discarded }
  | _ => row

def changeSettings (database : Database) (change : ConfigurationChange) (version acceptedAt : Int64) :
    Database × String :=
  match change with
  | .set channelId =>
    ({ database with
        settings := some ⟨some (toString channelId), true, version, none⟩
        outbox := updatePending (fun row => { row with attempts := 0, nextAttemptAt := acceptedAt, lastFailure := none })
          database.outbox },
      s!"Announcements enabled for <#{channelId}>.")
  | .disable =>
    ({ database with
        settings := some ⟨database.settings.bind SettingsRow.channelId, false, version, none⟩
        outbox := updatePending (fun row => { row with state := .discarded }) database.outbox },
      "Announcements disabled.")

def maxRevision (events : BTreeMap EventRevision EventRow) : EventRevision :=
  (events.toList.getLast?.map Prod.fst).getD ⟨0⟩

/-- The welcome of a new destination is an event of its own; nothing else of a configuration is. -/
def appendWelcome (store : Store) (guild : GuildId) (configuration : Configuration) (channelId : ChannelId)
    (database : Database) (revision : EventRevision) : Except StoreError (Database × EventRevision) := do
  let next ← okOr revision.next (.history "revision overflow")
  let event : Event :=
    .announcementsEnabled channelId configuration.actor.userId configuration.acceptedAt
  let cloud ← envelope store guild configuration.key configuration.acceptedAt configuration.id next event
  let cleared := { database with outbox := updatePending discardWelcome database.outbox }
  let inserted ← cleared.insertEvent guild next ⟨configuration.key, configuration.acceptedAt, cloud⟩
  let queued ← enqueue inserted next event {} []
  .ok (queued, next)

def appendWelcomed (store : Store) (guild : GuildId) (configuration : Configuration)
    (welcome : Option ChannelId) (database : Database) : Except StoreError (Database × EventRevision) :=
  match welcome with
  | some channelId => appendWelcome store guild configuration channelId database (maxRevision database.events)
  | none => .ok (database, maxRevision database.events)

def welcomeEvents (configuration : Configuration) : Option ChannelId → List Event
  | some channelId =>
    [.announcementsEnabled channelId configuration.actor.userId configuration.acceptedAt]
  | none => []

def configureAnnouncements (store : Store) (guild : GuildId) (configuration : Configuration)
    (database : Database) : Except StoreError Committed := do
  validateConfigurationRequest guild configuration
  let found ← receipt database configuration.key configuration.actor.userId
  match found with
  | some response => .ok ⟨response, false, [], none, database⟩
  | none => do
    let version ← okOr
      (Library.checkedAdd ((database.settings.map SettingsRow.configurationVersion).getD 0) 1)
      (.history "configuration version overflow")
    let changed := changeSettings database configuration.change version configuration.acceptedAt
    let welcome := welcomeChannel database configuration.change
    let appended ← appendWelcomed store guild configuration welcome changed.1
    let committed ← appended.1.insertCommand configuration.key
      ⟨toString configuration.actor.userId, configuration.acceptedAt, changed.2, appended.2⟩
    .ok ⟨changed.2, true, welcomeEvents configuration welcome, none, committed⟩

end PredictionBot

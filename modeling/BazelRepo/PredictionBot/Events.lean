import BazelRepo.Library.Json
import BazelRepo.PredictionBot.Domain

namespace PredictionBot

open Library (ExtensionValue Timestamp Uuid fromTimestamp isControl okOr)

structure ApplicationId where
  val : UInt64
  deriving DecidableEq

instance : ToString ApplicationId := ⟨fun application => toString application.val⟩

instance : ToString GuildId := ⟨fun guild => toString guild.val⟩

instance : ToString ChannelId := ⟨fun channel => toString channel.val⟩

instance : ToString EventRevision := ⟨fun revision => toString revision.val⟩

inductive SpecVersion where
  | v03
  | v10
  deriving DecidableEq

/-- The persisted envelope. Its payload is the domain event the JSON object encodes. -/
structure CloudEvent where
  id : Uuid
  source : String
  specversion : SpecVersion
  ty : String
  subject : Option String
  time : Option Timestamp
  datacontenttype : Option String
  dataschema : Option String
  data : Option Event
  extensions : List (String × ExtensionValue)
  deriving DecidableEq

structure Context where
  application : ApplicationId
  guild : GuildId
  revision : EventRevision
  command : String
  acceptedAt : Int64

structure EventError where
  message : String
  deriving DecidableEq

def Event.name : Event → String
  | .announcementsEnabled .. => "announcements.enabled"
  | .guildEconomyInitialized .. => "economy.initialized"
  | .memberEnrolled .. => "member.enrolled"
  | .pointsGranted .. => "points.granted"
  | .marketCreated .. => "market.created"
  | .betPlaced .. => "bet.placed"
  | .marketResolved .. => "market.resolved"
  | .marketResolverAdded .. => "market.resolver.added"
  | .marketResolverRemoved .. => "market.resolver.removed"
  | .marketCancelled .. => "market.cancelled"

def Event.subject : Event → String
  | .announcementsEnabled .. => "announcements"
  | .guildEconomyInitialized .. => "economy"
  | .memberEnrolled userId .. | .pointsGranted userId .. => s!"members/{userId}"
  | .marketCreated id .. | .betPlaced id .. | .marketResolved id .. | .marketResolverAdded id ..
  | .marketResolverRemoved id .. | .marketCancelled id .. => s!"markets/{id}"

def streamSource (application : ApplicationId) (guild : GuildId) : String :=
  s!"urn:lowkeylab:prediction-bot:discord:{application}:guild:{guild}"

def eventType (name : String) : String := s!"io.lowkeylab.predictionbot.{name}.v1"

def schemaOf (name : String) : String :=
  let dashed := name.map fun c => if c = '.' then '-' else c
  s!"urn:lowkeylab:prediction-bot:schema:{dashed}:v1"

def CloudEvent.extension (event : CloudEvent) (key : String) : Option ExtensionValue :=
  event.extensions.lookup key

def CloudEvent.identity (event : CloudEvent) : String × Uuid := (event.source, event.id)

def CloudEvent.payload (event : CloudEvent) : Except EventError Event :=
  okOr event.data ⟨"unsupported encoding"⟩

def validExtension (entry : String × ExtensionValue) : Bool :=
  !entry.1.isEmpty &&
    entry.1.toList.all (fun c => (0x61 ≤ c.toNat && c.toNat ≤ 0x7A) || Library.isAsciiDigit c) &&
    entry.1 != "eventindex" &&
    match entry.2 with
    | .boolean _ => true
    | .string value => !value.toList.any isControl
    | .integer value => -2^31 ≤ value.toInt && value.toInt < 2^31

def hasCommandPrefix (command : String) : Bool :=
  "discord:".toList.isPrefixOf command.toList || "grant:".toList.isPrefixOf command.toList

def endsWithColon (command : String) : Bool := command.toList.getLast? == some ':'

def CloudEvent.validate (event : CloudEvent) (ctx : Context) (name subject : String) :
    Except EventError Unit := do
  let time ← okOr event.time ⟨"invalid timestamp"⟩
  if ¬ time.inRfc3339Years then .error ⟨"timestamp out of RFC 3339 range"⟩
  else if event.id.versionNum ≠ 7 ∨ ¬ event.id.isRfc4122 then .error ⟨"event ID must be UUID v7"⟩
  else if event.specversion ≠ .v10 ∨ event.datacontenttype ≠ some "application/json" then
    .error ⟨"unsupported encoding"⟩
  else
    let _ ← event.payload
    if ctx.guild.val = 0 ∨ ctx.application.val = 0 ∨ ctx.revision.val < 1 ∨
        event.source ≠ streamSource ctx.application ctx.guild ∨
        event.extension "guildid" ≠ some (.string (toString ctx.guild)) ∨
        event.extension "revision" ≠ some (.string (toString ctx.revision)) ∨
        ¬ hasCommandPrefix ctx.command ∨ ctx.command.toList.any isControl ∨ endsWithColon ctx.command ∨
        event.extension "commandid" ≠ some (.string ctx.command) ∨
        time.seconds ≠ ctx.acceptedAt ∨ time.subsecNanos ≠ 0 then
      .error ⟨"event does not match stream context"⟩
    else if event.ty ≠ eventType name ∨ event.dataschema ≠ some (schemaOf name) ∨
        event.subject ≠ some subject then
      .error ⟨"unsupported event type, schema, or subject"⟩
    else if ¬ event.extensions.all validExtension then .error ⟨"invalid extension attribute"⟩
    else .ok ()

/-- A new envelope under a fresh identity, checked before it is returned. -/
def CloudEvent.new (id : Uuid) (ctx : Context) (name subject : String) (data : Event) :
    Except EventError CloudEvent := do
  let time ← okOr (fromTimestamp ctx.acceptedAt) ⟨"timestamp out of range"⟩
  let event : CloudEvent :=
    { id
      source := streamSource ctx.application ctx.guild
      specversion := .v10
      ty := eventType name
      subject := some subject
      time := some time
      datacontenttype := some "application/json"
      dataschema := some (schemaOf name)
      data := some data
      extensions := [("guildid", .string (toString ctx.guild)), ("commandid", .string ctx.command),
        ("revision", .string (toString ctx.revision))] }
  event.validate ctx name subject
  .ok event

def positiveSnowflake (user : UserId) : Bool := user.val != 0

def positiveAllocations (entries : List Allocation) : Bool :=
  entries.all fun entry => positiveSnowflake entry.userId

/-- The encoder refuses a zero identity in every field that must be a member or channel. -/
def Event.serializable : Event → Bool
  | .announcementsEnabled channelId moderator _ => channelId.val != 0 && positiveSnowflake moderator
  | .guildEconomyInitialized .. => true
  | .memberEnrolled userId _ => positiveSnowflake userId
  | .pointsGranted userId .. => positiveSnowflake userId
  | .marketCreated _ creator .. => positiveSnowflake creator
  | .betPlaced _ userId .. => positiveSnowflake userId
  | .marketResolved _ _ resolver _ payouts _ => positiveSnowflake resolver && positiveAllocations payouts
  | .marketResolverAdded _ userId addedBy _ => positiveSnowflake userId && positiveSnowflake addedBy
  | .marketResolverRemoved _ userId removedBy _ => positiveSnowflake userId && positiveSnowflake removedBy
  | .marketCancelled _ moderator _ refunds => positiveSnowflake moderator && positiveAllocations refunds

inductive Movement where
  | up
  | down
  deriving DecidableEq

structure OutcomeOdds where
  label : String
  tenthsPercent : Option Nat
  movement : Option Movement
  unchanged : Bool
  deriving DecidableEq

def stakedOn (market : Market) (index : Nat) : Int :=
  ((market.bets.filter (fun bet => bet.outcome.val = index)).map (fun bet => bet.amount.val.toInt)).sum

def OutcomeOdds.forMarket (market : Market) : List OutcomeOdds :=
  let total := market.totalStaked.val.toInt
  market.options.zipIdx.map fun (label, index) =>
    { label
      tenthsPercent :=
        if 0 < total then some ((stakedOn market index * 1000 + total.tdiv 2).tdiv total).toNat else none
      movement := none
      unchanged := false }

/-- Compare displayed percentages for the same outcome before and after a bet. -/
def OutcomeOdds.withPrevious (odds previous : OutcomeOdds) : OutcomeOdds :=
  { odds with
    unchanged := previous.tenthsPercent.isSome && previous.tenthsPercent == odds.tenthsPercent
    movement := match previous.tenthsPercent, odds.tenthsPercent with
      | some before, some after =>
        if before < after then some .up else if after < before then some .down else none
      | _, _ => none }

structure StakeSummary where
  total : Points
  outcomes : List Points
  deriving DecidableEq

def StakeSummary.forMarket (market : Market) : StakeSummary :=
  { total := market.totalStaked
    outcomes := market.options.zipIdx.map fun (_, index) =>
      ⟨((market.bets.filter (fun bet => bet.outcome.val = index)).map (fun bet => bet.amount.val)).sum⟩ }

inductive SnapshotV1 where
  | enabled (occurredAt : Int64)
  | memberEnrolled (userId : UserId) (occurredAt : Int64)
  | betPlaced (stakes : Option StakeSummary) (id : MarketId) (question : String) (betCount : Nat)
      (odds : List OutcomeOdds) (occurredAt : Int64)
  | created (stakes : Option StakeSummary) (id : MarketId) (question : String) (creator : UserId)
      (options : List String) (closesAt occurredAt : Int64)
  | resolved (stakes : Option StakeSummary) (id : MarketId) (question winner : String) (refunded : Bool)
      (odds : List OutcomeOdds) (occurredAt : Int64)
  | cancelled (stakes : Option StakeSummary) (id : MarketId) (question : String) (odds : List OutcomeOdds)
      (occurredAt : Int64)
  deriving DecidableEq

def withPreviousOdds (previous : List OutcomeOdds) (current : List OutcomeOdds) : List OutcomeOdds :=
  current.zipIdx.map fun (odds, index) =>
    match previous[index]? with
    | some before => odds.withPrevious before
    | none => odds

/-- The announcement of an event against the state it left, absent for events nobody announces. -/
def eventSnapshot (event : Event) (state : State) (previousOdds : List OutcomeOdds) :
    Except String (Option (SnapshotV1 × Int64)) :=
  let disagrees : String := "announcement event disagrees with applied state"
  match event with
  | .announcementsEnabled _ _ enabledAt => .ok (some (.enabled enabledAt, enabledAt))
  | .memberEnrolled userId enrolledAt => .ok (some (.memberEnrolled userId enrolledAt, enrolledAt))
  | .betPlaced id _ _ _ acceptedAt => do
    let market ← Library.okOr state.markets[id]? disagrees
    .ok (some (.betPlaced (some (.forMarket market)) id market.question market.bets.length
      (withPreviousOdds previousOdds (OutcomeOdds.forMarket market)) acceptedAt, acceptedAt))
  | .marketCreated id creator question options createdAt closesAt => do
    let market ← Library.okOr state.markets[id]? disagrees
    .ok (some (.created (some (.forMarket market)) id question creator options closesAt createdAt, createdAt))
  | .marketResolved id outcome _ settledAt _ refunded => do
    let market ← Library.okOr state.markets[id]? disagrees
    let winner ← Library.okOr market.options[outcome.val]? disagrees
    .ok (some (.resolved (some (.forMarket market)) id market.question winner refunded
      (OutcomeOdds.forMarket market) settledAt, settledAt))
  | .marketCancelled id _ cancelledAt _ => do
    let market ← Library.okOr state.markets[id]? disagrees
    .ok (some (.cancelled (some (.forMarket market)) id market.question (OutcomeOdds.forMarket market)
      cancelledAt, cancelledAt))
  | _ => .ok none

end PredictionBot

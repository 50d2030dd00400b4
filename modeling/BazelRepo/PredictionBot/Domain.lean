import BazelRepo.Library.Checked
import BazelRepo.Library.Text
import BazelRepo.Library.TreeMap
import Mathlib.Data.Finset.Erase
import Mathlib.Data.Finset.Insert

namespace PredictionBot

open Library (BTreeMap Lowercase okOr)

/-- Wrappers distinguish identities and units; commands and events check the values. -/
structure UserId where
  val : UInt64
  deriving DecidableEq

structure GuildId where
  val : UInt64
  deriving DecidableEq

structure ChannelId where
  val : UInt64
  deriving DecidableEq

structure Points where
  val : Int64
  deriving DecidableEq

structure OutcomeIndex where
  val : Nat
  deriving DecidableEq

structure EventRevision where
  val : Int64
  deriving DecidableEq

structure MarketId where
  val : String
  deriving DecidableEq

def EventRevision.next (revision : EventRevision) : Option EventRevision :=
  (Library.checkedAdd revision.val 1).map EventRevision.mk

instance : Ord UserId := ⟨compareOn UserId.val⟩

instance : Std.TransOrd UserId := inferInstanceAs (Std.TransCmp (compareOn UserId.val))

instance : Std.LawfulEqOrd UserId :=
  Library.lawfulEqCmp_compareOn fun a b same => by
    cases a
    cases b
    exact congrArg UserId.mk same

instance : Ord MarketId := ⟨compareOn MarketId.val⟩

instance : Std.TransOrd MarketId := inferInstanceAs (Std.TransCmp (compareOn MarketId.val))

instance : Std.LawfulEqOrd MarketId :=
  Library.lawfulEqCmp_compareOn fun a b same => by
    cases a
    cases b
    exact congrArg MarketId.mk same

instance : Ord EventRevision := ⟨compareOn EventRevision.val⟩

instance : Std.TransOrd EventRevision := inferInstanceAs (Std.TransCmp (compareOn EventRevision.val))

instance : Std.LawfulEqOrd EventRevision :=
  Library.lawfulEqCmp_compareOn fun a b same => by
    cases a
    cases b
    exact congrArg EventRevision.mk same

instance : ToString UserId := ⟨fun user => toString user.val⟩

instance : ToString Points := ⟨fun points => toString points.val⟩

instance : ToString MarketId := ⟨fun id => id.val⟩

structure Policy where
  amount : Points
  interval : Int64
  deriving DecidableEq

structure Account where
  balance : Points
  nextGrant : Int64
  deriving DecidableEq

inductive Status where
  | opened
  | resolved (outcome : OutcomeIndex) (refunded : Bool)
  | cancelled
  deriving DecidableEq

structure Bet where
  userId : UserId
  outcome : OutcomeIndex
  amount : Points
  deriving DecidableEq

structure Allocation where
  userId : UserId
  amount : Points
  deriving DecidableEq

structure Market where
  creator : UserId
  question : String
  options : List String
  closesAt : Int64
  createdAt : Int64
  status : Status
  bets : List Bet
  totalStaked : Points
  /-- Exact validated allocations recorded by the resolution event, including refunds. -/
  payouts : List Allocation
  resolvers : Finset UserId
  deriving DecidableEq

structure State where
  policy : Option Policy := none
  accounts : BTreeMap UserId Account := ∅
  markets : BTreeMap MarketId Market := ∅
  deriving DecidableEq

inductive GrantReason where
  | initial
  | periodic
  deriving DecidableEq

inductive Event where
  | announcementsEnabled (channelId : ChannelId) (moderator : UserId) (enabledAt : Int64)
  | guildEconomyInitialized (amount : Points) (interval : Int64)
  | memberEnrolled (userId : UserId) (enrolledAt : Int64)
  | pointsGranted (userId : UserId) (reason : GrantReason) (amount : Points)
      (fromDue throughDue nextGrant : Int64)
  | marketCreated (id : MarketId) (creator : UserId) (question : String) (options : List String)
      (createdAt closesAt : Int64)
  | betPlaced (id : MarketId) (userId : UserId) (outcome : OutcomeIndex) (amount : Points)
      (acceptedAt : Int64)
  | marketResolved (id : MarketId) (outcome : OutcomeIndex) (resolver : UserId) (settledAt : Int64)
      (payouts : List Allocation) (refunded : Bool)
  | marketResolverAdded (id : MarketId) (userId addedBy : UserId) (addedAt : Int64)
  | marketResolverRemoved (id : MarketId) (userId removedBy : UserId) (removedAt : Int64)
  | marketCancelled (id : MarketId) (moderator : UserId) (cancelledAt : Int64)
      (refunds : List Allocation)
  deriving DecidableEq

inductive DomainError where
  | membershipRequired
  | invalid (message : String)
  | overflow
  deriving DecidableEq

def positivePolicy (policy : Policy) : Except DomainError Unit :=
  if policy.amount.val ≤ 0 ∨ policy.interval ≤ 0 then
    .error (.invalid "grant policy must be positive")
  else .ok ()

def checkedAdd (a b : Int64) : Except DomainError Int64 :=
  okOr (Library.checkedAdd a b) .overflow

def checkedPointsAdd (a b : Points) : Except DomainError Points :=
  (checkedAdd a.val b.val).map Points.mk

def checkedMul (a b : Int64) : Except DomainError Int64 :=
  okOr (Library.checkedMul a b) .overflow

/-- The bytes this check accepts are ASCII, so it reads the characters. -/
def validMarketId (id : MarketId) : Bool :=
  let characters := id.val.toList
  characters.length == 36 && characters.zipIdx.all fun (character, index) =>
    if [8, 13, 18, 23].contains index then character == '-' else Library.isAsciiHexdigit character

def validOptions [Lowercase] : List String → List String → Except DomainError Unit
  | _, [] => .ok ()
  | unique, option :: rest =>
    let folded := Lowercase.toLowercase (Library.trim option)
    if (Library.trim option).isEmpty ∨ 80 < option.length ∨ folded ∈ unique then
      .error (.invalid "invalid or duplicate outcome")
    else validOptions (folded :: unique) rest

def validMarket [Lowercase] (question : String) (options : List String) : Except DomainError Unit :=
  if (Library.trim question).isEmpty ∨ 200 < question.length then
    .error (.invalid "invalid market question")
  else if ¬ (2 ≤ options.length ∧ options.length ≤ 10) then
    .error (.invalid "market needs two to ten outcomes")
  else validOptions [] options

def pool (market : Market) : Except DomainError Points :=
  if market.totalStaked.val < 0 then .error (.invalid "negative market pool")
  else .ok market.totalStaked

def addStake (outcome : Option OutcomeIndex) (totals : BTreeMap UserId Points) (bet : Bet) :
    Except DomainError (BTreeMap UserId Points) :=
  if outcome = none ∨ outcome = some bet.outcome then do
    let sum ← checkedPointsAdd (totals[bet.userId]?.getD ⟨0⟩) bet.amount
    .ok (totals.insert bet.userId sum)
  else .ok totals

def stakes (market : Market) (outcome : Option OutcomeIndex) :
    Except DomainError (BTreeMap UserId Points) :=
  market.bets.foldlM (addStake outcome) ∅

def recordAllocation (accounts : BTreeMap UserId Account) (recorded : BTreeMap UserId Points)
    (allocation : Allocation) : Except DomainError (BTreeMap UserId Points) :=
  if allocation.amount.val ≤ 0 ∨ ¬ accounts.contains allocation.userId ∨
      recorded[allocation.userId]?.isSome then
    .error (.invalid "invalid allocation")
  else .ok (recorded.insert allocation.userId allocation.amount)

def recordedAllocations (entries : List Allocation) (accounts : BTreeMap UserId Account) :
    Except DomainError (BTreeMap UserId Points) :=
  entries.foldlM (recordAllocation accounts) ∅

def creditAllocation (accounts : BTreeMap UserId Account) (allocation : Allocation) :
    Except DomainError (BTreeMap UserId Account) := do
  let account ← okOr accounts[allocation.userId]? (.invalid "unknown allocation member")
  let balance ← checkedPointsAdd account.balance allocation.amount
  .ok (accounts.insert allocation.userId { account with balance := balance })

def creditAllocations (accounts : BTreeMap UserId Account) (entries : List Allocation) :
    Except DomainError (BTreeMap UserId Account) :=
  entries.foldlM creditAllocation accounts

def validateAnnouncementActivation (channel : ChannelId) (moderator : UserId) :
    Except DomainError Unit :=
  if channel.val = 0 ∨ moderator.val = 0 then .error (.invalid "invalid announcement activation")
  else .ok ()

def applyGrant (state : State) (userId : UserId) (reason : GrantReason) (amount : Points)
    (fromDue throughDue nextGrant : Int64) : Except DomainError State := do
  let policy ← okOr state.policy (.invalid "economy not initialized")
  positivePolicy policy
  let account ← okOr state.accounts[userId]? (.invalid "grant to unknown member")
  if fromDue ≠ account.nextGrant ∨ throughDue < fromDue ∨ amount.val ≤ 0 then
    .error (.invalid "invalid grant schedule")
  else
    let distance := throughDue.toInt - fromDue.toInt
    if distance.tmod policy.interval.toInt ≠ 0 then
      .error (.invalid "grant boundaries are not aligned")
    else do
      let count ← okOr (Library.tryFrom (distance.tdiv policy.interval.toInt + 1)) .overflow
      -- The disjuncts below are evaluated left to right, so an overflow is met only past the first.
      if reason = .initial ∧ count ≠ 1 then .error (.invalid "grant facts disagree with policy")
      else
        let due ← checkedMul policy.amount.val count
        if amount ≠ ⟨due⟩ then .error (.invalid "grant facts disagree with policy")
        else
          let following ← checkedAdd throughDue policy.interval
          if nextGrant ≠ following then .error (.invalid "grant facts disagree with policy")
          else
            let balance ← checkedPointsAdd account.balance amount
            .ok { state with accounts := state.accounts.insert userId ⟨balance, nextGrant⟩ }

def sumRecorded (recorded : BTreeMap UserId Points) : Except DomainError Points :=
  recorded.toList.foldlM (fun total entry => checkedPointsAdd total entry.2) ⟨0⟩

/-- The recorded allocations of a resolution against the stakes of the market. -/
def checkResolution (market : Market) (outcome : OutcomeIndex) (recorded : BTreeMap UserId Points)
    (refunded : Bool) : Except DomainError Unit := do
  let winningStakes ← stakes market (some outcome)
  if refunded then
    if ¬ winningStakes.isEmpty then .error (.invalid "invalid no-winner refunds")
    else
      let all ← stakes market none
      if recorded ≠ all then .error (.invalid "invalid no-winner refunds") else .ok ()
  else if winningStakes.isEmpty ∨ recorded.size ≠ winningStakes.size ∨
      winningStakes.toList.any (fun (user, stake) =>
        recorded[user]?.all (fun amount => decide (amount.val < stake.val))) then
    .error (.invalid "invalid winning allocations")
  else
    let allocated ← sumRecorded recorded
    let staked ← pool market
    if allocated ≠ staked then .error (.invalid "allocations do not conserve the pool") else .ok ()

def applyResolution (state : State) (id : MarketId) (outcome : OutcomeIndex) (resolver : UserId)
    (settledAt : Int64) (payouts : List Allocation) (refunded : Bool) : Except DomainError State := do
  let market ← okOr state.markets[id]? (.invalid "unknown market")
  if market.status ≠ .opened ∨ market.options.length ≤ outcome.val ∨ settledAt < market.closesAt ∨
      resolver = ⟨0⟩ then
    .error (.invalid "invalid resolution transition")
  else
    let recorded ← recordedAllocations payouts state.accounts
    checkResolution market outcome recorded refunded
    let accounts ← creditAllocations state.accounts payouts
    .ok { state with
      accounts := accounts
      markets := state.markets.insert id
        { market with payouts := payouts, status := .resolved outcome refunded } }

def applyCancellation (state : State) (id : MarketId) (moderator : UserId)
    (refunds : List Allocation) : Except DomainError State := do
  let market ← okOr state.markets[id]? (.invalid "unknown market")
  if market.status ≠ .opened ∨ moderator = ⟨0⟩ then
    .error (.invalid "invalid cancellation transition")
  else
    let recorded ← recordedAllocations refunds state.accounts
    let all ← stakes market none
    if recorded ≠ all then .error (.invalid "invalid cancellation transition")
    else
      let accounts ← creditAllocations state.accounts refunds
      .ok { state with
        accounts := accounts
        markets := state.markets.insert id { market with status := .cancelled } }

def applyMarketCreation [Lowercase] (state : State) (id : MarketId) (creator : UserId)
    (question : String) (options : List String) (createdAt closesAt : Int64) :
    Except DomainError State :=
  if state.policy.isNone ∨ ¬ validMarketId id ∨ state.markets.contains id ∨
      ¬ state.accounts.contains creator ∨ closesAt ≤ createdAt then
    .error (.invalid "invalid market creation transition")
  else do
    validMarket question options
    .ok { state with
      markets := state.markets.insert id
        { creator, question, options, closesAt, createdAt, status := .opened, bets := [],
          totalStaked := ⟨0⟩, payouts := [], resolvers := ∅ } }

def Market.placeBet (market : Market) (bet : Bet) (nextPool : Points) : Market :=
  { market with totalStaked := nextPool, bets := market.bets ++ [bet] }

def applyBet (state : State) (id : MarketId) (userId : UserId) (outcome : OutcomeIndex)
    (amount : Points) (acceptedAt : Int64) : Except DomainError State := do
  let market ← okOr state.markets[id]? (.invalid "unknown market")
  if market.status ≠ .opened ∨ acceptedAt < market.createdAt ∨ market.closesAt ≤ acceptedAt ∨
      market.options.length ≤ outcome.val ∨ amount.val ≤ 0 then
    .error (.invalid "invalid bet transition")
  else
    let staked ← pool market
    let nextPool ← checkedPointsAdd staked amount
    let account ← okOr state.accounts[userId]? (.invalid "bet by unknown member")
    if account.balance.val < amount.val then .error (.invalid "insufficient points")
    else
      .ok { state with
        accounts := state.accounts.insert userId
          { account with balance := ⟨account.balance.val - amount.val⟩ }
        markets := state.markets.insert id (market.placeBet ⟨userId, outcome, amount⟩ nextPool) }

def applyInitialization (state : State) (policy : Policy) : Except DomainError State := do
  positivePolicy policy
  if state.policy.isSome ∨ ¬ state.accounts.isEmpty ∨ ¬ state.markets.isEmpty then
    .error (.invalid "economy already initialized")
  else .ok { state with policy := some policy }

def applyEnrollment (state : State) (userId : UserId) (enrolledAt : Int64) : Except DomainError State :=
  if state.policy.isNone ∨ userId = ⟨0⟩ ∨ state.accounts.contains userId then
    .error (.invalid "invalid enrollment transition")
  else .ok { state with accounts := state.accounts.insert userId ⟨⟨0⟩, enrolledAt⟩ }

def applyResolverAdded (state : State) (id : MarketId) (userId addedBy : UserId) (addedAt : Int64) :
    Except DomainError State := do
  let market ← okOr state.markets[id]? (.invalid "unknown market")
  if userId.val = 0 ∨ addedBy.val = 0 ∨ market.status ≠ .opened ∨ addedAt < market.createdAt ∨
      userId ∈ market.resolvers then
    .error (.invalid "invalid resolver assignment transition")
  else
    .ok { state with
      markets := state.markets.insert id { market with resolvers := insert userId market.resolvers } }

def applyResolverRemoved (state : State) (id : MarketId) (userId removedBy : UserId)
    (removedAt : Int64) : Except DomainError State := do
  let market ← okOr state.markets[id]? (.invalid "unknown market")
  if userId.val = 0 ∨ removedBy.val = 0 ∨ market.status ≠ .opened ∨ removedAt < market.createdAt ∨
      userId ∉ market.resolvers then
    .error (.invalid "invalid resolver removal transition")
  else
    .ok { state with
      markets := state.markets.insert id { market with resolvers := market.resolvers.erase userId } }

/-- The projection of one event; a failure leaves the caller's state as it was. -/
def applyInner [Lowercase] (state : State) : Event → Except DomainError State
  | .announcementsEnabled channelId moderator _ => do
    validateAnnouncementActivation channelId moderator
    .ok state
  | .guildEconomyInitialized amount interval => applyInitialization state ⟨amount, interval⟩
  | .memberEnrolled userId enrolledAt => applyEnrollment state userId enrolledAt
  | .pointsGranted userId reason amount fromDue throughDue nextGrant =>
    applyGrant state userId reason amount fromDue throughDue nextGrant
  | .marketCreated id creator question options createdAt closesAt =>
    applyMarketCreation state id creator question options createdAt closesAt
  | .betPlaced id userId outcome amount acceptedAt => applyBet state id userId outcome amount acceptedAt
  | .marketResolved id outcome resolver settledAt payouts refunded =>
    applyResolution state id outcome resolver settledAt payouts refunded
  | .marketResolverAdded id userId addedBy addedAt => applyResolverAdded state id userId addedBy addedAt
  | .marketResolverRemoved id userId removedBy removedAt =>
    applyResolverRemoved state id userId removedBy removedAt
  | .marketCancelled id moderator _ refunds => applyCancellation state id moderator refunds

def apply [Lowercase] (state : State) (event : Event) : Except DomainError State :=
  applyInner state event

def replay [Lowercase] (events : List Event) : Except DomainError State :=
  events.foldlM applyInner {}

end PredictionBot

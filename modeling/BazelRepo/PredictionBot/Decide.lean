import BazelRepo.PredictionBot.Domain
import Mathlib.Data.List.Sort

namespace PredictionBot

open Library (BTreeMap Lowercase okOr)

structure Actor where
  userId : UserId
  moderator : Bool
  bot : Bool
  deriving DecidableEq

inductive Command where
  | join
  | create (id : MarketId) (question : String) (options : List String) (closesAt : Int64)
  | bet (id : MarketId) (outcome : OutcomeIndex) (amount : Points)
  | resolve (id : MarketId) (outcome : OutcomeIndex)
  | addResolver (id : MarketId) (userId : UserId)
  | removeResolver (id : MarketId) (userId : UserId)
  | cancel (id : MarketId)
  | grant (userId : UserId)
  deriving DecidableEq

inductive MembershipEvidence where
  | present (userId : UserId) (bot : Bool)
  | absent (userId : UserId)
  | unavailable
  deriving DecidableEq

structure Decision where
  events : List Event
  response : String
  deriving DecidableEq

def allocations (totals : BTreeMap UserId Points) : List Allocation :=
  totals.toList.map fun (userId, amount) => { userId, amount }

/-- A winner before rounding: the floor of the proportional share and the remainder of its division. -/
def baseEntry (totalPool totalWinningStake : Int) (winner : UserId × Points) :
    Except DomainError (UserId × Int64 × Int) := do
  let numerator := totalPool * winner.2.val.toInt
  let base ← okOr (Library.tryFrom (numerator.tdiv totalWinningStake)) .overflow
  .ok (winner.1, base, numerator.tmod totalWinningStake)

def userOrder (a b : UserId × Int64 × Int) : Prop := (compare a.1 b.1).isLE

def remainderOrder (a b : UserId × Int64 × Int) : Prop :=
  b.2.2 < a.2.2 ∨ (a.2.2 = b.2.2 ∧ userOrder a b)

instance : DecidableRel userOrder := fun _ _ => inferInstanceAs (Decidable (_ = true))

instance : DecidableRel remainderOrder := fun _ _ => inferInstanceAs (Decidable (_ ∨ _))

def raiseEntry (entry : UserId × Int64 × Int) : Except DomainError (UserId × Int64 × Int) := do
  let amount ← checkedAdd entry.2.1 1
  .ok (entry.1, amount, entry.2.2)

def payouts (market : Market) (outcome : OutcomeIndex) :
    Except DomainError (List Allocation × Bool) := do
  let winners ← stakes market (some outcome)
  if winners.isEmpty then
    let all ← stakes market none
    .ok (allocations all, true)
  else
    let staked ← pool market
    -- The wide sums and products of the source stay below 2^127, so they are exact.
    let totalPool := staked.val.toInt
    let totalWinningStake := (winners.toList.map (fun winner => winner.2.val.toInt)).sum
    let entries ← winners.toList.mapM (baseEntry totalPool totalWinningStake)
    let baseSum := (entries.map (fun entry => entry.2.1.toInt)).sum
    let remainder := totalPool - baseSum
    if remainder < 0 ∨ 2^64 ≤ remainder then .error .overflow
    else
      let ranked := entries.insertionSort remainderOrder
      let raised ← (ranked.take remainder.toNat).mapM raiseEntry
      let settled := (raised ++ ranked.drop remainder.toNat).insertionSort userOrder
      .ok (settled.map fun entry => { userId := entry.1, amount := ⟨entry.2.1⟩ }, false)

def finish [Lowercase] (state : State) (events : List Event) (response : String) :
    Except DomainError Decision := do
  let _ ← events.foldlM applyInner state
  .ok { events, response }

def decideJoin [Lowercase] (state : State) (actor : Actor) (now : Int64) (defaults : Policy) :
    Except DomainError Decision :=
  if actor.bot ∨ actor.userId = ⟨0⟩ then .error (.invalid "bots and system users cannot enroll")
  else if state.accounts.contains actor.userId then finish state [] "Already enrolled."
  else do
    let policy := state.policy.getD defaults
    positivePolicy policy
    let nextGrant ← checkedAdd now policy.interval
    let initialized : List Event :=
      if state.policy.isNone then [.guildEconomyInitialized policy.amount policy.interval] else []
    finish state
      (initialized ++ [.memberEnrolled actor.userId now,
        .pointsGranted actor.userId .initial policy.amount now now nextGrant])
      s!"Enrolled with {policy.amount} points."

def decideGrant [Lowercase] (state : State) (actor : Actor) (userId : UserId) (now : Int64) :
    Except DomainError Decision :=
  if actor.userId ≠ ⟨0⟩ then .error (.invalid "grants require the system actor")
  else do
    let policy ← okOr state.policy (.invalid "economy not initialized")
    positivePolicy policy
    let account ← okOr state.accounts[userId]? (.invalid "member not enrolled")
    if now < account.nextGrant then finish state [] "No grant due."
    else
      let periods := (now.toInt - account.nextGrant.toInt).tdiv policy.interval.toInt + 1
      let count ← okOr (Library.tryFrom periods) .overflow
      let amount ← checkedMul policy.amount.val count
      let elapsed ← checkedMul policy.interval (count - 1)
      let throughDue ← checkedAdd account.nextGrant elapsed
      let nextGrant ← checkedAdd throughDue policy.interval
      finish state [.pointsGranted userId .periodic ⟨amount⟩ account.nextGrant throughDue nextGrant]
        s!"Granted {amount} points."

def decideCreate [Lowercase] (state : State) (actor : Actor) (id : MarketId) (question : String)
    (options : List String) (closesAt now : Int64) : Except DomainError Decision :=
  if actor.bot ∨ actor.userId = ⟨0⟩ then .error (.invalid "bots cannot create markets")
  else if ¬ state.accounts.contains actor.userId then .error (.invalid "member not enrolled")
  else if ¬ validMarketId id ∨ state.markets.contains id then
    .error (.invalid "invalid or duplicate market ID")
  else do
    validMarket question options
    if closesAt ≤ now then .error (.invalid "market must close in the future")
    else finish state [.marketCreated id actor.userId question options now closesAt] s!"Market created: {id}"

def decideBet [Lowercase] (state : State) (actor : Actor) (id : MarketId) (outcome : OutcomeIndex)
    (amount : Points) (now : Int64) : Except DomainError Decision :=
  if actor.bot ∨ actor.userId = ⟨0⟩ then .error (.invalid "bots cannot bet")
  else do
    let account ← okOr state.accounts[actor.userId]? (.invalid "member not enrolled")
    let market ← okOr state.markets[id]? (.invalid "unknown market")
    if market.status ≠ .opened ∨ market.closesAt ≤ now ∨ now < market.createdAt then
      .error (.invalid "market is not open for betting")
    else if market.options.length ≤ outcome.val ∨ amount.val ≤ 0 then
      .error (.invalid "invalid outcome or stake")
    else if account.balance.val < amount.val then .error (.invalid "insufficient points")
    else
      let staked ← pool market
      let _ ← checkedPointsAdd staked amount
      let chosen := market.options[outcome.val]?.getD ""
      let remaining := account.balance.val - amount.val
      finish state [.betPlaced id actor.userId outcome amount now]
        s!"Staked {amount} points on {chosen}. Remaining balance: {remaining} points."

def resolverEvidence (state : State) (actor : Actor) (membership : Option MembershipEvidence) :
    Except DomainError Unit := do
  match membership with
  | some (.present userId bot) =>
    if userId ≠ actor.userId then .error .membershipRequired
    else if bot then .error (.invalid "resolver must be human")
    else if ¬ state.accounts.contains actor.userId then .error (.invalid "resolver not enrolled")
    else .ok ()
  | some (.absent userId) =>
    if userId = actor.userId then .error (.invalid "resolver is no longer a server member")
    else .error .membershipRequired
  | _ => .error .membershipRequired

def resolveAuthority (state : State) (actor : Actor) (market : Market)
    (membership : Option MembershipEvidence) : Except DomainError Unit :=
  if actor.moderator = false ∧ actor.userId ≠ market.creator then
    if actor.userId ∉ market.resolvers then .error (.invalid "market creator or moderator required")
    else resolverEvidence state actor membership
  else .ok ()

def decideResolve [Lowercase] (state : State) (actor : Actor) (id : MarketId) (outcome : OutcomeIndex)
    (now : Int64) (membership : Option MembershipEvidence) : Except DomainError Decision :=
  if actor.bot ∨ actor.userId = ⟨0⟩ then .error (.invalid "market creator or moderator required")
  else do
    let market ← okOr state.markets[id]? (.invalid "unknown market")
    resolveAuthority state actor market membership
    if market.status ≠ .opened ∨ now < market.closesAt then
      .error (.invalid "market is not ready to resolve")
    else if market.options.length ≤ outcome.val then .error (.invalid "invalid outcome")
    else
      let (payouts, refunded) ← payouts market outcome
      finish state [.marketResolved id outcome actor.userId now payouts refunded]
        (if refunded then "Market resolved; stakes refunded." else "Market resolved.")

def targetEvidence (userId : UserId) (membership : Option MembershipEvidence) :
    Except DomainError Unit :=
  match membership with
  | some (.present verified bot) =>
    if verified ≠ userId then .error .membershipRequired
    else if bot ∨ userId.val = 0 then .error (.invalid "resolver must be human")
    else .ok ()
  | some (.absent verified) =>
    if verified = userId then .error (.invalid "resolver is no longer a server member")
    else .error .membershipRequired
  | _ => .error .membershipRequired

def decideAddResolver [Lowercase] (state : State) (actor : Actor) (id : MarketId) (userId : UserId)
    (now : Int64) (membership : Option MembershipEvidence) : Except DomainError Decision := do
  let market ← okOr state.markets[id]? (.invalid "unknown market")
  if actor.bot ∨ actor.userId.val = 0 ∨ (actor.moderator = false ∧ actor.userId ≠ market.creator) then
    .error (.invalid "market creator or moderator required")
  else if market.status ≠ .opened then .error (.invalid "market already terminal")
  else
    targetEvidence userId membership
    if ¬ state.accounts.contains userId then .error (.invalid "resolver not enrolled")
    else if userId ∈ market.resolvers then
      finish state [] s!"<@{userId}> is already an additional resolver for market {id}."
    else
      finish state [.marketResolverAdded id userId actor.userId now]
        s!"Added <@{userId}> as an additional resolver for market {id}."

def decideRemoveResolver [Lowercase] (state : State) (actor : Actor) (id : MarketId) (userId : UserId)
    (now : Int64) : Except DomainError Decision := do
  let market ← okOr state.markets[id]? (.invalid "unknown market")
  if actor.bot ∨ actor.userId.val = 0 ∨ (actor.moderator = false ∧ actor.userId ≠ market.creator) then
    .error (.invalid "market creator or moderator required")
  else if market.status ≠ .opened then .error (.invalid "market already terminal")
  else if userId.val = 0 then .error (.invalid "invalid resolver")
  else
    let authority :=
      " Separate authority as the market creator or a current moderator remains unchanged."
    if userId ∉ market.resolvers then
      finish state [] s!"<@{userId}> is not an additional resolver for market {id}.{authority}"
    else
      finish state [.marketResolverRemoved id userId actor.userId now]
        s!"Removed <@{userId}> as an additional resolver for market {id}.{authority}"

def decideCancel [Lowercase] (state : State) (actor : Actor) (id : MarketId) (now : Int64) :
    Except DomainError Decision :=
  if actor.moderator = false ∨ actor.bot ∨ actor.userId = ⟨0⟩ then .error (.invalid "moderator required")
  else do
    let market ← okOr state.markets[id]? (.invalid "unknown market")
    if market.status ≠ .opened then .error (.invalid "market already terminal")
    else
      let all ← stakes market none
      finish state [.marketCancelled id actor.userId now (allocations all)]
        "Market cancelled; stakes refunded."

def decideWithMembership [Lowercase] (state : State) (actor : Actor) (command : Command) (now : Int64)
    (defaults : Policy) (membership : Option MembershipEvidence) : Except DomainError Decision :=
  match command with
  | .join => decideJoin state actor now defaults
  | .grant userId => decideGrant state actor userId now
  | .create id question options closesAt => decideCreate state actor id question options closesAt now
  | .bet id outcome amount => decideBet state actor id outcome amount now
  | .resolve id outcome => decideResolve state actor id outcome now membership
  | .addResolver id userId => decideAddResolver state actor id userId now membership
  | .removeResolver id userId => decideRemoveResolver state actor id userId now
  | .cancel id => decideCancel state actor id now

def decide [Lowercase] (state : State) (actor : Actor) (command : Command) (now : Int64)
    (defaults : Policy) : Except DomainError Decision :=
  decideWithMembership state actor command now defaults none

theorem finish_eq_ok [Lowercase] {state : State} {events : List Event} {response : String}
    {decision : Decision} (finished : finish state events response = .ok decision) :
    decision = ⟨events, response⟩ ∧ ∃ next, decision.events.foldlM applyInner state = .ok next := by
  obtain ⟨next, applied, result⟩ := Library.bind_eq_ok.mp finished
  cases result
  exact ⟨rfl, next, applied⟩

end PredictionBot

import BazelRepo.PredictionBot.Transitions

namespace PredictionBot

open Library

def Event.market : Event → Option MarketId
  | .marketCreated id .. | .betPlaced id .. | .marketResolved id .. | .marketResolverAdded id ..
  | .marketResolverRemoved id .. | .marketCancelled id .. => some id
  | _ => none

def Market.Settled (market : Market) : Prop := market.status ≠ .opened

theorem opened_of_found {state : State} {named : MarketId} {held : Market} (found : state.markets[named]? = some held)
    (isOpen : held.status = .opened) {id : MarketId} (same : some named = some id) (market : Market)
    (present : state.markets[id]? = some market) : market.status = .opened := by
  cases same
  rw [found] at present
  cases present
  exact isOpen

theorem getElem?_insert_other {markets : BTreeMap MarketId Market} {named id : MarketId}
    (apart : some named ≠ some id) (market : Market) : (markets.insert named market)[id]? = markets[id]? := by
  rw [BTreeMap.getElem?_insert_eq, if_neg]
  rintro rfl
  exact apart rfl

theorem applyInner_markets [Lowercase] {state result : State} {event : Event}
    (applied : applyInner state event = .ok result) (id : MarketId) :
    (event.market = some id → ∀ market, state.markets[id]? = some market → market.status = .opened) ∧
      (event.market ≠ some id → result.markets[id]? = state.markets[id]?) := by
  cases event with
  | announcementsEnabled channelId moderator enabledAt =>
    rcases bind_eq_ok.mp applied with ⟨_, _, same⟩
    cases same
    exact ⟨by simp [Event.market], fun _ => rfl⟩
  | guildEconomyInitialized amount interval =>
    rcases applyInitialization_inv applied with ⟨_, _, _, rfl⟩
    exact ⟨by simp [Event.market], fun _ => rfl⟩
  | memberEnrolled userId enrolledAt =>
    rcases applyEnrollment_inv applied with ⟨_, _, _, rfl⟩
    exact ⟨by simp [Event.market], fun _ => rfl⟩
  | pointsGranted userId reason amount fromDue throughDue nextGrant =>
    rcases applyGrant_inv applied with ⟨_, _, _, _, _, _, _, rfl⟩
    exact ⟨by simp [Event.market], fun _ => rfl⟩
  | marketCreated created creator question options createdAt closesAt =>
    rcases applyMarketCreation_inv applied with ⟨fresh, rfl⟩
    constructor
    · intro same market found
      cases same
      rw [fresh] at found
      cases found
    · intro apart
      exact getElem?_insert_other apart _
  | betPlaced placed userId outcome amount acceptedAt =>
    rcases applyBet_inv applied with ⟨_, _, _, found, isOpen, _, _, _, _, rfl⟩
    exact ⟨opened_of_found found isOpen, fun apart => getElem?_insert_other apart _⟩
  | marketResolved resolved outcome resolver settledAt payouts refunded =>
    rcases applyResolution_inv applied with ⟨_, _, _, found, isOpen, _, _, _, rfl⟩
    exact ⟨opened_of_found found isOpen, fun apart => getElem?_insert_other apart _⟩
  | marketResolverAdded changed userId addedBy addedAt =>
    rcases applyResolverAdded_inv applied with ⟨_, found, isOpen, rfl⟩
    exact ⟨opened_of_found found isOpen, fun apart => getElem?_insert_other apart _⟩
  | marketResolverRemoved changed userId removedBy removedAt =>
    rcases applyResolverRemoved_inv applied with ⟨_, found, isOpen, rfl⟩
    exact ⟨opened_of_found found isOpen, fun apart => getElem?_insert_other apart _⟩
  | marketCancelled cancelled moderator cancelledAt refunds =>
    rcases applyCancellation_inv applied with ⟨_, _, _, found, isOpen, _, _, _, rfl⟩
    exact ⟨opened_of_found found isOpen, fun apart => getElem?_insert_other apart _⟩

theorem applyInner_settled [Lowercase] {state result : State} {event : Event}
    (applied : applyInner state event = .ok result) {id : MarketId} {market : Market}
    (found : state.markets[id]? = some market) (settled : market.Settled) : result.markets[id]? = some market := by
  rcases applyInner_markets applied id with ⟨opens, keeps⟩
  rw [keeps fun about => settled (opens about market found), found]

theorem foldlM_settled [Lowercase] {events : List Event} {state result : State}
    (applied : events.foldlM apply state = .ok result) {id : MarketId} {market : Market}
    (found : state.markets[id]? = some market) (settled : market.Settled) : result.markets[id]? = some market := by
  induction events generalizing state with
  | nil =>
    cases applied
    exact found
  | cons event rest ih =>
    rw [List.foldlM_cons, bind_eq_ok] at applied
    rcases applied with ⟨middle, first, others⟩
    exact ih others (applyInner_settled first found settled)

/-- Who may settle a market: its creator, a moderator, or an assigned and enrolled resolver whose presence
was just verified. -/
def MaySettle (state : State) (actor : Actor) (market : Market) (membership : Option MembershipEvidence) : Prop :=
  actor.userId = market.creator ∨ actor.moderator = true ∨
    (actor.userId ∈ market.resolvers ∧ state.accounts.contains actor.userId = true ∧
      membership = some (.present actor.userId false))

theorem resolveAuthority_eq_ok {state : State} {actor : Actor} {market : Market}
    {membership : Option MembershipEvidence} (allowed : resolveAuthority state actor market membership = .ok ()) :
    MaySettle state actor market membership := by
  unfold resolveAuthority at allowed
  split at allowed
  · rw [reject_eq_ok, not_not] at allowed
    rcases allowed with ⟨assigned, evidence⟩
    unfold resolverEvidence at evidence
    cases membership with
    | none => cases evidence
    | some stated =>
      cases stated with
      | present userId bot =>
        simp only [reject_eq_ok, not_not, Bool.not_eq_true, ne_eq] at evidence
        rcases evidence with ⟨rfl, human, enrolled, _⟩
        exact .inr (.inr ⟨assigned, by simpa using enrolled, by rw [human]⟩)
      | absent userId =>
        simp only [reject_eq_ok] at evidence
        cases evidence.2
      | unavailable => cases evidence
  · rename_i exempt
    by_cases creator : actor.userId = market.creator
    · exact .inl creator
    · refine .inr (.inl ?_)
      by_contra notModerator
      exact exempt ⟨by simpa using notModerator, creator⟩

theorem decide_resolves [Lowercase] {state : State} {actor : Actor} {command : Command} {now : Int64}
    {defaults : Policy} {membership : Option MembershipEvidence} {decision : Decision}
    (decided : decideWithMembership state actor command now defaults membership = .ok decision)
    {id : MarketId} {outcome : OutcomeIndex} {resolver : UserId} {settledAt : Int64} {payouts : List Allocation}
    {refunded : Bool}
    (emitted : .marketResolved id outcome resolver settledAt payouts refunded ∈ decision.events) :
    resolver = actor.userId ∧ actor.bot = false ∧
      ∃ market, state.markets[id]? = some market ∧ MaySettle state actor market membership := by
  cases command with
  | join =>
    unfold decideWithMembership decideJoin at decided
    simp only [reject_eq_ok] at decided
    rcases decided with ⟨_, decided⟩
    split at decided
    · rw [(finish_eq_ok decided).1] at emitted
      cases emitted
    · simp only [bind_eq_ok] at decided
      rcases decided with ⟨_, _, _, _, decided⟩
      rw [(finish_eq_ok decided).1] at emitted
      dsimp only at emitted
      split at emitted <;> simp at emitted
  | grant userId =>
    unfold decideWithMembership decideGrant at decided
    simp only [reject_eq_ok, bind_eq_ok] at decided
    rcases decided with ⟨_, _, _, _, _, _, _, decided⟩
    split at decided
    · rw [(finish_eq_ok decided).1] at emitted
      cases emitted
    · simp only [bind_eq_ok] at decided
      rcases decided with ⟨_, _, _, _, _, _, _, _, _, _, decided⟩
      rw [(finish_eq_ok decided).1] at emitted
      simp at emitted
  | create id question options closesAt =>
    unfold decideWithMembership decideCreate at decided
    simp only [reject_eq_ok, bind_eq_ok] at decided
    rcases decided with ⟨_, _, _, _, _, _, decided⟩
    rw [(finish_eq_ok decided).1] at emitted
    simp at emitted
  | bet id outcome amount =>
    unfold decideWithMembership decideBet at decided
    simp only [reject_eq_ok, bind_eq_ok] at decided
    rcases decided with ⟨_, _, _, _, _, _, _, _, _, _, _, _, decided⟩
    rw [(finish_eq_ok decided).1] at emitted
    simp at emitted
  | resolve named outcome =>
    unfold decideWithMembership decideResolve at decided
    simp only [reject_eq_ok, bind_eq_ok, okOr_eq_ok, not_or] at decided
    rcases decided with ⟨⟨human, _⟩, market, found, _, allowed, _, _, _, _, decided⟩
    rw [(finish_eq_ok decided).1] at emitted
    simp only [List.mem_singleton, Event.marketResolved.injEq] at emitted
    rcases emitted with ⟨rfl, _, rfl, _⟩
    exact ⟨rfl, by simpa using human, market, found, resolveAuthority_eq_ok allowed⟩
  | addResolver id userId =>
    unfold decideWithMembership decideAddResolver at decided
    simp only [reject_eq_ok, bind_eq_ok] at decided
    rcases decided with ⟨_, _, _, _, _, _, _, decided⟩
    split at decided <;> rw [(finish_eq_ok decided).1] at emitted <;> simp at emitted
  | removeResolver id userId =>
    unfold decideWithMembership decideRemoveResolver at decided
    simp only [reject_eq_ok, bind_eq_ok] at decided
    rcases decided with ⟨_, _, _, _, _, decided⟩
    split at decided <;> rw [(finish_eq_ok decided).1] at emitted <;> simp at emitted
  | cancel id =>
    unfold decideWithMembership decideCancel at decided
    simp only [reject_eq_ok, bind_eq_ok] at decided
    rcases decided with ⟨_, _, _, _, _, _, decided⟩
    rw [(finish_eq_ok decided).1] at emitted
    simp at emitted

/-- A settled market stays as it is in every history, and whoever settles one was entitled to. -/
theorem settled_markets_are_final [Lowercase] :
    (∀ (before after : List Event) (state next : State) (id : MarketId) (market : Market),
      replay before = .ok state → state.markets[id]? = some market → market.Settled →
        after.foldlM apply state = .ok next → next.markets[id]? = some market) ∧
      ∀ (state : State) (actor : Actor) (command : Command) (now : Int64) (defaults : Policy)
        (membership : Option MembershipEvidence) (decision : Decision) (id : MarketId) (outcome : OutcomeIndex)
        (resolver : UserId) (settledAt : Int64) (payouts : List Allocation) (refunded : Bool),
        decideWithMembership state actor command now defaults membership = .ok decision →
          .marketResolved id outcome resolver settledAt payouts refunded ∈ decision.events →
            resolver = actor.userId ∧ actor.bot = false ∧
              ∃ market, state.markets[id]? = some market ∧ MaySettle state actor market membership := by
  constructor
  · intro _ after state next id market _ found settled applied
    exact foldlM_settled applied found settled
  · intro state actor command now defaults membership decision id outcome resolver settledAt payouts refunded decided
      emitted
    exact decide_resolves decided emitted

end PredictionBot

import BazelRepo.HearthstoneSimulator.Movement

namespace HearthstoneSimulator

open Library

/-- One limit of the rules: how many entities of some kinds a zone of a player holds. -/
structure Quota where
  zone : Zone
  counts : Option EntityKind → Bool
  limit : ℕ

def quotas (ruleset : Ruleset) : List Quota :=
  [⟨.deck, fun _ => true, ruleset.deckLimit⟩,
    ⟨.hand, fun _ => true, ruleset.handLimit⟩,
    ⟨.secret, fun _ => true, ruleset.secretLimit⟩,
    ⟨.secret, fun kind => kind = some .quest, ruleset.questLimit⟩,
    ⟨.play, fun kind => kind.any isBoardEntity, ruleset.boardLimit⟩,
    ⟨.play, fun kind => kind = some .hero, ruleset.heroLimit⟩,
    ⟨.play, fun kind => kind = some .heroPower, ruleset.heroPowerLimit⟩]

theorem length_le_of_subset {α : Type*} {first second : List α} (nodup : first.Nodup)
    (subset : ∀ a ∈ first, a ∈ second) : first.length ≤ second.length :=
  (List.subperm_of_subset nodup subset).length_le

namespace World

def counted (world : World) (player : PlayerId) (quota : Quota) : List GameEntityId :=
  (world.zoneIndex player quota.zone).filter fun id => quota.counts (world.get id (·.kind))

/-- No zone of a player holds more than its limits allow; weapons have a rule of their own. -/
def WithinLimits (world : World) : Prop :=
  ∀ quota ∈ quotas world.ruleset, ∀ player, (world.counted player quota).length ≤ quota.limit

def HasRoom (world : World) (id : GameEntityId) (slot : Slot) : Prop :=
  ∀ quota ∈ quotas world.ruleset, quota.zone = slot.2 → quota.counts (world.get id (·.kind)) →
    (world.counted slot.1 quota).length < quota.limit

theorem zoneLimit_of_roomy {world : World} {player : PlayerId} {zone : Zone} {limit : ℕ}
    (roomy : world.zoneIsFull player zone = false) (limited : zoneLimit world.ruleset zone = some limit) :
    (world.zoneIndex player zone).length < limit := by
  unfold zoneIsFull at roomy
  rw [limited] at roomy
  have below : decide (limit ≤ (world.zoneIndex player zone).length) = false := roomy
  rw [decide_eq_false_iff_not] at below
  omega

theorem length_counted_all {world : World} {player : PlayerId} {zone : Zone} {limit : ℕ} :
    (world.counted player ⟨zone, fun _ => true, limit⟩).length = (world.zoneIndex player zone).length := by
  unfold counted
  rw [List.filter_true]

theorem length_counted_kind (world : World) (player : PlayerId) (zone : Zone) (kind : EntityKind) (limit : ℕ) :
    (world.counted player ⟨zone, fun found => found = some kind, limit⟩).length =
      world.countKind (world.zoneIndex player zone) kind := by
  unfold counted countKind
  rw [List.countP_eq_length_filter]

theorem counted_board (world : World) (player : PlayerId) (limit : ℕ) :
    world.counted player ⟨.play, fun kind => kind.any isBoardEntity, limit⟩ = world.boardEntities player := rfl

theorem kindLimit_of_roomy {world : World} {player : PlayerId} {kind : EntityKind} {limit : ℕ}
    (roomy : world.playIsFull player kind = false) (limited : kindLimit world.ruleset kind = some limit) :
    world.countKind (world.zoneIndex player .play) kind < limit := by
  unfold playIsFull at roomy
  rw [Bool.or_eq_false_iff, limited] at roomy
  have below : decide (limit ≤ world.countKind (world.zoneIndex player .play) kind) = false := roomy.2
  rw [decide_eq_false_iff_not] at below
  omega

theorem replacementExempt_eq {world : World} {id : GameEntityId} {player : PlayerId} {zone : Zone} :
    world.replacementExempt id player zone = true ↔
      zone = .play ∧ world.get id (·.controller) = some player ∧ world.get id (·.kind) = some .weapon ∧
        (world.weaponEquipment.pending.contains id ∨ world.weaponEquipment.supersedes id ∨
          world.weaponEquipment.active player = some id) := by
  unfold replacementExempt
  simp [and_assoc, or_assoc]

theorem uncounted_weapon {ruleset : Ruleset} {quota : Quota} (member : quota ∈ quotas ruleset)
    (inPlay : quota.zone = .play) (counts : quota.counts (some .weapon) = true) : False := by
  simp only [quotas, List.mem_cons, List.not_mem_nil, or_false] at member
  rcases member with rfl | rfl | rfl | rfl | rfl | rfl | rfl <;>
    first | (cases inPlay; done) | simp [isBoardEntity] at counts

theorem hasRoom_of_not_full {world : World} {id : GameEntityId} {slot : Slot}
    (free : world.destinationIsFull id slot.1 slot.2 = false) : world.HasRoom id slot := by
  rcases slot with ⟨player, zone⟩
  intro quota member there counts
  unfold destinationIsFull at free
  dsimp only at there free
  subst there
  split at free
  case isTrue exempt =>
    rcases replacementExempt_eq.mp exempt with ⟨inPlay, _, weapon, _⟩
    rw [weapon] at counts
    exact (uncounted_weapon member inPlay counts).elim
  case isFalse =>
    split at free
    · cases free
    case isFalse open_ =>
      rw [Bool.not_eq_true] at open_
      simp only [quotas, List.mem_cons, List.not_mem_nil, or_false] at member
      rcases member with rfl | rfl | rfl | rfl | rfl | rfl | rfl
      · rw [length_counted_all]
        exact zoneLimit_of_roomy open_ rfl
      · rw [length_counted_all]
        exact zoneLimit_of_roomy open_ rfl
      · rw [length_counted_all]
        exact zoneLimit_of_roomy open_ rfl
      · rw [length_counted_kind]
        have quest := of_decide_eq_true counts
        rw [quest] at free
        have below : ¬ world.ruleset.questLimit ≤ world.countKind (world.zoneIndex player .secret) .quest := by
          simpa [generatedDestinationIsFull, open_, secretsAreFull] using free
        show world.countKind (world.zoneIndex player .secret) .quest < world.ruleset.questLimit
        omega
      · cases found : world.get id (·.kind) with
        | none =>
          rw [found] at counts
          cases counts
        | some kind =>
          rw [found] at counts free
          have board : isBoardEntity kind = true := counts
          have below : ¬ world.ruleset.boardLimit ≤ (world.boardEntities player).length := by
            have roomy : world.playIsFull player kind = false := by
              simpa [generatedDestinationIsFull, open_] using free
            unfold playIsFull boardIsFull at roomy
            rw [Bool.or_eq_false_iff, board] at roomy
            simpa using roomy.1
          rw [counted_board]
          show (world.boardEntities player).length < world.ruleset.boardLimit
          omega
      · have hero := of_decide_eq_true counts
        rw [hero] at free
        rw [length_counted_kind]
        exact kindLimit_of_roomy (by simpa [generatedDestinationIsFull, open_] using free) rfl
      · have power := of_decide_eq_true counts
        rw [power] at free
        rw [length_counted_kind]
        exact kindLimit_of_roomy (by simpa [generatedDestinationIsFull, open_] using free) rfl

theorem WithinLimits.relocated {world other : World} (limits : world.WithinLimits) {id : GameEntityId} {slot : Slot}
    (relocated : Relocated world other id slot) (room : id ∈ world.slots slot ∨ world.HasRoom id slot) :
    other.WithinLimits := by
  intro quota member player
  rw [relocated.ruleset] at member
  have nodup : (other.counted player quota).Nodup := (relocated.placed.located.nodup (player, quota.zone)).filter _
  have stays : ∀ a ∈ other.counted player quota, a ≠ id → a ∈ world.counted player quota := by
    intro a listed different
    rcases List.mem_filter.mp listed with ⟨there, counts⟩
    rw [relocated.kinds] at counts
    exact List.mem_filter.mpr ⟨(relocated.others (player, quota.zone) a different).mp there, counts⟩
  by_cases enters : id ∈ other.counted player quota ∧ id ∉ world.counted player quota
  · rcases List.mem_filter.mp enters.1 with ⟨there, counts⟩
    have here : (player, quota.zone) = slot := (relocated.arrived _).mp there
    subst here
    rw [relocated.kinds] at counts
    have grown : (other.counted player quota).length ≤ (id :: world.counted player quota).length := by
      apply length_le_of_subset nodup
      intro a listed
      by_cases same : a = id
      · exact List.mem_cons.mpr (.inl same)
      · exact List.mem_cons_of_mem _ (stays a listed same)
    rcases room with inside | free
    · exact absurd (List.mem_filter.mpr ⟨inside, counts⟩) enters.2
    · have below : (world.counted player quota).length < quota.limit := free quota member rfl counts
      rw [List.length_cons] at grown
      omega
  · have shrunk : (other.counted player quota).length ≤ (world.counted player quota).length := by
      apply length_le_of_subset nodup
      intro a listed
      by_cases same : a = id
      · subst same
        exact not_not.mp fun absent => enters ⟨listed, absent⟩
      · exact stays a listed same
    exact shrunk.trans (limits quota member player)

theorem hasRoom_unlimited {world : World} {id : GameEntityId} {player : PlayerId} {zone : Zone}
    (unlimited : zone = .graveyard ∨ zone = .removedFromGame) : world.HasRoom id (player, zone) :=
  hasRoom_of_not_full (destinationIsFull_unlimited unlimited)

theorem WithinLimits.congr {world other : World} (limits : world.WithinLimits) (ruleset : other.ruleset = world.ruleset)
    (counted : ∀ player quota, other.counted player quota = world.counted player quota) : other.WithinLimits := by
  intro quota member player
  rw [ruleset] at member
  rw [counted]
  exact limits quota member player

theorem WithinLimits.unmoved {world other : World} (limits : world.WithinLimits) (unmoved : Unmoved world other) :
    other.WithinLimits := by
  apply limits.congr unmoved.ruleset
  intro player quota
  unfold counted
  rw [unmoved.index]
  congr 1
  funext id
  rw [get_kind, unmoved.zoned, ← get_kind]

theorem WithinLimits.trackEntry {world : World} (limits : world.WithinLimits) (id : GameEntityId) :
    (world.trackEntry id).WithinLimits :=
  limits

theorem WithinLimits.settling {mover : GameEntityId} {world other : World} (limits : world.WithinLimits)
    (settling : Settling mover world other) : other.WithinLimits := by
  cases settling with
  | unmoved unmoved => exact limits.unmoved unmoved
  | detached _ relocated => exact (limits.relocated relocated (.inr (hasRoom_unlimited (.inr rfl)))).trackEntry _

theorem WithinLimits.settled {mover : GameEntityId} {world other : World} (limits : world.WithinLimits)
    (settled : Settled mover world other) : other.WithinLimits := by
  induction settled with
  | refl => exact limits
  | tail _ settling ih => exact ih.settling settling

theorem WithinLimits.result {world : World} (placed : world.Placed) (limits : world.WithinLimits)
    {request : ZoneMoveRequest} {result : World × Except ZoneError ZoneMoveOutcome}
    (ended : MoveResult (Settled request.entity) world request result) : result.1.WithinLimits := by
  cases ended with
  | rejected | prevented => exact limits
  | moved _ here room relocated settled =>
    have inside : request.entity ∈ world.slots (request.destinationController, request.destination) ∨
        world.HasRoom request.entity (request.destinationController, request.destination) := by
      rcases room with rfl | free
      · exact .inl (placed.located.mem_iff.mpr ⟨_, here⟩)
      · exact .inr (hasRoom_of_not_full free)
    exact ((limits.relocated relocated inside).trackEntry _).settled settled
  | removed _ _ _ relocated settled =>
    exact ((limits.relocated relocated (.inr (hasRoom_unlimited (.inl rfl)))).trackEntry _).settled settled

end World

end HearthstoneSimulator

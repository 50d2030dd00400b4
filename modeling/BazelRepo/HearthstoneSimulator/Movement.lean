import BazelRepo.HearthstoneSimulator.Placement
import Mathlib.Logic.Relation

namespace HearthstoneSimulator

open Library

namespace World

/-- The worlds differ in nothing the zone index, the limits and the equipment depend on. -/
structure Unmoved (world other : World) : Prop where
  index : other.zoneIndex = world.zoneIndex
  ruleset : other.ruleset = world.ruleset
  equipment : other.weaponEquipment = world.weaponEquipment
  zoned : other.zoned = world.zoned
  attached : ∀ id target, other.get id (·.attachedTo) = some target → world.get id (·.attachedTo) = some target

theorem Unmoved.refl (world : World) : Unmoved world world :=
  ⟨rfl, rfl, rfl, rfl, fun _ _ attached => attached⟩

theorem Unmoved.of_eq {world other : World} (entities : other.entities = world.entities)
    (index : other.zoneIndex = world.zoneIndex) (ruleset : other.ruleset = world.ruleset)
    (equipment : other.weaponEquipment = world.weaponEquipment) : Unmoved world other := by
  refine ⟨index, ruleset, equipment, ?_, ?_⟩
  · unfold World.zoned
    rw [entities]
  · unfold World.get
    rw [entities]
    exact fun _ _ attached => attached

theorem Unmoved.trans {first second third : World} (early : Unmoved first second) (late : Unmoved second third) :
    Unmoved first third :=
  ⟨late.index.trans early.index, late.ruleset.trans early.ruleset, late.equipment.trans early.equipment,
    late.zoned.trans early.zoned, fun id target attached => early.attached id target (late.attached id target attached)⟩

theorem get_eq_of_zoned {α : Type} {component : Components → Option α}
    {read : Option EntityKind × Option PlayerId × Option Zone × Option ℕ → Option α}
    (reads : ∀ components, component components = read components.zoned) (world : World) (id : GameEntityId) :
    world.get id component = (world.zoned id).bind read := by
  unfold World.get zoned
  rw [Option.bind_map]
  congr 1
  funext components
  exact reads components

theorem get_kind (world : World) (id : GameEntityId) : world.get id (·.kind) = (world.zoned id).bind (·.1) := by
  apply get_eq_of_zoned
  intro components
  rfl

theorem get_zone (world : World) (id : GameEntityId) : world.get id (·.zone) = (world.zoned id).bind (·.2.2.1) := by
  apply get_eq_of_zoned
  intro components
  rfl

theorem place_eq_of_zoned {world other : World} (same : other.zoned = world.zoned) : other.place = world.place := by
  have reads : ∀ (world : World) (id : GameEntityId), world.get id Components.place =
      (world.zoned id).bind fun zoned =>
        Components.place { controller := zoned.2.1, zone := zoned.2.2.1, zonePosition := zoned.2.2.2 } := by
    intro world id
    apply get_eq_of_zoned
    intro components
    rfl
  funext id
  unfold place
  rw [reads, reads, same]

theorem Unmoved.placed {world other : World} (unmoved : Unmoved world other) (placed : world.Placed) : other.Placed := by
  have slots : other.slots = world.slots := by
    unfold slots
    rw [unmoved.index]
  refine ⟨?_, ?_, ?_⟩
  · rw [slots, place_eq_of_zoned unmoved.zoned]
    exact placed.located
  · intro id hasZone
    rw [place_eq_of_zoned unmoved.zoned]
    apply placed.complete
    rw [get_zone, unmoved.zoned] at hasZone
    rw [get_zone]
    exact hasZone
  · intro id attached
    exact placed.unattached id (unmoved.attached id id attached)

theorem unmoved_modify {change : Components → Components}
    (keeps : ∀ components, (change components).zoned = components.zoned)
    (attaches : ∀ components, (change components).attachedTo = components.attachedTo ∨
      (change components).attachedTo = none) (world : World) (id : GameEntityId) :
    Unmoved world (world.modify id change) := by
  refine ⟨rfl, rfl, rfl, ?_, ?_⟩
  · funext a
    unfold zoned
    rw [entities_modify, Option.map_map]
    congr 1
    funext components
    show Components.zoned (if a = id then change components else components) = _
    split
    · exact keeps components
    · rfl
  · intro a target attached
    unfold World.get at attached ⊢
    rw [entities_modify] at attached
    cases found : world.entities[a]? with
    | none =>
      rw [found] at attached
      cases attached
    | some components =>
      rw [found] at attached
      have there : Components.attachedTo (if a = id then change components else components) = some target := attached
      show components.attachedTo = some target
      split at there
      · rcases attaches components with same | none
        · rw [← same]
          exact there
        · rw [none] at there
          cases there
      · exact there

theorem unmoved_change {change : Components → Components}
    (keeps : ∀ components, (change components).zoned = components.zoned ∧
      (change components).attachedTo = components.attachedTo) (world : World) (id : GameEntityId) :
    Unmoved world (world.modify id change) :=
  unmoved_modify (fun components => (keeps components).1) (fun components => .inl (keeps components).2) world id

theorem unmoved_recalculateStats (world : World) (id : GameEntityId) : Unmoved world (world.recalculateStats id) := by
  apply unmoved_change
  intro components
  dsimp only
  split <;> exact ⟨rfl, rfl⟩

theorem unmoved_recalculateKeywords (world : World) (id : GameEntityId) :
    Unmoved world (world.recalculateKeywords id) := by
  apply unmoved_change
  intro components
  exact ⟨rfl, rfl⟩

theorem unmoved_recalculateCost (world : World) (id : GameEntityId) : Unmoved world (world.recalculateCost id) := by
  apply unmoved_change
  intro components
  exact ⟨rfl, rfl⟩

theorem unmoved_clearPostDeathAuras (world : World) (id : GameEntityId) :
    Unmoved world (world.clearPostDeathAuras id) := by
  have cleared : Unmoved world (world.modify id fun components =>
      { components with attackAuraCache := none, otherAuraCache := none }) := by
    apply unmoved_change
    intro components
    exact ⟨rfl, rfl⟩
  exact cleared.trans (unmoved_recalculateStats _ id)

theorem unmoved_recordFullZoneDeath (world : World) (id : GameEntityId) (position : ℕ) :
    Unmoved world (world.recordFullZoneDeath id position) := by
  unfold recordFullZoneDeath
  split
  · split
    · exact .of_eq rfl rfl rfl rfl
    · exact .refl world
  · exact .refl world

theorem placed_trackEntry {world : World} (placed : world.Placed) (id : GameEntityId) : (world.trackEntry id).Placed :=
  ⟨placed.located, placed.complete, placed.unattached⟩

/-- One entity stands in a slot where it may not have stood before; all others stand where they stood. -/
structure Relocated (world other : World) (id : GameEntityId) (slot : Slot) : Prop where
  placed : other.Placed
  others : ∀ t a, a ≠ id → (a ∈ other.slots t ↔ a ∈ world.slots t)
  arrived : ∀ t, id ∈ other.slots t ↔ t = slot
  kinds : ∀ a, other.get a (·.kind) = world.get a (·.kind)
  ruleset : other.ruleset = world.ruleset
  equipment : other.weaponEquipment = world.weaponEquipment

theorem Relocated.trans_unmoved {world middle other : World} {id : GameEntityId} {slot : Slot}
    (relocated : Relocated world middle id slot) (unmoved : Unmoved middle other) : Relocated world other id slot := by
  have slots : other.slots = middle.slots := by
    unfold slots
    rw [unmoved.index]
  refine ⟨unmoved.placed relocated.placed, ?_, ?_, ?_, unmoved.ruleset.trans relocated.ruleset,
    unmoved.equipment.trans relocated.equipment⟩
  · rw [slots]
    exact relocated.others
  · rw [slots]
    exact relocated.arrived
  · intro a
    rw [get_kind, unmoved.zoned, ← get_kind]
    exact relocated.kinds a

theorem relocated_insert {world : World} {id : GameEntityId} (placed : world.PlacedBut id) {slot : Slot}
    {position : Option ℕ} (fits : position.getD (world.slots slot).length ≤ (world.slots slot).length)
    (present : world.entities[id]?.isSome) :
    Relocated world (world.insertIntoZoneUnchecked id slot.1 slot.2 position) id slot := by
  refine ⟨insertIntoZoneUnchecked_placed placed fits present, ?_, ?_, ?_, ?_, ?_⟩
  · intro t a different
    rw [insertIntoZoneUnchecked_slots]
    by_cases here : t = slot
    · subst here
      rw [Function.update_self, mem_entriesWith fits]
      simp [different]
    · rw [Function.update_of_ne here]
  · intro t
    rw [insertIntoZoneUnchecked_slots]
    by_cases here : t = slot
    · subst here
      rw [Function.update_self, mem_entriesWith fits]
      simp
    · rw [Function.update_of_ne here]
      simp [here, placed.notMem t]
  · intro a
    unfold World.get
    rw [insertIntoZoneUnchecked_entities placed fits, Option.bind_map]
    congr 1
    funext components
    show Components.kind (reposition _ a (if a = id then settle slot components else components)) = _
    unfold reposition settle
    split
    · split <;> rfl
    · split <;> rfl
  · rw [insertIntoZoneUnchecked_eq]
  · rw [insertIntoZoneUnchecked_eq]

theorem relocated_withoutEntry {world other : World} (placed : world.Placed) {id : GameEntityId} {source slot : Slot}
    {n : ℕ} (here : world.place id = some (source, n))
    (relocated : Relocated (world.withoutEntry source n) other id slot) : Relocated world other id slot := by
  refine ⟨relocated.placed, ?_, relocated.arrived, ?_, ?_, ?_⟩
  · intro t a different
    rw [relocated.others t a different, withoutEntry_slots]
    by_cases there : t = source
    · subst there
      rw [Function.update_self, placed.located.mem_eraseIdx here]
      simp [different]
    · rw [Function.update_of_ne there]
  · intro a
    rw [relocated.kinds]
    unfold World.get
    rw [withoutEntry_entities placed, Option.bind_map]
    congr 1
    funext components
    show Components.kind (reposition _ a components) = _
    unfold reposition
    split <;> rfl
  · rw [relocated.ruleset, withoutEntry_eq]
  · rw [relocated.equipment, withoutEntry_eq]

/-- What follows the move of an entity: changes that move nothing, and attachments that leave the game. -/
inductive Settling (mover : GameEntityId) (world : World) : World → Prop where
  | unmoved {other : World} (unmoved : Unmoved world other) : Settling mover world other
  | detached {other : World} {id : GameEntityId} {player : PlayerId} (apart : id ≠ mover)
      (relocated : Relocated world other id (player, .removedFromGame)) : Settling mover world (other.trackEntry id)

abbrev Settled (mover : GameEntityId) : World → World → Prop := Relation.ReflTransGen (Settling mover)

theorem Unmoved.settled {mover : GameEntityId} {world other : World} (unmoved : Unmoved world other) :
    Settled mover world other :=
  .single (.unmoved unmoved)

theorem Settling.placed {mover : GameEntityId} {world other : World} (settling : Settling mover world other)
    (placed : world.Placed) : other.Placed := by
  cases settling with
  | unmoved unmoved => exact unmoved.placed placed
  | detached _ relocated => exact placed_trackEntry relocated.placed _

theorem Settled.placed {mover : GameEntityId} {world other : World} (settled : Settled mover world other)
    (placed : world.Placed) : other.Placed := by
  induction settled with
  | refl => exact placed
  | tail _ settling ih => exact settling.placed ih

structure Follows (after : World → World → Prop) : Prop where
  unmoved : ∀ {world other : World}, Unmoved world other → after world other
  trans : ∀ {first second third : World}, after first second → after second third → after first third
  placed : ∀ {world other : World}, after world other → world.Placed → other.Placed

theorem Follows.refl {after : World → World → Prop} (follows : Follows after) (world : World) : after world world :=
  follows.unmoved (.refl world)

theorem follows_unmoved : Follows Unmoved :=
  ⟨fun unmoved => unmoved, Unmoved.trans, Unmoved.placed⟩

theorem follows_settled (mover : GameEntityId) : Follows (Settled mover) :=
  ⟨Unmoved.settled, Relation.ReflTransGen.trans, Settled.placed⟩

section Policy

variable {after : World → World → Prop} (follows : Follows after) {reset : World → GameEntityId → World}
  {request : ZoneMoveRequest} (resets : ∀ world : World, world.Placed → after world (reset world request.entity))

include follows resets

theorem applyMovementStatePolicyWith_after {world : World} (placed : world.Placed) (source : Zone) :
    ∃ ordered, Unmoved world ordered ∧
      after (ordered.trackEntry request.entity) (applyMovementStatePolicyWith reset world request source) := by
  unfold applyMovementStatePolicyWith
  dsimp only
  have ordering : ∃ ordered, Unmoved world ordered ∧ ordered = (if request.destination = .play ∧ source ≠ .play then
      world.allocatePlayOrder.1.modify request.entity fun components =>
        { components with playOrder := some world.allocatePlayOrder.2 }
      else world) := by
    refine ⟨_, ?_, rfl⟩
    split
    · have allocated : Unmoved world world.allocatePlayOrder.1 := .of_eq rfl rfl rfl rfl
      apply allocated.trans
      apply unmoved_change
      intro components
      exact ⟨rfl, rfl⟩
    · exact .refl world
  rcases ordering with ⟨ordered, unmoved, same⟩
  refine ⟨ordered, unmoved, ?_⟩
  rw [← same]
  have tracked : (ordered.trackEntry request.entity).Placed := placed_trackEntry (unmoved.placed placed) _
  generalize ordered.trackEntry request.entity = start at tracked
  have auras : ∃ cleared, after start cleared ∧ cleared =
      (if source = .play ∧ request.destination ≠ .play then start.clearPostDeathAuras request.entity else start) := by
    refine ⟨_, ?_, rfl⟩
    split
    · exact follows.unmoved (unmoved_clearPostDeathAuras start request.entity)
    · exact follows.refl start
  rcases auras with ⟨cleared, early, same⟩
  rw [← same]
  have runtime : ∃ fresh, after cleared fresh ∧ fresh =
      (if resetsRuntimeState request.kind source request.destination then reset cleared request.entity
      else if source = .hand ∧ request.destination = .play then
        cleared.modify request.entity fun components => { components with pendingDestroy := false }
      else cleared) := by
    refine ⟨_, ?_, rfl⟩
    split
    · exact resets cleared (follows.placed early tracked)
    · split
      · apply follows.unmoved
        apply unmoved_change
        intro components
        exact ⟨rfl, rfl⟩
      · exact follows.refl cleared
  rcases runtime with ⟨fresh, late, same⟩
  rw [← same]
  apply follows.trans (follows.trans early late)
  split
  · apply follows.unmoved
    apply unmoved_change
    intro components
    exact ⟨rfl, rfl⟩
  · exact follows.refl fresh

theorem relocated_policy {world other : World} {slot : Slot} (relocated : Relocated world other request.entity slot)
    (source : Zone) :
    ∃ middle, Relocated world middle request.entity slot ∧
      after (middle.trackEntry request.entity) (applyMovementStatePolicyWith reset other request source) := by
  rcases applyMovementStatePolicyWith_after follows resets relocated.placed source with ⟨ordered, unmoved, settled⟩
  exact ⟨ordered, relocated.trans_unmoved unmoved, settled⟩

end Policy

theorem validatePosition_fits {zone : Zone} {length : ℕ} {position : Option ℕ}
    (valid : validatePosition zone length position = .ok ()) : position.getD length ≤ length := by
  cases position with
  | none => exact le_rfl
  | some position =>
    rw [validatePosition, reject_eq_ok] at valid
    exact Nat.le_of_not_lt valid.1

theorem boardPositionToZonePosition_fits (world : World) (player : PlayerId) (boardPosition : ℕ) :
    world.boardPositionToZonePosition player boardPosition ≤ (world.zoneIndex player .play).length := by
  have bounded : ∀ position ∈ (world.zoneIndex player .play).zipIdx.filterMap (fun entry =>
      if world.entryIsBoardEntity entry.1 then some entry.2 else none), position < (world.zoneIndex player .play).length := by
    intro position member
    rcases List.mem_filterMap.mp member with ⟨entry, listed, chosen⟩
    have bound := List.snd_lt_of_mem_zipIdx listed
    split at chosen
    · cases chosen
      omega
    · cases chosen
  unfold boardPositionToZonePosition
  dsimp only
  split
  case h_1 position found => exact (bounded position (List.mem_of_getElem? found)).le
  case h_2 =>
    generalize last : List.getLast? _ = ending
    cases ending with
    | none => exact le_rfl
    | some position => exact bounded position (List.mem_of_getLast? last)

theorem resolveDestinationPosition_fits {world : World} {id : GameEntityId} {slot : Slot}
    {requested preserved position : Option ℕ}
    (resolved : world.resolveDestinationPosition id slot.1 slot.2 requested preserved = .ok position) :
    position.getD (world.slots slot).length ≤ (world.slots slot).length := by
  unfold resolveDestinationPosition at resolved
  cases requested with
  | none =>
    rcases bind_eq_ok.mp resolved with ⟨_, valid, same⟩
    cases same
    exact validatePosition_fits valid
  | some boardPosition =>
    dsimp only at resolved
    split at resolved
    case isTrue board =>
      rcases bind_eq_ok.mp resolved with ⟨_, valid, same⟩
      cases same
      show world.boardPositionToZonePosition slot.1 boardPosition ≤ (world.zoneIndex slot.1 slot.2).length
      rw [board.1]
      exact boardPositionToZonePosition_fits world slot.1 boardPosition
    case isFalse =>
      rcases bind_eq_ok.mp resolved with ⟨_, valid, same⟩
      cases same
      exact validatePosition_fits valid

theorem semanticZonePosition_isSome {world : World} {id : GameEntityId} {slot : Slot}
    (member : id ∈ world.slots slot) : (world.semanticZonePosition id slot.1 slot.2).isSome := by
  unfold semanticZonePosition
  split
  case isTrue board =>
    rw [List.isSome_idxOf?]
    apply List.mem_filter.mpr
    rw [← board.1]
    exact ⟨member, board.2⟩
  case isFalse => exact List.isSome_idxOf?.mpr member

theorem destinationIsFull_unlimited {zone : Zone} (unlimited : zone = .graveyard ∨ zone = .removedFromGame)
    {world : World} {id : GameEntityId} {player : PlayerId} : world.destinationIsFull id player zone = false := by
  have roomy : world.zoneIsFull player zone = false := by
    rcases unlimited with rfl | rfl <;> rfl
  have ordinary : zone ≠ .play ∧ zone ≠ .secret := by
    rcases unlimited with rfl | rfl <;> decide
  unfold destinationIsFull
  split
  · rfl
  · rw [roomy]
    cases world.get id (·.kind) with
    | none => rfl
    | some kind =>
      simp [generatedDestinationIsFull, roomy, ordinary]

theorem insertIntoZone_unlimited {zone : Zone} (unlimited : zone = .graveyard ∨ zone = .removedFromGame)
    {world : World} {id : GameEntityId} {player : PlayerId} (present : world.entities[id]?.isSome) :
    world.insertIntoZone id player zone none = .ok (world.insertIntoZoneUnchecked id player zone none) := by
  rcases Option.isSome_iff_exists.mp present with ⟨components, found⟩
  unfold insertIntoZone
  rw [found, destinationIsFull_unlimited unlimited]
  rfl

theorem present_of_place {world : World} {id : GameEntityId} {slot : Slot} {n : ℕ}
    (here : world.place id = some (slot, n)) : world.entities[id]?.isSome := by
  rcases get_place here with ⟨components, found, _⟩
  rw [found]
  rfl

theorem withoutEntry_present {world : World} (placed : world.Placed) {id : GameEntityId} {slot : Slot} {n : ℕ}
    (here : world.place id = some (slot, n)) : (world.withoutEntry slot n).entities[id]?.isSome := by
  rw [withoutEntry_entities placed, Option.isSome_map]
  exact present_of_place here

/-- Where a move can end: nowhere, in the slot it asked for, or in the graveyard. -/
inductive MoveResult (after : World → World → Prop) (world : World) (request : ZoneMoveRequest) :
    World × Except ZoneError ZoneMoveOutcome → Prop where
  | rejected (error : ZoneError) (reason : request.position.isSome ∨ world.place request.entity = none) :
      MoveResult after world request (world, .error error)
  | prevented
      (full : world.destinationIsFull request.entity request.destinationController request.destination = true) :
      MoveResult after world request (world, .ok .preventedByFullZone)
  | moved {slot : Slot} {n : ℕ} {other later : World} (position : ℕ)
      (here : world.place request.entity = some (slot, n))
      (room : slot = (request.destinationController, request.destination) ∨
        world.destinationIsFull request.entity request.destinationController request.destination = false)
      (relocated : Relocated world other request.entity (request.destinationController, request.destination))
      (settled : after (other.trackEntry request.entity) later) :
      MoveResult after world request (later, .ok (.moved slot.2 slot.1 position))
  | removed {slot : Slot} {n : ℕ} {other later : World} (position : ℕ)
      (here : world.place request.entity = some (slot, n))
      (full : world.destinationIsFull request.entity request.destinationController request.destination = true)
      (relocated : Relocated world other request.entity (slot.1, .graveyard))
      (settled : after (other.trackEntry request.entity) later) :
      MoveResult after world request (later, .ok (.fullZoneRemoval slot.2 slot.1 position))

theorem MoveResult.placed {after : World → World → Prop} (follows : Follows after) {world : World} (placed : world.Placed) {request : ZoneMoveRequest}
    {result : World × Except ZoneError ZoneMoveOutcome} (ended : MoveResult after world request result) :
    result.1.Placed := by
  cases ended with
  | rejected | prevented => exact placed
  | moved _ _ _ relocated settled => exact follows.placed settled (placed_trackEntry relocated.placed _)
  | removed _ _ _ relocated settled => exact follows.placed settled (placed_trackEntry relocated.placed _)

section Move

variable {after : World → World → Prop} (follows : Follows after) {reset : World → GameEntityId → World}

theorem resolveDestinationPosition_none {world : World} {id : GameEntityId} {slot : Slot} {preserved : Option ℕ}
    (fits : preserved.getD 0 ≤ (world.slots slot).length) :
    world.resolveDestinationPosition id slot.1 slot.2 none preserved = .ok preserved := by
  cases preserved with
  | none => rfl
  | some n =>
    have allowed : ¬ (world.zoneIndex slot.1 slot.2).length < n := Nat.not_lt.mpr fits
    unfold resolveDestinationPosition validateZonePosition validatePosition
    dsimp only
    rw [if_neg allowed]
    rfl

include follows in
theorem relocateWith_result {world : World} (placed : world.Placed) {request : ZoneMoveRequest}
    (resets : ∀ world : World, world.Placed → after world (reset world request.entity)) {slot : Slot}
    {n : ℕ} (here : world.place request.entity = some (slot, n))
    (room : slot = (request.destinationController, request.destination) ∨
      world.destinationIsFull request.entity request.destinationController request.destination = false) :
    MoveResult after world request (relocateWith reset world request slot.2 slot.1) := by
  have member := placed.located.mem_iff.mpr ⟨n, here⟩
  rcases Option.isSome_iff_exists.mp (semanticZonePosition_isSome member) with ⟨remembered, found⟩
  unfold relocateWith
  rw [found, removeFromIndex_eq placed here]
  dsimp only
  split
  case h_1 error failed =>
    rw [insert_withoutEntry placed here]
    apply MoveResult.rejected
    cases requested : request.position with
    | some position => exact .inl rfl
    | none =>
      -- the entity itself left an entry free where its position is kept
      exfalso
      rw [requested] at failed
      have fits : (if decide (slot.2 = request.destination ∧ slot.1 = request.destinationController) = true then some n
          else none).getD 0 ≤
          ((world.withoutEntry slot n).slots (request.destinationController, request.destination)).length := by
        split
        case isTrue same =>
          have kept := of_decide_eq_true same
          have target : (request.destinationController, request.destination) = slot := Prod.ext kept.2.symm kept.1.symm
          rcases List.getElem?_eq_some_iff.mp ((placed.located slot n request.entity).mpr here) with ⟨bound, _⟩
          rw [target, withoutEntry_slots, Function.update_self, List.length_eraseIdx_of_lt bound]
          show n ≤ _
          omega
        case isFalse => exact Nat.zero_le _
      rw [resolveDestinationPosition_none fits] at failed
      cases failed
  case h_2 position resolved =>
    have but := withoutEntry_placedBut placed here
    have inserted := relocated_insert but
      (@resolveDestinationPosition_fits _ _ (request.destinationController, request.destination) _ _ _ resolved)
      (withoutEntry_present placed here)
    rcases relocated_policy follows resets (relocated_withoutEntry placed here inserted) slot.2 with ⟨middle, relocated, settled⟩
    exact .moved remembered here room relocated settled

include follows in
theorem moveToGraveyardAfterFailedMoveWith_result {world : World} (placed : world.Placed) {request : ZoneMoveRequest}
    (resets : ∀ world : World, world.Placed → after world (reset world request.entity)) {slot : Slot}
    {n : ℕ} (here : world.place request.entity = some (slot, n))
    (full : world.destinationIsFull request.entity request.destinationController request.destination = true)
    (kind : ZoneMovementKind) :
    MoveResult after world request
      (moveToGraveyardAfterFailedMoveWith reset world request.entity slot.2 slot.1 kind) := by
  have member := placed.located.mem_iff.mpr ⟨n, here⟩
  rcases Option.isSome_iff_exists.mp (semanticZonePosition_isSome member) with ⟨remembered, found⟩
  have but := withoutEntry_placedBut placed here
  have present := withoutEntry_present placed here
  have inserted := @relocated_insert _ _ but (slot.1, .graveyard) none le_rfl present
  have policy := @relocated_policy after follows reset ⟨request.entity, slot.1, .graveyard, none, kind⟩ resets _ _ _
    (relocated_withoutEntry placed here inserted) slot.2
  rcases policy with ⟨middle, relocated, settled⟩
  unfold moveToGraveyardAfterFailedMoveWith
  rw [found, removeFromIndex_eq placed here]
  dsimp only
  rw [insertIntoZone_unlimited (.inl rfl) present]
  dsimp only
  split
  · exact .removed remembered here full relocated
      (follows.trans settled (follows.unmoved (unmoved_recordFullZoneDeath _ request.entity remembered)))
  · exact .removed remembered here full relocated settled

theorem place_eq_none {world : World} {id : GameEntityId}
    (missing : ∀ zone controller, world.get id (·.zone) = some zone → world.get id (·.controller) = some controller →
      False) : world.place id = none := by
  cases here : world.place id with
  | none => rfl
  | some found =>
    rcases get_place here with ⟨components, entity, controlled, zoned, _⟩
    unfold World.get at missing
    rw [entity] at missing
    exact (missing _ _ zoned controlled).elim

include follows in
theorem moveEntityWith_result {world : World} (placed : world.Placed) (request : ZoneMoveRequest)
    (resets : ∀ world : World, world.Placed → after world (reset world request.entity)) :
    MoveResult after world request (moveEntityWith reset world request) := by
  unfold moveEntityWith
  split
  case h_1 source controller zoned controlled =>
    rcases Option.isSome_iff_exists.mp (placed.complete request.entity (by rw [zoned]; rfl)) with ⟨⟨slot, n⟩, here⟩
    rcases get_place here with ⟨components, found, inController, inZone, _⟩
    unfold World.get at zoned controlled
    rw [found] at zoned controlled
    have sameZone : slot.2 = source := Option.some.inj (inZone.symm.trans zoned)
    have sameController : slot.1 = controller := Option.some.inj (inController.symm.trans controlled)
    subst sameZone sameController
    dsimp only
    split
    case isTrue blocked =>
      have full := (Bool.and_eq_true_iff.mp blocked).2
      split
      · exact .prevented full
      · exact moveToGraveyardAfterFailedMoveWith_result follows placed resets here full _
    case isFalse open_ =>
      apply relocateWith_result follows placed resets here
      cases full : world.destinationIsFull request.entity request.destinationController request.destination with
      | false => exact .inr rfl
      | true =>
        rw [full] at open_
        have same : slot.2 = request.destination ∧ slot.1 = request.destinationController := by
          simpa using open_
        exact .inl (Prod.ext same.2 same.1)
  case h_2 missing => exact .rejected _ (.inr (place_eq_none missing))

theorem moveDetached_settled {world : World} (placed : world.Placed) {attachment mover : GameEntityId}
    (apart : attachment ≠ mover) : Settled mover world (world.moveDetached attachment) := by
  unfold moveDetached
  dsimp only
  have detached : Unmoved world (world.modify attachment fun components => { components with attachedTo := none }) := by
    apply unmoved_modify
    · intro components
      rfl
    · intro components
      exact .inr rfl
  apply detached.settled.trans
  have start := detached.placed placed
  generalize world.modify attachment _ = middle at start
  have result := @moveEntityWith_result Unmoved follows_unmoved (fun world _ => world) _ start
    (middle.detachRequest attachment) (fun world _ => .refl world)
  generalize moveEntityWith (fun world _ => world) middle (middle.detachRequest attachment) = ended at result
  cases result with
  | rejected | prevented => exact .refl
  | moved _ _ _ relocated settled =>
    exact .head (.detached apart relocated) settled.settled
  | removed _ _ full _ _ =>
    have roomy := @destinationIsFull_unlimited .removedFromGame (.inr rfl) middle attachment
      (middle.detachRequest attachment).destinationController
    cases full.symm.trans roomy

theorem foldl_moveDetached_settled {mover : GameEntityId} (attachments : List GameEntityId) {world : World}
    (placed : world.Placed) (apart : ∀ attachment ∈ attachments, attachment ≠ mover) :
    Settled mover world (attachments.foldl moveDetached world) := by
  induction attachments generalizing world with
  | nil => exact .refl
  | cons attachment rest ih =>
    have first := moveDetached_settled placed (apart attachment List.mem_cons_self)
    exact first.trans (ih (first.placed placed) fun later listed => apart later (List.mem_cons_of_mem _ listed))

theorem resetRuntimeState_settled [QueryOrder] {world : World} (placed : world.Placed) (id : GameEntityId) :
    Settled id world (world.resetRuntimeState id) := by
  unfold resetRuntimeState
  dsimp only
  have repaired : Unmoved world (world.modify id fun components =>
      { components with
        weaponState := components.weaponState.map fun state => { state with durability := state.baseDurability } }) := by
    apply unmoved_change
    intro components
    exact ⟨rfl, rfl⟩
  apply repaired.settled.trans
  have start := repaired.placed placed
  generalize world.modify id _ = middle at start
  split
  case h_1 => exact .refl
  case h_2 before _ =>
    have apart : ∀ attachment ∈ (if before.keepEnchantments = true then [] else
        (QueryOrder.iterEntities middle).filter fun candidate => middle.get candidate (·.attachedTo) = some id),
        attachment ≠ id := by
      intro attachment listed
      split at listed
      · cases listed
      · rintro rfl
        exact start.unattached attachment (of_decide_eq_true (List.mem_filter.mp listed).2)
    apply (foldl_moveDetached_settled _ start apart).trans
    apply Unmoved.settled
    have cleared : ∀ world : World, Unmoved world (world.modify id (resetComponents before)) := by
      intro world
      apply unmoved_change
      intro components
      exact ⟨rfl, rfl⟩
    apply (cleared _).trans
    apply (unmoved_recalculateStats _ id).trans
    exact (unmoved_recalculateKeywords _ id).trans (unmoved_recalculateCost _ id)

theorem moveEntityWithRequest_result [QueryOrder] {world : World} (placed : world.Placed) (request : ZoneMoveRequest) :
    MoveResult (Settled request.entity) world request (world.moveEntityWithRequest request) :=
  moveEntityWith_result (follows_settled request.entity) placed request fun _ placed =>
    resetRuntimeState_settled placed request.entity

end Move

end World

end HearthstoneSimulator

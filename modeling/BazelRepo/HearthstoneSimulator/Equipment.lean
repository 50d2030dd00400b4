import BazelRepo.HearthstoneSimulator.Limits

namespace HearthstoneSimulator

open Library

namespace World

def activeWeapon (world : World) (player : PlayerId) : Option GameEntityId :=
  (world.weaponEquipment.active player).filter fun id =>
    world.get id (·.zone) = some .play && world.get id (·.kind) = some .weapon &&
      world.get id (·.controller) = some player

def setPending (world : World) (pending : BTreeMap GameEntityId (Option GameEntityId)) : World :=
  { world with weaponEquipment := { world.weaponEquipment with pending := pending } }

def setActive (world : World) (player : PlayerId) (weapon : GameEntityId) : World :=
  { world with
    weaponEquipment :=
      { world.weaponEquipment with active := Function.update world.weaponEquipment.active player (some weapon) } }

def traceMove (world : World) (id : GameEntityId) (source destination : Zone) : World :=
  { world with canonicalTrace := world.canonicalTrace ++ [.zoneMoved id source destination] }

section Equipment

variable [QueryOrder]

/-- Opens the replacement scope of a weapon and makes it the wielded one. The text of a failed move also
shows how the move ended. -/
def beginEquip (world : World) (player : PlayerId) (weapon : GameEntityId) : World × Except SimulationError Unit :=
  let previous := world.activeWeapon player
  if previous = some weapon ∨ world.weaponEquipment.pending.contains weapon then
    (world, .error (.invariant "weapon already being equipped"))
  else
    let opened := world.setPending (world.weaponEquipment.pending.insert weapon previous)
    match opened.moveEntity weapon .play none with
    | (moved, .ok (.moved source _ _)) =>
      let allocated := ((moved.traceMove weapon source .play).setActive player weapon).allocatePlayOrder
      (allocated.1.modify weapon fun components => { components with playOrder := some allocated.2 }, .ok ())
    | (moved, _) =>
      (moved.setPending (moved.weaponEquipment.pending.erase weapon), .error (.invariant "equip move failed"))

def retireWeapon (world : World) (weapon : GameEntityId) : World × Except SimulationError Nat :=
  match world.get weapon (·.controller) with
  | none => (world, .error (.entityNotFound weapon))
  | some controller =>
    let position := (world.semanticZonePosition weapon controller .play).getD 0
    match world.moveEntityWithRequest ⟨weapon, controller, .graveyard, none, .death⟩ with
    | (moved, .ok (.moved source _ _)) => (moved.traceMove weapon source .graveyard, .ok position)
    | (moved, .ok _) => (moved, .error (.invariant "weapon retirement failed"))
    | (moved, .error error) => (moved, .error (.zone error))

def isWeaponInPlay (world : World) (id : GameEntityId) : Bool :=
  world.get id (·.zone) = some .play && world.get id (·.kind) = some .weapon

/-- Closes the replacement scope of a weapon and retires the one it replaced. -/
def finishEquip (world : World) (weapon : GameEntityId) : World × Except SimulationError Unit :=
  match world.weaponEquipment.pending[weapon]? with
  | none => (world, .error (.invariant "missing weapon replacement scope"))
  | some previous =>
    let closed := world.setPending (world.weaponEquipment.pending.erase weapon)
    match previous.filter closed.isWeaponInPlay with
    | none => (closed, .ok ())
    | some previous =>
      match closed.retireWeapon previous with
      | (retired, .ok position) => (retired.recordFullZoneDeath previous position, .ok ())
      | (retired, .error error) => (retired, .error error)

def abandonEquip (world : World) (old : GameEntityId) : World :=
  if world.isWeaponInPlay old ∧ world.weaponEquipment.active .one ≠ some old ∧
      world.weaponEquipment.active .two ≠ some old then
    (world.retireWeapon old).1
  else
    world

def abandonEquips (world : World) : World :=
  (world.weaponEquipment.pending.toList.filterMap Prod.snd).foldl abandonEquip (world.setPending ∅)

end Equipment

end World

theorem supersedes_iff {equipment : WeaponEquipment} {id : GameEntityId} :
    equipment.supersedes id = true ↔ ∃ scope : GameEntityId, equipment.pending[scope]? = some (some id) := by
  unfold WeaponEquipment.supersedes
  rw [List.any_eq_true]
  constructor
  · rintro ⟨⟨scope, old⟩, listed, same⟩
    have replaced : old = some id := of_decide_eq_true same
    subst replaced
    exact ⟨scope, BTreeMap.mem_toList.mp listed⟩
  · rintro ⟨scope, found⟩
    exact ⟨(scope, some id), BTreeMap.mem_toList.mpr found, decide_eq_true rfl⟩

namespace World

def weaponsInPlay (world : World) (player : PlayerId) : List GameEntityId :=
  (world.zoneIndex player .play).filter fun id => world.get id (·.kind) = some .weapon

/-- The weapons of a player in Play that neither are wielded nor wait for the end of their replacement. -/
def spareWeapons (world : World) (excused : List GameEntityId) (player : PlayerId) : List GameEntityId :=
  (world.weaponsInPlay player).filter fun id =>
    ¬ world.weaponEquipment.supersedes id ∧ world.weaponEquipment.active player ≠ some id ∧ id ∉ excused

/-- Wielded weapons are in Play, and the wielded one has room beside the spare ones. -/
structure Equipped (excused : List GameEntityId) (world : World) : Prop where
  wielded : ∀ player id, world.weaponEquipment.active player = some id →
    id ∈ world.slots (player, .play) ∧ world.get id (·.kind) = some .weapon
  spare : ∀ player, (world.spareWeapons excused player).length < world.ruleset.weaponLimit

theorem mem_weaponsInPlay {world : World} {player : PlayerId} {id : GameEntityId} :
    id ∈ world.weaponsInPlay player ↔ id ∈ world.slots (player, .play) ∧ world.get id (·.kind) = some .weapon := by
  unfold weaponsInPlay slots
  rw [List.mem_filter, decide_eq_true_eq]

theorem mem_spareWeapons {world : World} {excused : List GameEntityId} {player : PlayerId} {id : GameEntityId} :
    id ∈ world.spareWeapons excused player ↔
      id ∈ world.weaponsInPlay player ∧ world.weaponEquipment.supersedes id = false ∧
        world.weaponEquipment.active player ≠ some id ∧ id ∉ excused := by
  unfold spareWeapons
  rw [List.mem_filter, decide_eq_true_eq, Bool.not_eq_true]

theorem Placed.nodup_spareWeapons {world : World} (placed : world.Placed) (excused : List GameEntityId)
    (player : PlayerId) : (world.spareWeapons excused player).Nodup :=
  ((placed.located.nodup (player, .play)).filter _).filter _

theorem Equipped.mono {world other : World} {excused less : List GameEntityId} (equipped : Equipped excused world)
    (placed : other.Placed) (ruleset : other.ruleset = world.ruleset)
    (wielded : ∀ player id, other.weaponEquipment.active player = some id →
      id ∈ other.slots (player, .play) ∧ other.get id (·.kind) = some .weapon)
    (spare : ∀ player, ∀ id ∈ other.spareWeapons less player, id ∈ world.spareWeapons excused player) :
    Equipped less other := by
  refine ⟨wielded, ?_⟩
  intro player
  rw [ruleset]
  exact (length_le_of_subset (placed.nodup_spareWeapons less player) (spare player)).trans_lt (equipped.spare player)

theorem Equipped.unmoved {world other : World} {excused : List GameEntityId} (equipped : Equipped excused world)
    (unmoved : Unmoved world other) : Equipped excused other := by
  have kinds : ∀ id, other.get id (·.kind) = world.get id (·.kind) := by
    intro id
    rw [get_kind, unmoved.zoned, ← get_kind]
  have slots : other.slots = world.slots := by
    unfold slots
    rw [unmoved.index]
  have weapons : other.weaponsInPlay = world.weaponsInPlay := by
    funext player
    unfold weaponsInPlay
    rw [unmoved.index]
    congr 1
    funext id
    rw [kinds]
  refine ⟨?_, ?_⟩
  · intro player id active
    rw [slots, kinds]
    rw [unmoved.equipment] at active
    exact equipped.wielded player id active
  · intro player
    unfold spareWeapons
    rw [weapons, unmoved.equipment, unmoved.ruleset]
    exact equipped.spare player

section Tracking

variable {world other : World} {id : GameEntityId} {slot : Slot} (relocated : Relocated world other id slot)

include relocated

theorem Relocated.components : ∃ components, other.entities[id]? = some components ∧
    components.controller = some slot.1 ∧ components.zone = some slot.2 ∧
      components.kind = world.get id (·.kind) := by
  rcases relocated.placed.located.mem_iff.mp ((relocated.arrived slot).mpr rfl) with ⟨n, here⟩
  rcases get_place here with ⟨components, found, controlled, zoned, _⟩
  refine ⟨components, found, controlled, zoned, ?_⟩
  rw [← relocated.kinds]
  unfold World.get
  rw [found]
  rfl

theorem Relocated.tracked_active (player : PlayerId) :
    (other.trackEntry id).weaponEquipment.active player =
      if slot = (player, .play) ∧ world.get id (·.kind) = some .weapon then
        if world.weaponEquipment.supersedes id then world.weaponEquipment.active player
        else some ((world.weaponEquipment.active player).getD id)
      else (world.weaponEquipment.active player).filter (· ≠ id) := by
  rcases slot with ⟨controller, zone⟩
  rcases relocated.components with ⟨components, found, controlled, zoned, kind⟩
  rw [← relocated.equipment, ← kind]
  show (other.trackedEquipment id).active player = _
  unfold trackedEquipment
  rw [found]
  dsimp only
  rw [controlled]
  dsimp only
  by_cases inPlay : components.zone = some .play ∧ components.kind = some .weapon
  · have there : zone = .play := Option.some.inj (zoned.symm.trans inPlay.1)
    subst there
    by_cases mine : player = controller
    · subst mine
      have whole : (other.weaponEquipment.active player).filter (fun _ => true) = other.weaponEquipment.active player := by
        cases other.weaponEquipment.active player <;> rfl
      cases other.weaponEquipment.supersedes id <;> simp [inPlay, whole]
    · have different : ¬ controller = player := fun same => mine same.symm
      cases other.weaponEquipment.supersedes id <;> simp [inPlay, mine, different]
  · have elsewhere : ¬ ((controller, zone) = (player, Zone.play) ∧ components.kind = some .weapon) := by
      rintro ⟨same, weapon⟩
      exact inPlay ⟨zoned.trans (congrArg some (congrArg Prod.snd same)), weapon⟩
    rw [if_neg elsewhere]
    simp [inPlay]

theorem Relocated.active_other {player : PlayerId} {a : GameEntityId} (different : a ≠ id) :
    (other.trackEntry id).weaponEquipment.active player = some a ↔
      world.weaponEquipment.active player = some a := by
  rw [relocated.tracked_active]
  split
  · split
    · rfl
    · cases world.weaponEquipment.active player with
      | none => simp [different.symm]
      | some weapon => rfl
  · rw [Option.filter_eq_some_iff]
    simp [different]

theorem Relocated.active_self {player : PlayerId}
    (active : (other.trackEntry id).weaponEquipment.active player = some id) :
    slot = (player, .play) ∧ world.get id (·.kind) = some .weapon := by
  rw [relocated.tracked_active] at active
  split at active
  case isTrue there => exact there
  case isFalse =>
    rw [Option.filter_eq_some_iff] at active
    simp at active

theorem Relocated.active_isSome {player : PlayerId} (there : slot = (player, .play))
    (weapon : world.get id (·.kind) = some .weapon) (current : world.weaponEquipment.supersedes id = false) :
    ((other.trackEntry id).weaponEquipment.active player).isSome := by
  rw [relocated.tracked_active, if_pos ⟨there, weapon⟩, current]
  rfl

theorem Equipped.tracked {excused : List GameEntityId} (equipped : Equipped excused world)
    (entry : ∀ player, slot = (player, .play) → id ∉ world.slots slot → world.get id (·.kind) = some .weapon →
      id ∈ excused ∨ world.weaponEquipment.supersedes id ∨ world.weaponEquipment.active player = none ∨
        (world.spareWeapons excused player).length + 1 < world.ruleset.weaponLimit) :
    Equipped excused (other.trackEntry id) := by
  refine ⟨?_, ?_⟩
  · intro player a active
    show a ∈ other.slots (player, .play) ∧ other.get a (·.kind) = some .weapon
    rw [relocated.kinds]
    by_cases same : a = id
    · subst same
      rcases relocated.active_self active with ⟨there, weapon⟩
      exact ⟨(relocated.arrived _).mpr there.symm, weapon⟩
    · rcases equipped.wielded player a ((relocated.active_other same).mp active) with ⟨inside, weapon⟩
      exact ⟨(relocated.others _ a same).mpr inside, weapon⟩
  · intro player
    show ((other.trackEntry id).spareWeapons excused player).length < other.ruleset.weaponLimit
    rw [relocated.ruleset]
    have nodup := (placed_trackEntry relocated.placed id).nodup_spareWeapons excused player
    have pending : ∀ a, (other.trackEntry id).weaponEquipment.supersedes a = world.weaponEquipment.supersedes a := by
      intro a
      rw [← relocated.equipment]
      show (other.trackedEquipment id).supersedes a = _
      unfold trackedEquipment
      split <;> rfl
    have spare : ∀ a ∈ (other.trackEntry id).spareWeapons excused player, a ≠ id ∨ id ∈ world.slots slot →
        a ∈ world.spareWeapons excused player := by
      intro a listed known
      rcases mem_spareWeapons.mp listed with ⟨inPlay, current, idle, charged⟩
      rcases mem_weaponsInPlay.mp inPlay with ⟨inside, weapon⟩
      have weaponBefore : world.get a (·.kind) = some .weapon := (relocated.kinds a).symm.trans weapon
      rw [pending] at current
      by_cases same : a = id
      · subst same
        have there : slot = (player, .play) := ((relocated.arrived _).mp inside).symm
        refine mem_spareWeapons.mpr ⟨mem_weaponsInPlay.mpr ⟨?_, weaponBefore⟩, current, ?_, charged⟩
        · rw [← there]
          exact known.resolve_left fun different => different rfl
        · intro active
          apply idle
          rw [relocated.tracked_active, if_pos ⟨there, weaponBefore⟩, current, active]
          rfl
      · refine mem_spareWeapons.mpr ⟨mem_weaponsInPlay.mpr ⟨?_, weaponBefore⟩, current, ?_, charged⟩
        · exact (relocated.others _ a same).mp inside
        · intro active
          exact idle ((relocated.active_other same).mpr active)
    by_cases enters : id ∈ (other.trackEntry id).spareWeapons excused player ∧ id ∉ world.slots slot
    · rcases mem_spareWeapons.mp enters.1 with ⟨inPlay, current, idle, charged⟩
      rcases mem_weaponsInPlay.mp inPlay with ⟨inside, weapon⟩
      have weaponBefore : world.get id (·.kind) = some .weapon := (relocated.kinds id).symm.trans weapon
      rw [pending] at current
      have there : slot = (player, .play) := ((relocated.arrived _).mp inside).symm
      rcases Option.isSome_iff_exists.mp (relocated.active_isSome there weaponBefore current) with ⟨wielder, active⟩
      have different : wielder ≠ id := by
        rintro rfl
        exact idle active
      have before : world.weaponEquipment.active player = some wielder := (relocated.active_other different).mp active
      have grown : ((other.trackEntry id).spareWeapons excused player).length ≤
          (id :: world.spareWeapons excused player).length := by
        apply length_le_of_subset nodup
        intro a listed
        by_cases same : a = id
        · exact List.mem_cons.mpr (.inl same)
        · exact List.mem_cons_of_mem _ (spare a listed (.inl same))
      rw [List.length_cons] at grown
      rcases entry player there enters.2 weaponBefore with excused | superseded | idle | room
      · exact absurd excused charged
      · rw [current] at superseded
        cases superseded
      · rw [before] at idle
        cases idle
      · omega
    · have shrunk : ((other.trackEntry id).spareWeapons excused player).length ≤
          (world.spareWeapons excused player).length := by
        apply length_le_of_subset nodup
        intro a listed
        apply spare a listed
        by_cases same : a = id
        · subst same
          exact .inr (not_not.mp fun outside => enters ⟨listed, outside⟩)
        · exact .inl same
      exact shrunk.trans_lt (equipped.spare player)

end Tracking

theorem Equipped.settling {mover : GameEntityId} {excused : List GameEntityId} {world other : World}
    (equipped : Equipped excused world) (settling : Settling mover world other) :
    Equipped excused other := by
  cases settling with
  | unmoved unmoved => exact equipped.unmoved unmoved
  | detached _ relocated =>
    apply equipped.tracked relocated
    intro player there
    cases there

theorem Equipped.settled {mover : GameEntityId} {excused : List GameEntityId} {world other : World}
    (equipped : Equipped excused world) (settled : Settled mover world other) :
    Equipped excused other := by
  induction settled with
  | refl => exact equipped
  | tail _ settling ih => exact ih.settling settling

/-- A weapon whose own replacement is still open would come back to Play beside another wielded one, though
the limit leaves no room. -/
def Reenters (world : World) (id : GameEntityId) (player : PlayerId) : Prop :=
  world.weaponEquipment.pending.contains id ∧ world.get id (·.kind) = some .weapon ∧
    world.get id (·.controller) = some player ∧ world.get id (·.zone) ≠ some .play ∧
    world.weaponEquipment.supersedes id = false ∧ (world.weaponEquipment.active player).isSome ∧
    world.ruleset.weaponLimit ≤ (world.spareWeapons [] player).length + 1

theorem Placed.mem_slots {world : World} (placed : world.Placed) {id : GameEntityId} {player : PlayerId} {zone : Zone}
    (controlled : world.get id (·.controller) = some player) (zoned : world.get id (·.zone) = some zone) :
    id ∈ world.slots (player, zone) := by
  rcases Option.isSome_iff_exists.mp (placed.complete id (by rw [zoned]; rfl)) with ⟨⟨slot, n⟩, here⟩
  rcases get_place here with ⟨components, found, inController, inZone, _⟩
  unfold World.get at controlled zoned
  rw [found] at controlled zoned
  have sameController : slot.1 = player := Option.some.inj (inController.symm.trans controlled)
  have sameZone : slot.2 = zone := Option.some.inj (inZone.symm.trans zoned)
  have same : slot = (player, zone) := Prod.ext sameController sameZone
  rw [← same]
  exact placed.located.mem_iff.mpr ⟨n, here⟩

theorem length_weaponsInPlay (world : World) (player : PlayerId) :
    (world.weaponsInPlay player).length = world.countKind (world.zoneIndex player .play) .weapon := by
  unfold weaponsInPlay countKind
  rw [List.countP_eq_length_filter]

theorem length_spareWeapons_le (world : World) (excused : List GameEntityId) (player : PlayerId) :
    (world.spareWeapons excused player).length ≤ (world.spareWeapons [] player).length := by
  unfold spareWeapons
  apply List.Sublist.length_le
  apply List.monotone_filter_right
  intro id spare
  simp only [decide_eq_true_eq] at spare ⊢
  exact ⟨spare.1, spare.2.1, List.not_mem_nil⟩

theorem Equipped.length_lt_weaponsInPlay {excused : List GameEntityId} {world : World}
    (equipped : Equipped excused world) (placed : world.Placed) {player : PlayerId} {wielder : GameEntityId}
    (active : world.weaponEquipment.active player = some wielder) :
    (world.spareWeapons excused player).length < (world.weaponsInPlay player).length := by
  have held : (wielder :: world.spareWeapons excused player).length ≤ (world.weaponsInPlay player).length := by
    apply length_le_of_subset
    · rw [List.nodup_cons]
      exact ⟨fun listed => (mem_spareWeapons.mp listed).2.2.1 active, placed.nodup_spareWeapons excused player⟩
    · intro a listed
      rcases List.mem_cons.mp listed with rfl | listed
      · exact mem_weaponsInPlay.mpr (equipped.wielded player a active)
      · exact (mem_spareWeapons.mp listed).1
  exact held

theorem Equipped.entry {excused : List GameEntityId} {world : World} (equipped : Equipped excused world)
    (placed : world.Placed) {id : GameEntityId} {player : PlayerId}
    (free : world.destinationIsFull id player .play = false) (outside : id ∉ world.slots (player, .play))
    (weapon : world.get id (·.kind) = some .weapon) (steady : ¬ world.Reenters id player) :
    world.weaponEquipment.supersedes id ∨ world.weaponEquipment.active player = none ∨
      (world.spareWeapons excused player).length + 1 < world.ruleset.weaponLimit := by
  cases idle : world.weaponEquipment.active player with
  | none => exact .inr (.inl rfl)
  | some wielder =>
    unfold destinationIsFull at free
    split at free
    case isTrue exempt =>
      rcases replacementExempt_eq.mp exempt with ⟨_, controlled, _, opened | superseded | active⟩
      · cases current : world.weaponEquipment.supersedes id with
        | true => exact .inl rfl
        | false =>
          have elsewhere : world.get id (·.zone) ≠ some .play := by
            intro zoned
            exact outside (placed.mem_slots controlled zoned)
          have shorter := world.length_spareWeapons_le excused player
          refine .inr (.inr (Nat.lt_of_not_le fun filled => steady ?_))
          exact ⟨opened, weapon, controlled, elsewhere, current, by rw [idle]; rfl, by omega⟩
      · exact .inl superseded
      · exact absurd (equipped.wielded player id active).1 outside
    case isFalse =>
      split at free
      · cases free
      case isFalse open_ =>
        rw [Bool.not_eq_true] at open_
        rw [weapon] at free
        have below : world.countKind (world.zoneIndex player .play) .weapon < world.ruleset.weaponLimit :=
          kindLimit_of_roomy (by simpa [generatedDestinationIsFull, open_] using free) rfl
        rw [← length_weaponsInPlay] at below
        have fewer := equipped.length_lt_weaponsInPlay placed idle
        exact .inr (.inr (by omega))

theorem Equipped.result {excused : List GameEntityId} {world : World} (equipped : Equipped excused world)
    (placed : world.Placed) {request : ZoneMoveRequest}
    (steady : request.destination = .play → request.entity ∉ excused →
      ¬ world.Reenters request.entity request.destinationController)
    {result : World × Except ZoneError ZoneMoveOutcome}
    (ended : MoveResult (Settled request.entity) world request result) : Equipped excused result.1 := by
  rcases request with ⟨id, controller, destination, position, kind⟩
  cases ended with
  | rejected | prevented => exact equipped
  | moved _ here room relocated settled =>
    apply Equipped.settled _ settled
    apply equipped.tracked relocated
    intro player there outside weapon
    have free := room.resolve_left fun same => outside (by
      rw [← same]
      exact placed.located.mem_iff.mpr ⟨_, here⟩)
    cases there
    by_cases charged : id ∈ excused
    · exact .inl charged
    · exact .inr (equipped.entry placed free outside weapon (steady rfl charged))
  | removed _ _ _ relocated settled =>
    apply Equipped.settled _ settled
    apply equipped.tracked relocated
    intro player there
    cases there

theorem Settling.mem_iff {mover : GameEntityId} {world other : World} (settling : Settling mover world other)
    (slot : Slot) : mover ∈ other.slots slot ↔ mover ∈ world.slots slot := by
  cases settling with
  | unmoved unmoved =>
    unfold slots
    rw [unmoved.index]
  | detached apart relocated => exact relocated.others slot mover fun same => apart same.symm

theorem Settled.mem_iff {mover : GameEntityId} {world other : World} (settled : Settled mover world other) (slot : Slot) :
    mover ∈ other.slots slot ↔ mover ∈ world.slots slot := by
  induction settled with
  | refl => exact Iff.rfl
  | tail _ settling ih => exact (settling.mem_iff slot).trans ih

theorem Settling.kinds {mover : GameEntityId} {world other : World} (settling : Settling mover world other)
    (id : GameEntityId) : other.get id (·.kind) = world.get id (·.kind) := by
  cases settling with
  | unmoved unmoved => rw [get_kind, unmoved.zoned, ← get_kind]
  | detached _ relocated => exact relocated.kinds id

theorem Settled.kinds {mover : GameEntityId} {world other : World} (settled : Settled mover world other)
    (id : GameEntityId) : other.get id (·.kind) = world.get id (·.kind) := by
  induction settled with
  | refl => rfl
  | tail _ settling ih => exact (settling.kinds id).trans ih

theorem trackEntry_pending (world : World) (id : GameEntityId) :
    (world.trackEntry id).weaponEquipment.pending = world.weaponEquipment.pending := by
  show (world.trackedEquipment id).pending = _
  unfold trackedEquipment
  split <;> rfl

theorem Settling.pending {mover : GameEntityId} {world other : World} (settling : Settling mover world other) :
    other.weaponEquipment.pending = world.weaponEquipment.pending := by
  cases settling with
  | unmoved unmoved => rw [unmoved.equipment]
  | detached _ relocated => rw [trackEntry_pending, relocated.equipment]

theorem Settled.pending {mover : GameEntityId} {world other : World} (settled : Settled mover world other) :
    other.weaponEquipment.pending = world.weaponEquipment.pending := by
  induction settled with
  | refl => rfl
  | tail _ settling ih => exact settling.pending.trans ih

end World

end HearthstoneSimulator

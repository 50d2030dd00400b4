import BazelRepo.HearthstoneSimulator.Replacement

namespace HearthstoneSimulator

open Library

inductive ZoneOp where
  | insert (entity : GameEntityId) (player : PlayerId) (zone : Zone) (position : Option Nat)
  | spawn (entity : GameEntityId) (player : PlayerId) (zone : Zone) (position : Option Nat)
  | move (request : ZoneMoveRequest)
  | beginEquip (player : PlayerId) (weapon : GameEntityId)
  | finishEquip (weapon : GameEntityId)
  | abandonEquips

namespace ZoneOp

/-- What the callers of an operation see to. Only cards bring weapons into the game, and a card is tracked
when it is spawned; equipped weapons belong to the player who equips them. -/
def ready (world : World) : ZoneOp → Bool
  | .insert entity _ _ _ => world.get entity (·.zone) = none && world.get entity (·.kind) ≠ some .weapon
  | .spawn entity _ _ _ => world.get entity (·.zone) = none && !world.weaponEquipment.pending.contains entity
  | .beginEquip player weapon =>
    world.get weapon (·.kind) = some .weapon && world.get weapon (·.controller) = some player
  | .move _ | .finishEquip _ | .abandonEquips => true

def run [QueryOrder] (world : World) : ZoneOp → World
  | .insert entity player zone position =>
    match world.insertIntoZone entity player zone position with
    | .ok inserted => inserted
    | .error _ => world
  | .spawn entity player zone position =>
    match world.insertIntoZone entity player zone position with
    | .ok inserted => inserted.trackEntry entity
    | .error _ => world
  | .move request => (world.moveEntityWithRequest request).1
  | .beginEquip player weapon => (world.beginEquip player weapon).1
  | .finishEquip weapon => (world.finishEquip weapon).1
  | .abandonEquips => world.abandonEquips

/-- The operation brings a weapon back to Play whose own replacement is still open, beyond the limit. -/
def Reenters (world : World) : ZoneOp → Prop
  | .move request => request.destination = .play ∧ world.Reenters request.entity request.destinationController
  | _ => False

end ZoneOp

namespace World

/-- What everything else may change: it leaves zones, positions and equipment alone. -/
structure Change (world other : World) : Prop where
  index : other.zoneIndex = world.zoneIndex
  ruleset : other.ruleset = world.ruleset
  equipment : other.weaponEquipment = world.weaponEquipment
  zoned : ∀ id, (world.get id (·.zone)).isSome ∨ (other.get id (·.zone)).isSome → other.zoned id = world.zoned id
  unattached : ∀ id, other.get id (·.attachedTo) ≠ some id

/-- One step of a program, by an operation that is allowed or by something that moves nothing. -/
inductive Step [QueryOrder] (allowed : World → ZoneOp → Prop) (world : World) : World → Prop where
  | operation (op : ZoneOp) (ready : op.ready world = true) (allows : allowed world op) :
      Step allowed world (op.run world)
  | change {other : World} (change : Change world other) : Step allowed world other

abbrev Run [QueryOrder] (allowed : World → ZoneOp → Prop) : World → World → Prop :=
  Relation.ReflTransGen (Step allowed)

structure Start (world : World) : Prop where
  index : ∀ player zone, world.zoneIndex player zone = []
  unzoned : ∀ id, world.get id (·.zone) = none
  unattached : ∀ id, world.get id (·.attachedTo) ≠ some id
  unarmed : ∀ player, world.weaponEquipment.active player = none

theorem place_of_unzoned {world : World} {id : GameEntityId} (unzoned : world.get id (·.zone) = none) :
    world.place id = none := by
  apply place_eq_none
  intro zone _ zoned
  rw [unzoned] at zoned
  cases zoned

theorem Start.of_cards {world : World} (index : ∀ player zone, world.zoneIndex player zone = [])
    (unarmed : ∀ player, world.weaponEquipment.active player = none)
    (cards : ∀ (id : GameEntityId) (components : Components), world.entities[id]? = some components →
      components.zone = none ∧ components.attachedTo = none) : world.Start := by
  refine ⟨index, ?_, ?_, unarmed⟩
  · intro id
    unfold World.get
    cases found : world.entities[id]? with
    | none => rfl
    | some components => exact (cards id components found).1
  · intro id attached
    unfold World.get at attached
    cases found : world.entities[id]? with
    | none =>
      rw [found] at attached
      cases attached
    | some components =>
      rw [found] at attached
      cases (cards id components found).2.symm.trans attached

theorem Start.placed {world : World} (start : world.Start) : world.Placed := by
  refine ⟨?_, ?_, start.unattached⟩
  · intro slot n id
    unfold slots
    rw [start.index, place_of_unzoned (start.unzoned id)]
    simp
  · intro id zoned
    rw [start.unzoned] at zoned
    cases zoned

theorem Start.withinLimits {world : World} (start : world.Start) : world.WithinLimits := by
  intro quota _ player
  unfold counted
  rw [start.index]
  exact Nat.zero_le _

theorem Start.equipped {world : World} (start : world.Start) (armed : 1 ≤ world.ruleset.weaponLimit) :
    Equipped [] world := by
  refine ⟨?_, ?_⟩
  · intro player id active
    rw [start.unarmed] at active
    cases active
  · intro player
    unfold spareWeapons weaponsInPlay
    rw [start.index]
    exact armed

section Changes

variable {world other : World} (change : Change world other)

include change

theorem Change.place : other.place = world.place := by
  funext id
  by_cases zoned : (world.get id (·.zone)).isSome ∨ (other.get id (·.zone)).isSome
  · have reads : ∀ world : World, world.place id = (world.zoned id).bind fun zoned =>
        Components.place { controller := zoned.2.1, zone := zoned.2.2.1, zonePosition := zoned.2.2.2 } := by
      intro world
      apply get_eq_of_zoned
      intro components
      rfl
    rw [reads, reads, change.zoned id zoned]
  · rw [not_or, Bool.not_eq_true, Bool.not_eq_true, Option.isSome_eq_false_iff, Option.isSome_eq_false_iff,
      Option.isNone_iff_eq_none, Option.isNone_iff_eq_none] at zoned
    rw [place_of_unzoned zoned.1, place_of_unzoned zoned.2]

theorem Change.slots : other.slots = world.slots := by
  unfold World.slots
  rw [change.index]

theorem Change.placed (placed : world.Placed) : other.Placed := by
  refine ⟨?_, ?_, change.unattached⟩
  · rw [change.slots, change.place]
    exact placed.located
  · intro id zoned
    rw [change.place]
    apply placed.complete
    have same := change.zoned id (.inr zoned)
    rw [get_zone, same, ← get_zone] at zoned
    exact zoned

theorem Change.kind (placed : world.Placed) {id : GameEntityId} {slot : Slot} (member : id ∈ world.slots slot) :
    other.get id (·.kind) = world.get id (·.kind) := by
  rcases placed.located.mem_iff.mp member with ⟨n, here⟩
  rcases get_place here with ⟨components, found, _, zoned, _⟩
  have hasZone : (world.get id (·.zone)).isSome := by
    unfold World.get
    rw [found]
    show components.zone.isSome
    rw [zoned]
    rfl
  rw [get_kind, change.zoned id (.inl hasZone), ← get_kind]

theorem Change.withinLimits (limits : world.WithinLimits) (placed : world.Placed) : other.WithinLimits := by
  apply limits.congr change.ruleset
  intro player quota
  unfold counted
  rw [change.index]
  apply List.filter_congr
  intro id member
  rw [@Change.kind _ _ change placed id (player, quota.zone) member]

theorem Change.weaponsInPlay (placed : world.Placed) (player : PlayerId) :
    other.weaponsInPlay player = world.weaponsInPlay player := by
  unfold World.weaponsInPlay
  rw [change.index]
  apply List.filter_congr
  intro id member
  rw [@Change.kind _ _ change placed id (player, .play) member]

theorem Change.equipped (equipped : Equipped [] world) (placed : world.Placed) : Equipped [] other := by
  refine ⟨?_, ?_⟩
  · intro player id active
    rw [change.equipment] at active
    rcases equipped.wielded player id active with ⟨there, weapon⟩
    rw [change.slots, change.kind placed there]
    exact ⟨there, weapon⟩
  · intro player
    unfold spareWeapons
    rw [change.weaponsInPlay placed, change.equipment, change.ruleset]
    exact equipped.spare player

end Changes

section Insertion

variable {world inserted : World} {id : GameEntityId} {player : PlayerId} {zone : Zone} {position : Option ℕ}

theorem Placed.but (placed : world.Placed) (unzoned : world.get id (·.zone) = none) : world.PlacedBut id := by
  have nowhere : Function.update world.place id none = world.place := by
    rw [← place_of_unzoned unzoned]
    exact Function.update_eq_self id world.place
  refine ⟨?_, ?_, placed.unattached⟩
  · rw [nowhere]
    exact placed.located
  · intro a _ zoned
    exact placed.complete a zoned

theorem insertIntoZone_relocated (placed : world.Placed) (unzoned : world.get id (·.zone) = none)
    (done : world.insertIntoZone id player zone position = .ok inserted) :
    world.destinationIsFull id player zone = false ∧ Relocated world inserted id (player, zone) := by
  rcases bind_eq_ok.mp done with ⟨components, found, placing⟩
  rw [okOr_eq_ok] at found
  split at placing
  · cases placing
  case isFalse free =>
    rcases bind_eq_ok.mp placing with ⟨_, valid, same⟩
    cases same
    rw [Bool.not_eq_true] at free
    have fits : position.getD (world.slots (player, zone)).length ≤ (world.slots (player, zone)).length :=
      validatePosition_fits valid
    refine ⟨free, relocated_insert (placed.but unzoned) fits ?_⟩
    rw [found]
    rfl

theorem notMem_of_unzoned (placed : world.Placed) (unzoned : world.get id (·.zone) = none) (slot : Slot) :
    id ∉ world.slots slot := by
  intro member
  rcases placed.located.mem_iff.mp member with ⟨n, here⟩
  rw [place_of_unzoned unzoned] at here
  cases here

theorem Equipped.unarmed (equipped : Equipped [] world) {slot : Slot} (relocated : Relocated world inserted id slot)
    (kind : world.get id (·.kind) ≠ some .weapon) : Equipped [] inserted := by
  apply equipped.mono relocated.placed relocated.ruleset
  · intro owner a active
    rw [relocated.equipment] at active
    rcases equipped.wielded owner a active with ⟨there, weapon⟩
    have different : a ≠ id := by
      rintro rfl
      exact kind weapon
    rw [relocated.others _ a different, relocated.kinds]
    exact ⟨there, weapon⟩
  · intro owner a listed
    rcases mem_spareWeapons.mp listed with ⟨inPlay, current, idle, charged⟩
    rcases mem_weaponsInPlay.mp inPlay with ⟨there, weapon⟩
    rw [relocated.kinds] at weapon
    rw [relocated.equipment] at current idle
    have different : a ≠ id := by
      rintro rfl
      exact kind weapon
    rw [relocated.others _ a different] at there
    exact mem_spareWeapons.mpr ⟨mem_weaponsInPlay.mpr ⟨there, weapon⟩, current, idle, charged⟩

end Insertion

section Runs

variable [QueryOrder]

theorem operation_sound {world : World} (placed : world.Placed) (limits : world.WithinLimits) (op : ZoneOp)
    (ready : op.ready world = true) : (op.run world).Placed ∧ (op.run world).WithinLimits := by
  cases op with
  | insert id player zone position =>
    have unzoned : world.get id (·.zone) = none := by
      simp only [ZoneOp.ready, Bool.and_eq_true, decide_eq_true_eq] at ready
      exact ready.1
    unfold ZoneOp.run
    dsimp only
    split
    case h_1 inserted done =>
      rcases insertIntoZone_relocated placed unzoned done with ⟨free, relocated⟩
      exact ⟨relocated.placed, limits.relocated relocated (.inr (hasRoom_of_not_full free))⟩
    case h_2 => exact ⟨placed, limits⟩
  | spawn id player zone position =>
    have unzoned : world.get id (·.zone) = none := by
      simp only [ZoneOp.ready, Bool.and_eq_true, decide_eq_true_eq] at ready
      exact ready.1
    unfold ZoneOp.run
    dsimp only
    split
    case h_1 inserted done =>
      rcases insertIntoZone_relocated placed unzoned done with ⟨free, relocated⟩
      exact ⟨placed_trackEntry relocated.placed id,
        (limits.relocated relocated (.inr (hasRoom_of_not_full free))).trackEntry id⟩
    case h_2 => exact ⟨placed, limits⟩
  | move request =>
    have result := moveEntityWithRequest_result placed request
    exact ⟨result.placed (follows_settled request.entity) placed, limits.result placed result⟩
  | beginEquip player weapon =>
    simp only [ZoneOp.ready, Bool.and_eq_true, decide_eq_true_eq] at ready
    exact ⟨beginEquip_placed placed ready.1 ready.2, limits.beginEquip placed ready.1 ready.2⟩
  | finishEquip weapon => exact ⟨finishEquip_placed placed, limits.finishEquip placed⟩
  | abandonEquips => exact ⟨abandonEquips_placed placed, limits.abandonEquips placed⟩

theorem operation_equipped {world : World} (placed : world.Placed) (equipped : Equipped [] world) (op : ZoneOp)
    (ready : op.ready world = true) (steady : ¬ op.Reenters world) : Equipped [] (op.run world) := by
  cases op with
  | insert id player zone position =>
    simp only [ZoneOp.ready, Bool.and_eq_true, decide_eq_true_eq] at ready
    unfold ZoneOp.run
    dsimp only
    split
    case h_1 inserted done =>
      rcases insertIntoZone_relocated placed ready.1 done with ⟨_, relocated⟩
      exact equipped.unarmed relocated ready.2
    case h_2 => exact equipped
  | spawn id player zone position =>
    simp only [ZoneOp.ready, Bool.and_eq_true, decide_eq_true_eq, Bool.not_eq_true'] at ready
    unfold ZoneOp.run
    dsimp only
    split
    case h_1 inserted done =>
      rcases insertIntoZone_relocated placed ready.1 done with ⟨free, relocated⟩
      apply equipped.tracked relocated
      intro owner there outside weapon
      cases there
      have fresh : ¬ world.Reenters id player := by
        intro reenters
        cases ready.2.symm.trans reenters.1
      exact .inr (equipped.entry placed free outside weapon fresh)
    case h_2 => exact equipped
  | move request =>
    apply equipped.result placed
    · intro there _ reenters
      exact steady ⟨there, reenters⟩
    · exact moveEntityWithRequest_result placed request
  | beginEquip player weapon =>
    simp only [ZoneOp.ready, Bool.and_eq_true, decide_eq_true_eq] at ready
    exact equipped.beginEquip placed ready.1 ready.2
  | finishEquip weapon => exact equipped.finishEquip placed
  | abandonEquips => exact equipped.abandonEquips placed

theorem Step.sound {allowed : World → ZoneOp → Prop} {world other : World} (step : Step allowed world other)
    (placed : world.Placed) (limits : world.WithinLimits) : other.Placed ∧ other.WithinLimits := by
  cases step with
  | operation op ready _ => exact operation_sound placed limits op ready
  | change change => exact ⟨change.placed placed, change.withinLimits limits placed⟩

theorem Run.sound {allowed : World → ZoneOp → Prop} {start world : World} (run : Run allowed start world)
    (fresh : start.Start) : world.Placed ∧ world.WithinLimits := by
  induction run with
  | refl => exact ⟨fresh.placed, fresh.withinLimits⟩
  | tail _ step ih => exact step.sound ih.1 ih.2

/-- No operation of the run brings back a weapon beyond the limit while its replacement is open. -/
abbrev SteadyRun : World → World → Prop :=
  Run fun world op => ¬ op.Reenters world

theorem SteadyRun.equipped {start world : World} (run : SteadyRun start world) (fresh : start.Start)
    (armed : 1 ≤ start.ruleset.weaponLimit) : Equipped [] world := by
  induction run with
  | refl => exact fresh.equipped armed
  | tail before step ih =>
    have placed := (Run.sound before fresh).1
    cases step with
    | operation op ready steady => exact operation_equipped placed ih op ready steady
    | change change => exact change.equipped ih placed

end Runs

/-- Every entity with a zone stands once in the index, at its own controller, zone and position, and the
index holds nothing else. -/
structure Indexed (world : World) : Prop where
  entity : ∀ id (components : Components) zone, world.entities[id]? = some components → components.zone = some zone →
    ∃ controller position, components.controller = some controller ∧ components.zonePosition = some position ∧
      (world.zoneIndex controller zone)[position]? = some id ∧
      ∀ player other, (world.zoneIndex player other).count id = if (player, other) = (controller, zone) then 1 else 0
  entry : ∀ player zone position id, (world.zoneIndex player zone)[position]? = some id →
    ∃ components : Components, world.entities[id]? = some components ∧ components.controller = some player ∧
      components.zone = some zone ∧ components.zonePosition = some position

/-- The weapons in Play that no pending replacement excuses keep to the limit. -/
def WeaponsWithin (world : World) : Prop :=
  ∀ player, ((world.weaponsInPlay player).filter fun id => !world.weaponEquipment.supersedes id).length ≤
    world.ruleset.weaponLimit

/-- A refused move changes nothing, and neither does one that a full zone prevents. -/
def MovesAreAtomic [QueryOrder] (world : World) : Prop :=
  ∀ request, (∀ error, (world.moveEntityWithRequest request).2 = .error error →
      (world.moveEntityWithRequest request).1 = world) ∧
    ((world.moveEntityWithRequest request).2 = .ok .preventedByFullZone →
      (world.moveEntityWithRequest request).1 = world)

theorem Placed.indexed {world : World} (placed : world.Placed) : world.Indexed := by
  refine ⟨?_, ?_⟩
  · intro id components zone found zoned
    have hasZone : (world.get id (·.zone)).isSome := by
      unfold World.get
      rw [found]
      show components.zone.isSome
      rw [zoned]
      rfl
    rcases Option.isSome_iff_exists.mp (placed.complete id hasZone) with ⟨⟨⟨controller, there⟩, position⟩, here⟩
    rcases get_place here with ⟨same, entity, controlled, inZone, recorded⟩
    rw [found] at entity
    cases entity
    rw [zoned] at inZone
    have equal : zone = there := Option.some.inj inZone
    subst equal
    have stands := (placed.located (controller, zone) position id).mpr here
    refine ⟨controller, position, controlled, recorded, stands, ?_⟩
    intro player other
    have nodup : (world.zoneIndex player other).Nodup := placed.located.nodup (player, other)
    by_cases same : (player, other) = (controller, zone)
    · cases same
      rw [if_pos rfl]
      exact List.count_eq_one_of_mem nodup (List.mem_of_getElem? stands)
    · rw [if_neg same]
      apply List.count_eq_zero_of_not_mem
      intro member
      exact same (placed.located.slot_eq member (List.mem_of_getElem? stands))
  · intro player zone position id stands
    rcases get_place ((placed.located (player, zone) position id).mp stands) with ⟨components, found, rest⟩
    exact ⟨components, found, rest⟩

theorem Equipped.weaponsWithin {world : World} (equipped : Equipped [] world) (placed : world.Placed) :
    world.WeaponsWithin := by
  intro player
  have nodup : ((world.weaponsInPlay player).filter fun id => !world.weaponEquipment.supersedes id).Nodup :=
    ((placed.located.nodup (player, .play)).filter _).filter _
  have room := equipped.spare player
  cases active : world.weaponEquipment.active player with
  | none =>
    have spare : ((world.weaponsInPlay player).filter fun id => !world.weaponEquipment.supersedes id).length ≤
        (world.spareWeapons [] player).length := by
      apply length_le_of_subset nodup
      intro id listed
      simp only [List.mem_filter, Bool.not_eq_true'] at listed
      refine mem_spareWeapons.mpr ⟨listed.1, listed.2, ?_, List.not_mem_nil⟩
      rw [active]
      exact nofun
    omega
  | some wielder =>
    have spare : ((world.weaponsInPlay player).filter fun id => !world.weaponEquipment.supersedes id).length ≤
        (wielder :: world.spareWeapons [] player).length := by
      apply length_le_of_subset nodup
      intro id listed
      simp only [List.mem_filter, Bool.not_eq_true'] at listed
      by_cases same : id = wielder
      · exact List.mem_cons.mpr (.inl same)
      · apply List.mem_cons_of_mem
        refine mem_spareWeapons.mpr ⟨listed.1, listed.2, ?_, List.not_mem_nil⟩
        rw [active]
        exact fun equal => same (Option.some.inj equal).symm
    rw [List.length_cons] at spare
    omega

theorem Placed.movesAreAtomic [QueryOrder] {world : World} (placed : world.Placed) : world.MovesAreAtomic := by
  intro request
  have result := moveEntityWithRequest_result placed request
  generalize world.moveEntityWithRequest request = ended at result
  cases result with
  | rejected | prevented => exact ⟨fun _ _ => rfl, fun _ => rfl⟩
  | moved | removed => exact ⟨nofun, nofun⟩

section Examples

abbrev keyOrder : QueryOrder :=
  ⟨fun world => world.entities.keys, fun _ => .refl _⟩

def weaponCard : Components :=
  { kind := some .weapon, definitionId := some "axe", controller := some .one }

def armory : World :=
  { entities := (∅ : BTreeMap GameEntityId Components).insert 1 weaponCard |>.insert 2 weaponCard
    zoneIndex := fun _ _ => []
    ruleset := ⟨7, 10, 60, 5, 1, 1, 1, 1, 10, 100000⟩
    gameState := ⟨.one, 1, none, .awaitingAction⟩
    weaponEquipment := ⟨fun _ => none, ∅⟩
    playOrderCounter := 0
    pendingDeaths := []
    deathEventCache := []
    canonicalTrace := []
    nativeEffectRegistry := [] }

theorem armory_start : armory.Start := by
  apply Start.of_cards (fun _ _ => rfl) (fun _ => rfl)
  intro id components found
  unfold armory at found
  rw [BTreeMap.getElem?_insert_eq, BTreeMap.getElem?_insert_eq] at found
  split at found
  · cases found
    exact ⟨rfl, rfl⟩
  · split at found
    · cases found
      exact ⟨rfl, rfl⟩
    · simp at found

def readyAll [QueryOrder] : List ZoneOp → World → Bool
  | [], _ => true
  | op :: ops, world => op.ready world && readyAll ops (op.run world)

theorem run_foldl [QueryOrder] {allowed : World → ZoneOp → Prop} {ops : List ZoneOp}
    (allows : ∀ op ∈ ops, ∀ world, allowed world op) {world : World} (ready : readyAll ops world = true) :
    Run allowed world (ops.foldl ZoneOp.run world) := by
  induction ops generalizing world with
  | nil => exact .refl
  | cons op ops ih =>
    simp only [readyAll, Bool.and_eq_true] at ready
    have step : Step allowed world (op.run world) := .operation op ready.1 (allows op List.mem_cons_self world)
    exact .head step (ih (fun op member => allows op (List.mem_cons_of_mem _ member)) ready.2)

/-- Weapon 1 is played and its program replaces the hero by one with weapon 2. -/
def equipRun : List ZoneOp :=
  [.spawn 1 .one .hand none, .beginEquip .one 1, .spawn 2 .one .setAside none, .beginEquip .one 2, .finishEquip 2,
    .finishEquip 1]

/-- Weapon 1 is played. Its program takes it back to the hand, replaces the hero by one with weapon 2, and
moves weapon 1 to Play again. -/
def extraWeaponRun : List ZoneOp :=
  [.spawn 1 .one .hand none, .beginEquip .one 1, .move ⟨1, .one, .hand, none, .normal⟩,
    .spawn 2 .one .setAside none, .beginEquip .one 2, .finishEquip 2, .move ⟨1, .one, .play, none, .normal⟩,
    .finishEquip 1]

end Examples

/-- In every run the zone index and the entities agree, the limits hold and moves are atomic; the limit of
weapons holds in every run that lets no weapon slip back into Play during its own replacement. -/
theorem zone_index_is_kept [QueryOrder] {start world : World} (fresh : start.Start)
    (run : Run (fun _ _ => True) start world) :
    world.Indexed ∧ world.WithinLimits ∧ world.MovesAreAtomic ∧
      (1 ≤ start.ruleset.weaponLimit → SteadyRun start world → world.WeaponsWithin) := by
  have sound := Run.sound run fresh
  refine ⟨sound.1.indexed, sound.2, sound.1.movesAreAtomic, ?_⟩
  intro armed steady
  exact (steady.equipped fresh armed).weaponsWithin sound.1

theorem zone_index_is_kept_equip :
    (equipRun.foldl (@ZoneOp.run keyOrder) armory).Indexed ∧
      (equipRun.foldl (@ZoneOp.run keyOrder) armory).WithinLimits ∧
      @MovesAreAtomic keyOrder (equipRun.foldl (@ZoneOp.run keyOrder) armory) ∧
      (equipRun.foldl (@ZoneOp.run keyOrder) armory).WeaponsWithin := by
  have ready : @readyAll keyOrder equipRun armory = true := by decide +kernel
  have steady : @SteadyRun keyOrder armory (equipRun.foldl (@ZoneOp.run keyOrder) armory) := by
    apply @run_foldl keyOrder _ _ _ _ ready
    intro op member world reenters
    simp only [equipRun, List.mem_cons, List.not_mem_nil, or_false] at member
    rcases member with rfl | rfl | rfl | rfl | rfl | rfl <;> exact reenters
  have kept := @zone_index_is_kept keyOrder _ _ armory_start (@run_foldl keyOrder _ _ (fun _ _ _ => trivial) _ ready)
  exact ⟨kept.1, kept.2.1, kept.2.2.1, kept.2.2.2 (by decide) steady⟩

/-- The first weapon keeps its place beside the second one when both replacements are over. -/
theorem extra_weapon_exceeds_limit :
    armory.Start ∧ 1 ≤ armory.ruleset.weaponLimit ∧
      @Run keyOrder (fun _ _ => True) armory (extraWeaponRun.foldl (@ZoneOp.run keyOrder) armory) ∧
      (extraWeaponRun.foldl (@ZoneOp.run keyOrder) armory).weaponEquipment.pending.isEmpty ∧
      ¬ (extraWeaponRun.foldl (@ZoneOp.run keyOrder) armory).WeaponsWithin := by
  have ready : @readyAll keyOrder extraWeaponRun armory = true := by decide +kernel
  have counted : ((extraWeaponRun.foldl (@ZoneOp.run keyOrder) armory).weaponsInPlay .one).filter (fun id =>
      !(extraWeaponRun.foldl (@ZoneOp.run keyOrder) armory).weaponEquipment.supersedes id) = [2, 1] := by
    decide +kernel
  refine ⟨armory_start, by decide, @run_foldl keyOrder _ _ (fun _ _ _ => trivial) _ ready, by decide +kernel, ?_⟩
  intro within
  have limited := within .one
  rw [counted] at limited
  have single : (extraWeaponRun.foldl (@ZoneOp.run keyOrder) armory).ruleset.weaponLimit = 1 := by decide +kernel
  rw [single] at limited
  cases limited with
  | step impossible => cases impossible

end World

end HearthstoneSimulator

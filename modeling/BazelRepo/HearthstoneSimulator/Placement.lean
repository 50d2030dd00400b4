import BazelRepo.HearthstoneSimulator.Zone
import BazelRepo.Library.Located

namespace HearthstoneSimulator

open Library

abbrev Slot := PlayerId × Zone

def Components.slot (components : Components) : Option Slot :=
  match components.controller, components.zone with
  | some player, some zone => some (player, zone)
  | _, _ => none

def Components.place (components : Components) : Option (Slot × ℕ) :=
  match components.slot, components.zonePosition with
  | some slot, some position => some (slot, position)
  | _, _ => none

theorem Components.place_eq_some {components : Components} {slot : Slot} {position : ℕ} :
    components.place = some (slot, position) ↔
      components.slot = some slot ∧ components.zonePosition = some position := by
  unfold place
  cases components.slot <;> cases components.zonePosition <;> simp

theorem Components.slot_eq_some {components : Components} {slot : Slot} :
    components.slot = some slot ↔ components.controller = some slot.1 ∧ components.zone = some slot.2 := by
  unfold Components.slot
  cases components.controller <;> cases components.zone <;> simp [Prod.ext_iff]

def Components.zoned (components : Components) : Option EntityKind × Option PlayerId × Option Zone × Option ℕ :=
  (components.kind, components.controller, components.zone, components.zonePosition)

namespace World

def slots (world : World) (slot : Slot) : List GameEntityId :=
  world.zoneIndex slot.1 slot.2

def place (world : World) (id : GameEntityId) : Option (Slot × ℕ) :=
  world.get id Components.place

def zoned (world : World) (id : GameEntityId) : Option (Option EntityKind × Option PlayerId × Option Zone × Option ℕ) :=
  (world.entities[id]?).map Components.zoned

/-- Every entity with a zone stands in the index where its components say, and nothing else stands there.
An enchantment is attached to an older entity, so none is attached to itself. -/
structure Placed (world : World) : Prop where
  located : Located world.slots world.place
  complete : ∀ id, (world.get id (·.zone)).isSome → (world.place id).isSome
  unattached : ∀ id, world.get id (·.attachedTo) ≠ some id

structure PlacedBut (world : World) (id : GameEntityId) : Prop where
  located : Located world.slots (Function.update world.place id none)
  complete : ∀ a, a ≠ id → (world.get a (·.zone)).isSome → (world.place a).isSome
  unattached : ∀ a, world.get a (·.attachedTo) ≠ some a

theorem setEntries_slots (world : World) (player : PlayerId) (zone : Zone) (entries : List GameEntityId) :
    (world.setEntries player zone entries).slots = Function.update world.slots (player, zone) entries := by
  funext slot
  rcases slot with ⟨other, place⟩
  unfold setEntries slots
  by_cases samePlayer : other = player
  · subst samePlayer
    by_cases sameZone : place = zone
    · subst sameZone
      simp
    · have different : (other, place) ≠ (other, zone) := by
        simp [sameZone]
      simp [sameZone, different]
  · have different : (other, place) ≠ (player, zone) := by
      simp [samePlayer]
    simp [samePlayer, different]

def reposition (entries : List GameEntityId) (id : GameEntityId) (components : Components) : Components :=
  if id ∈ entries then { components with zonePosition := some (entries.idxOf id) } else components

theorem foldl_setZonePosition (entries : List (GameEntityId × ℕ)) (world : World) :
    entries.foldl setZonePosition world =
      { world with entities := (entries.foldl setZonePosition world).entities } := by
  induction entries generalizing world with
  | nil => rfl
  | cons entry rest ih =>
    rw [List.foldl_cons, ih]
    rfl

theorem entities_numbered {entries : List GameEntityId} (nodup : entries.Nodup) (start : ℕ) (world : World)
    (a : GameEntityId) :
    ((entries.zipIdx start).foldl setZonePosition world).entities[a]? =
      (world.entities[a]?).map fun components =>
        if a ∈ entries then { components with zonePosition := some (start + entries.idxOf a) } else components := by
  induction entries generalizing start world with
  | nil => simp
  | cons id rest ih =>
    rw [List.nodup_cons] at nodup
    rw [List.zipIdx_cons, List.foldl_cons, ih nodup.2, setZonePosition, entities_modify, Option.map_map]
    congr 1
    funext components
    by_cases same : a = id
    · subst same
      simp [nodup.1]
    · have other : ¬ id = a := fun equal => same equal.symm
      by_cases later : a ∈ rest
      · simp [same, later, List.idxOf_cons_ne _ other]
        omega
      · simp [same, later]

theorem entities_refreshPositions {world : World} {player : PlayerId} {zone : Zone}
    (nodup : (world.zoneIndex player zone).Nodup) (a : GameEntityId) :
    (world.refreshPositions player zone).entities[a]? =
      (world.entities[a]?).map (reposition (world.zoneIndex player zone) a) := by
  unfold refreshPositions
  rw [entities_numbered nodup]
  congr 1
  funext components
  unfold reposition
  rw [Nat.zero_add]

theorem refreshPositions_eq (world : World) (player : PlayerId) (zone : Zone) :
    world.refreshPositions player zone =
      { world with entities := (world.refreshPositions player zone).entities } :=
  foldl_setZonePosition _ world

theorem refreshPositions_zoneIndex (world : World) (player : PlayerId) (zone : Zone) :
    (world.refreshPositions player zone).zoneIndex = world.zoneIndex := by
  rw [refreshPositions_eq]

theorem place_reposition (entries : List GameEntityId) (a : GameEntityId) (components : Components) :
    (reposition entries a components).place =
      if a ∈ entries then components.slot.map fun slot => (slot, entries.idxOf a) else components.place := by
  unfold reposition
  split
  · unfold Components.place
    show (match components.slot, some (entries.idxOf a) with
      | some slot, some position => some (slot, position)
      | _, _ => none) = _
    cases components.slot <;> rfl
  · rfl

theorem place_refreshPositions {world : World} {slot : Slot} (nodup : (world.slots slot).Nodup)
    (inSlot : ∀ a ∈ world.slots slot, world.get a Components.slot = some slot) :
    (world.refreshPositions slot.1 slot.2).place = renumbered (world.slots slot) slot world.place := by
  funext a
  unfold renumbered place World.get
  rw [entities_refreshPositions nodup]
  split
  case isTrue member =>
    have here := inSlot a member
    unfold World.get at here
    cases found : world.entities[a]? with
    | none =>
      rw [found] at here
      cases here
    | some components =>
      rw [found] at here
      have inComponents : components.slot = some slot := here
      show (reposition (world.slots slot) a components).place = _
      rw [place_reposition, if_pos member, inComponents]
      rfl
  case isFalse missing =>
    cases world.entities[a]? with
    | none => rfl
    | some components =>
      show (reposition (world.slots slot) a components).place = components.place
      rw [place_reposition, if_neg missing]

theorem get_place {world : World} {id : GameEntityId} {slot : Slot} {n : ℕ} (here : world.place id = some (slot, n)) :
    ∃ components, world.entities[id]? = some components ∧ components.controller = some slot.1 ∧
      components.zone = some slot.2 ∧ components.zonePosition = some n := by
  unfold place World.get at here
  rcases Option.bind_eq_some_iff.mp here with ⟨components, found, placed⟩
  rcases Components.place_eq_some.mp placed with ⟨inSlot, position⟩
  rcases Components.slot_eq_some.mp inSlot with ⟨controlled, zoned⟩
  exact ⟨components, found, controlled, zoned, position⟩

theorem slot_of_place {world : World} {id : GameEntityId} {slot : Slot} {n : ℕ}
    (here : world.place id = some (slot, n)) : world.get id Components.slot = some slot := by
  rcases get_place here with ⟨components, found, controlled, zoned, _⟩
  unfold World.get
  rw [found]
  exact Components.slot_eq_some.mpr ⟨controlled, zoned⟩

def withoutEntry (world : World) (slot : Slot) (n : ℕ) : World :=
  (world.setEntries slot.1 slot.2 ((world.slots slot).eraseIdx n)).refreshPositions slot.1 slot.2

theorem removeFromIndex_eq {world : World} (placed : world.Placed) {id : GameEntityId} {slot : Slot} {n : ℕ}
    (here : world.place id = some (slot, n)) :
    world.removeFromIndex id slot.1 slot.2 = .ok (world.withoutEntry slot n, n) := by
  have position : (world.zoneIndex slot.1 slot.2).idxOf? id = some n := placed.located.idxOf?_eq here
  unfold removeFromIndex
  dsimp only
  rw [position]
  rfl

theorem withoutEntry_slots (world : World) (slot : Slot) (n : ℕ) :
    (world.withoutEntry slot n).slots = Function.update world.slots slot ((world.slots slot).eraseIdx n) := by
  rw [← setEntries_slots]
  unfold withoutEntry slots
  rw [refreshPositions_zoneIndex]

theorem slots_setEntries_self (world : World) (slot : Slot) (entries : List GameEntityId) :
    (world.setEntries slot.1 slot.2 entries).slots slot = entries := by
  rw [setEntries_slots]
  exact Function.update_self ..

theorem withoutEntry_entities {world : World} (placed : world.Placed) (slot : Slot) (n : ℕ) (a : GameEntityId) :
    (world.withoutEntry slot n).entities[a]? =
      (world.entities[a]?).map (reposition ((world.slots slot).eraseIdx n) a) := by
  have entries := slots_setEntries_self world slot ((world.slots slot).eraseIdx n)
  have nodup := (placed.located.nodup slot).sublist (List.eraseIdx_sublist (world.slots slot) n)
  rw [← entries] at nodup
  have numbered := entities_refreshPositions nodup a
  rw [show World.zoneIndex _ slot.1 slot.2 = _ from entries] at numbered
  exact numbered

theorem reposition_zone (entries : List GameEntityId) (a : GameEntityId) (components : Components) :
    (reposition entries a components).zone = components.zone := by
  unfold reposition
  split <;> rfl

theorem reposition_attachedTo (entries : List GameEntityId) (a : GameEntityId) (components : Components) :
    (reposition entries a components).attachedTo = components.attachedTo := by
  unfold reposition
  split <;> rfl

theorem withoutEntry_attachedTo {world : World} (placed : world.Placed) (slot : Slot) (n : ℕ) (a : GameEntityId) :
    (world.withoutEntry slot n).get a (·.attachedTo) = world.get a (·.attachedTo) := by
  unfold World.get
  rw [withoutEntry_entities placed, Option.bind_map]
  congr 1
  funext components
  exact reposition_attachedTo _ a components

theorem withoutEntry_place {world : World} (placed : world.Placed) (slot : Slot) (n : ℕ) :
    (world.withoutEntry slot n).place = renumbered ((world.slots slot).eraseIdx n) slot world.place := by
  have entries := slots_setEntries_self world slot ((world.slots slot).eraseIdx n)
  have nodup := (placed.located.nodup slot).sublist (List.eraseIdx_sublist (world.slots slot) n)
  rw [← entries] at nodup
  have places := place_refreshPositions nodup (by
    intro a member
    rw [entries] at member
    rcases placed.located.mem_iff.mp (List.mem_of_mem_eraseIdx member) with ⟨m, here⟩
    exact slot_of_place here)
  rw [entries] at places
  exact places

theorem renumbered_isSome {entries : List GameEntityId} {slot : Slot} {place : GameEntityId → Option (Slot × ℕ)}
    {a : GameEntityId} (some : (place a).isSome) : (renumbered entries slot place a).isSome := by
  unfold renumbered
  split
  · rfl
  · exact some

theorem withoutEntry_placedBut {world : World} (placed : world.Placed) {id : GameEntityId} {slot : Slot} {n : ℕ}
    (here : world.place id = some (slot, n)) : (world.withoutEntry slot n).PlacedBut id := by
  have gone : id ∉ (world.slots slot).eraseIdx n := by
    intro member
    exact ((placed.located.mem_eraseIdx here).mp member).1 rfl
  have masked : Function.update (world.withoutEntry slot n).place id none =
      renumbered ((world.slots slot).eraseIdx n) slot (Function.update world.place id none) := by
    funext a
    rw [withoutEntry_place placed]
    by_cases same : a = id
    · subst same
      rw [Function.update_self, renumbered, if_neg gone, Function.update_self]
    · rw [Function.update_of_ne same, renumbered, renumbered, Function.update_of_ne same]
  refine ⟨?_, ?_, ?_⟩
  · rw [masked, withoutEntry_slots]
    exact placed.located.erase here
  · intro a _ zoned
    rw [withoutEntry_place placed]
    apply renumbered_isSome
    apply placed.complete
    unfold World.get at zoned ⊢
    rw [withoutEntry_entities placed, Option.bind_map] at zoned
    simpa only [Function.comp_def, reposition_zone] using zoned
  · intro a
    rw [withoutEntry_attachedTo placed]
    exact placed.unattached a

def settle (slot : Slot) (components : Components) : Components :=
  { components with controller := some slot.1, zone := some slot.2 }

def entriesWith (world : World) (id : GameEntityId) (slot : Slot) (position : Option ℕ) : List GameEntityId :=
  (world.slots slot).insertIdx (position.getD (world.slots slot).length) id

theorem insertIntoZoneUnchecked_slots (world : World) (id : GameEntityId) (slot : Slot) (position : Option ℕ) :
    (world.insertIntoZoneUnchecked id slot.1 slot.2 position).slots =
      Function.update world.slots slot (world.entriesWith id slot position) := by
  rw [← setEntries_slots]
  unfold insertIntoZoneUnchecked slots
  rw [refreshPositions_zoneIndex]
  rfl

theorem get_foldl_setZonePosition {α : Type} {component : Components → Option α}
    (kept : ∀ components position, component { components with zonePosition := some position } = component components)
    (entries : List (GameEntityId × Nat)) (world : World) (a : GameEntityId) :
    (entries.foldl setZonePosition world).get a component = world.get a component := by
  induction entries generalizing world with
  | nil => rfl
  | cons entry rest ih =>
    rw [List.foldl_cons, ih]
    unfold World.get setZonePosition
    rw [entities_modify, Option.bind_map]
    congr 1
    funext components
    show component (if a = entry.1 then _ else components) = component components
    split
    · exact kept components entry.2
    · rfl

theorem get_insertIntoZoneUnchecked {α : Type} {component : Components → Option α}
    (kept : ∀ components position, component { components with zonePosition := some position } = component components)
    (world : World) (id : GameEntityId) (player : PlayerId) (zone : Zone) (position : Option Nat) (a : GameEntityId) :
    (world.insertIntoZoneUnchecked id player zone position).get a component =
      (world.entities[a]?).bind fun components =>
        component (if a = id then { components with controller := some player, zone := some zone } else components) := by
  unfold insertIntoZoneUnchecked refreshPositions
  dsimp only
  rw [get_foldl_setZonePosition kept]
  unfold World.get
  rw [entities_modify, Option.bind_map]
  rfl

section Insertion

variable {world : World} {id : GameEntityId} (placed : world.PlacedBut id) {slot : Slot} {position : Option ℕ}
  (fits : position.getD (world.slots slot).length ≤ (world.slots slot).length)

include placed

theorem PlacedBut.notMem (t : Slot) : id ∉ world.slots t := by
  intro member
  rcases placed.located.mem_iff.mp member with ⟨n, here⟩
  rw [Function.update_self] at here
  cases here

theorem PlacedBut.place_of_mem {t : Slot} {a : GameEntityId} (member : a ∈ world.slots t) :
    a ≠ id ∧ ∃ n, world.place a = some (t, n) := by
  rcases placed.located.mem_iff.mp member with ⟨n, here⟩
  by_cases same : a = id
  · subst same
    rw [Function.update_self] at here
    cases here
  · rw [Function.update_of_ne same] at here
    exact ⟨same, n, here⟩

include fits

omit placed in
theorem mem_entriesWith {a : GameEntityId} :
    a ∈ world.entriesWith id slot position ↔ a = id ∨ a ∈ world.slots slot :=
  List.mem_insertIdx fits

theorem nodup_entriesWith : (world.entriesWith id slot position).Nodup := by
  unfold entriesWith
  rw [(List.perm_insertIdx id (world.slots slot) fits).nodup_iff]
  exact List.nodup_cons.mpr ⟨placed.notMem slot, placed.located.nodup slot⟩

theorem insertIntoZoneUnchecked_entities (a : GameEntityId) :
    (world.insertIntoZoneUnchecked id slot.1 slot.2 position).entities[a]? =
      (world.entities[a]?).map fun components =>
        reposition (world.entriesWith id slot position) a (if a = id then settle slot components else components) := by
  have entries : ((world.setEntries slot.1 slot.2 (world.entriesWith id slot position)).modify id
      (settle slot)).zoneIndex slot.1 slot.2 = world.entriesWith id slot position :=
    slots_setEntries_self world slot (world.entriesWith id slot position)
  have nodup := nodup_entriesWith placed fits
  rw [← entries] at nodup
  have numbered := entities_refreshPositions nodup a
  rw [entries, entities_modify, Option.map_map] at numbered
  exact numbered

theorem insertIntoZoneUnchecked_place (present : world.entities[id]?.isSome) :
    (world.insertIntoZoneUnchecked id slot.1 slot.2 position).place =
      renumbered (world.entriesWith id slot position) slot (Function.update world.place id none) := by
  funext a
  have entity := insertIntoZoneUnchecked_entities placed fits a
  unfold renumbered
  unfold place World.get
  rw [entity]
  by_cases same : a = id
  · subst same
    have member : a ∈ world.entriesWith a slot position := (mem_entriesWith fits).mpr (.inl rfl)
    rcases Option.isSome_iff_exists.mp present with ⟨components, found⟩
    rw [found, if_pos member]
    show (reposition _ a (if a = a then settle slot components else components)).place = _
    rw [if_pos rfl, place_reposition, if_pos member]
    rfl
  · rw [Function.update_of_ne same]
    by_cases member : a ∈ world.entriesWith id slot position
    · have old := ((mem_entriesWith fits).mp member).resolve_left same
      rcases (placed.place_of_mem old).2 with ⟨n, here⟩
      rcases get_place here with ⟨components, found, controlled, zoned, _⟩
      have inSlot : components.slot = some slot := Components.slot_eq_some.mpr ⟨controlled, zoned⟩
      rw [found, if_pos member]
      show (reposition _ a (if a = id then settle slot components else components)).place = _
      rw [if_neg same, place_reposition, if_pos member, inSlot]
      rfl
    · rw [if_neg member]
      cases world.entities[a]? with
      | none => rfl
      | some components =>
        show (reposition _ a (if a = id then settle slot components else components)).place = components.place
        rw [if_neg same, place_reposition, if_neg member]

theorem insertIntoZoneUnchecked_attachedTo (a : GameEntityId) :
    (world.insertIntoZoneUnchecked id slot.1 slot.2 position).get a (·.attachedTo) = world.get a (·.attachedTo) := by
  unfold World.get
  rw [insertIntoZoneUnchecked_entities placed fits, Option.bind_map]
  congr 1
  funext components
  show Components.attachedTo (reposition _ a (if a = id then settle slot components else components)) = _
  rw [reposition_attachedTo]
  split <;> rfl

theorem insertIntoZoneUnchecked_placed (present : world.entities[id]?.isSome) :
    (world.insertIntoZoneUnchecked id slot.1 slot.2 position).Placed := by
  refine ⟨?_, ?_, ?_⟩
  · rw [insertIntoZoneUnchecked_place placed fits present, insertIntoZoneUnchecked_slots]
    exact placed.located.insert (Function.update_self ..) fits
  · intro a zoned
    rw [insertIntoZoneUnchecked_place placed fits present]
    by_cases same : a = id
    · subst same
      rw [renumbered, if_pos ((mem_entriesWith fits).mpr (.inl rfl))]
      rfl
    · apply renumbered_isSome
      rw [Function.update_of_ne same]
      apply placed.complete a same
      unfold World.get at zoned ⊢
      rw [insertIntoZoneUnchecked_entities placed fits, Option.bind_map] at zoned
      simpa only [Function.comp_def, reposition_zone, if_neg same] using zoned
  · intro a
    rw [insertIntoZoneUnchecked_attachedTo placed fits]
    exact placed.unattached a

end Insertion

theorem withoutEntry_eq (world : World) (slot : Slot) (n : ℕ) :
    world.withoutEntry slot n =
      { world with
        entities := (world.withoutEntry slot n).entities
        zoneIndex := (world.withoutEntry slot n).zoneIndex } := by
  unfold withoutEntry
  rw [refreshPositions_eq]
  rfl

theorem insertIntoZoneUnchecked_eq (world : World) (id : GameEntityId) (player : PlayerId) (zone : Zone)
    (position : Option ℕ) :
    world.insertIntoZoneUnchecked id player zone position =
      { world with
        entities := (world.insertIntoZoneUnchecked id player zone position).entities
        zoneIndex := (world.insertIntoZoneUnchecked id player zone position).zoneIndex } := by
  unfold insertIntoZoneUnchecked
  dsimp only
  rw [refreshPositions_eq]
  rfl

theorem zoneIndex_eq_of_slots {world other : World} (same : world.slots = other.slots) :
    world.zoneIndex = other.zoneIndex := by
  funext player zone
  exact congrFun same (player, zone)

theorem reposition_put_back {world : World} (placed : world.Placed) {id : GameEntityId} {slot : Slot} {n : ℕ}
    (here : world.place id = some (slot, n)) {a : GameEntityId} {components : Components}
    (entity : world.entities[a]? = some components) :
    reposition (world.slots slot) a (if a = id then
        settle slot (reposition ((world.slots slot).eraseIdx n) a components)
      else reposition ((world.slots slot).eraseIdx n) a components) = components := by
  by_cases member : a ∈ world.slots slot
  · rcases placed.located.mem_iff.mp member with ⟨m, there⟩
    rcases get_place there with ⟨same, found, controlled, zoned, position⟩
    rw [entity] at found
    cases found
    have number := placed.located.idxOf_eq there
    cases components
    dsimp only at controlled zoned position
    subst controlled zoned position
    unfold reposition settle
    rw [if_pos member, number]
    split
    · split <;> rfl
    · split <;> rfl
  · have other : a ≠ id := by
      rintro rfl
      exact member (placed.located.mem_iff.mpr ⟨n, here⟩)
    have missing : a ∉ (world.slots slot).eraseIdx n := fun kept => member (List.mem_of_mem_eraseIdx kept)
    rw [if_neg other, reposition, if_neg member, reposition, if_neg missing]

theorem insert_withoutEntry {world : World} (placed : world.Placed) {id : GameEntityId} {slot : Slot} {n : ℕ}
    (here : world.place id = some (slot, n)) :
    (world.withoutEntry slot n).insertIntoZoneUnchecked id slot.1 slot.2 (some n) = world := by
  have found := (placed.located slot n id).mpr here
  rcases List.getElem?_eq_some_iff.mp found with ⟨bound, itself⟩
  have but := withoutEntry_placedBut placed here
  have erased : (world.withoutEntry slot n).slots slot = (world.slots slot).eraseIdx n := by
    rw [withoutEntry_slots, Function.update_self]
  have fits : (some n).getD ((world.withoutEntry slot n).slots slot).length ≤
      ((world.withoutEntry slot n).slots slot).length := by
    rw [erased, List.length_eraseIdx_of_lt bound]
    show n ≤ _
    omega
  have entries : (world.withoutEntry slot n).entriesWith id slot (some n) = world.slots slot := by
    unfold entriesWith
    rw [erased, ← itself]
    exact List.insertIdx_eraseIdx_getElem bound
  have slots : ((world.withoutEntry slot n).insertIntoZoneUnchecked id slot.1 slot.2 (some n)).slots = world.slots := by
    rw [insertIntoZoneUnchecked_slots, entries, withoutEntry_slots, Function.update_idem, Function.update_eq_self]
  have entities : ((world.withoutEntry slot n).insertIntoZoneUnchecked id slot.1 slot.2 (some n)).entities =
      world.entities := by
    apply Std.ExtTreeMap.ext_getElem?
    intro a
    rw [insertIntoZoneUnchecked_entities but fits, entries, withoutEntry_entities placed, Option.map_map]
    cases entity : world.entities[a]? with
    | none => rfl
    | some components =>
      show some _ = some _
      congr 1
      exact reposition_put_back placed here entity
  rw [insertIntoZoneUnchecked_eq, entities, zoneIndex_eq_of_slots slots, withoutEntry_eq]

end World

end HearthstoneSimulator

import BazelRepo.HearthstoneSimulator.Generation
import BazelRepo.HearthstoneSimulator.ZoneRuns
import BazelRepo.Library.Selection

namespace HearthstoneSimulator

open Library

namespace World

theorem entryIsBoardEntity_congr {world other : World} {id : GameEntityId}
    (same : other.get id (·.kind) = world.get id (·.kind)) :
    other.entryIsBoardEntity id = world.entryIsBoardEntity id := by
  unfold entryIsBoardEntity
  rw [same]

theorem countP_take_boardPosition {world : World} {player : PlayerId} {boardPosition : ℕ}
    (valid : world.validateBoardPosition player (some boardPosition) = .ok ()) :
    ((world.zoneIndex player .play).take (world.boardPositionToZonePosition player boardPosition)).countP
      world.entryIsBoardEntity = boardPosition := by
  have bound := validatePosition_fits valid
  unfold boardEntities at bound
  rw [← List.countP_eq_length_filter] at bound
  exact countP_take_selectedPosition bound

/-- An entity stands at a board position of a player, and without it the Play zone is what was left of it. -/
structure Seated (rest : List GameEntityId) (world : World) (id : GameEntityId) (player : PlayerId)
    (boardPosition : ℕ) : Prop where
  others : (world.zoneIndex player .play).erase id = rest
  position : (world.boardEntities player).idxOf? id = some boardPosition

theorem seated_insert {world : World} {id : GameEntityId} (placed : world.PlacedBut id) {player : PlayerId}
    {boardPosition : ℕ} (present : world.entities[id]?.isSome) (board : world.entryIsBoardEntity id = true)
    (valid : world.validateBoardPosition player (some boardPosition) = .ok ()) :
    Seated (world.zoneIndex player .play)
      (world.insertIntoZoneUnchecked id player .play (some (world.boardPositionToZonePosition player boardPosition)))
      id player boardPosition := by
  have fits := boardPositionToZonePosition_fits world player boardPosition
  have fresh : id ∉ world.zoneIndex player .play := placed.notMem (player, .play)
  have relocated := @relocated_insert _ _ placed (player, .play)
    (some (world.boardPositionToZonePosition player boardPosition)) fits present
  have entries : World.zoneIndex (world.insertIntoZoneUnchecked id player .play
      (some (world.boardPositionToZonePosition player boardPosition))) player .play =
      (world.zoneIndex player .play).insertIdx (world.boardPositionToZonePosition player boardPosition) id := by
    have slots := congrFun (insertIntoZoneUnchecked_slots world id (player, .play)
      (some (world.boardPositionToZonePosition player boardPosition))) (player, .play)
    rw [Function.update_self] at slots
    exact slots
  have kinds : World.entryIsBoardEntity (world.insertIntoZoneUnchecked id player .play
      (some (world.boardPositionToZonePosition player boardPosition))) = world.entryIsBoardEntity := by
    funext a
    exact entryIsBoardEntity_congr (relocated.kinds a)
  refine ⟨?_, ?_⟩
  · rw [entries, erase_insertIdx fits fresh]
  · unfold boardEntities
    rw [entries, kinds, idxOf?_filter_insertIdx fits fresh board, countP_take_boardPosition valid]

section Moved

variable {after : World → World → Prop} (follows : Follows after) {reset : World → GameEntityId → World}

theorem moveToGraveyardAfterFailedMoveWith_ne {world later : World} {id : GameEntityId} {source from_ : Zone}
    {controller owner : PlayerId} {kind : ZoneMovementKind} {remembered : ℕ} :
    moveToGraveyardAfterFailedMoveWith reset world id source controller kind ≠
      (later, .ok (.moved from_ owner remembered)) := by
  intro same
  unfold moveToGraveyardAfterFailedMoveWith at same
  split at same
  · cases same
  · split at same
    · cases same
    · split at same
      · cases same
      · cases same

include follows in
/-- What a move that succeeded did: the entry was taken out, put in at the resolved position, and settled. -/
theorem moveEntityWith_moved {world later : World} (placed : world.Placed) {request : ZoneMoveRequest}
    (resets : ∀ world : World, world.Placed → after world (reset world request.entity)) {source : Zone}
    {controller : PlayerId} {remembered : ℕ}
    (moved : moveEntityWith reset world request = (later, .ok (.moved source controller remembered))) :
    ∃ n preserved position ordered, world.place request.entity = some ((controller, source), n) ∧
      (world.withoutEntry (controller, source) n).resolveDestinationPosition request.entity
        request.destinationController request.destination request.position preserved = .ok position ∧
      Unmoved ((world.withoutEntry (controller, source) n).insertIntoZoneUnchecked request.entity
        request.destinationController request.destination position) ordered ∧
      after (ordered.trackEntry request.entity) later := by
  unfold moveEntityWith at moved
  split at moved
  case h_2 => cases moved
  case h_1 from_ owner zoned controlled =>
    rcases Option.isSome_iff_exists.mp (placed.complete request.entity (by rw [zoned]; rfl)) with ⟨⟨slot, n⟩, here⟩
    rcases get_place here with ⟨components, found, inController, inZone, _⟩
    unfold World.get at zoned controlled
    rw [found] at zoned controlled
    have sameZone : slot.2 = from_ := Option.some.inj (inZone.symm.trans zoned)
    have sameController : slot.1 = owner := Option.some.inj (inController.symm.trans controlled)
    subst sameZone sameController
    dsimp only at moved
    split at moved
    · split at moved
      · cases moved
      · exact (moveToGraveyardAfterFailedMoveWith_ne moved).elim
    · unfold relocateWith at moved
      split at moved
      · cases moved
      · rw [removeFromIndex_eq placed here] at moved
        dsimp only at moved
        split at moved
        · cases moved
        case h_2 position resolved =>
          cases moved
          have but := withoutEntry_placedBut placed here
          have inserted := insertIntoZoneUnchecked_placed but
            (@resolveDestinationPosition_fits _ _ (request.destinationController, request.destination) _ _ _ resolved)
            (withoutEntry_present placed here)
          rcases applyMovementStatePolicyWith_after follows resets inserted slot.2 with ⟨ordered, unmoved, settled⟩
          exact ⟨n, _, position, ordered, here, resolved, unmoved, settled⟩

end Moved

theorem withoutEntry_erase {world : World} (placed : world.Placed) {id : GameEntityId} {slot : Slot} {n : ℕ}
    (here : world.place id = some (slot, n)) (t : Slot) :
    ((world.withoutEntry slot n).slots t) = (world.slots t).erase id := by
  rw [withoutEntry_slots]
  by_cases same : t = slot
  · subst same
    rw [Function.update_self, ← placed.located.idxOf_eq here, List.erase_eq_eraseIdx_of_idxOf]
    rfl
  · rw [Function.update_of_ne same, List.erase_of_not_mem]
    intro member
    rcases placed.located.mem_iff.mp member with ⟨m, there⟩
    rw [here] at there
    cases there
    exact same rfl

theorem withoutEntry_kind {world : World} (placed : world.Placed) (slot : Slot) (n : ℕ) (a : GameEntityId) :
    (world.withoutEntry slot n).get a (·.kind) = world.get a (·.kind) := by
  unfold World.get
  rw [withoutEntry_entities placed, Option.bind_map]
  congr 1
  funext components
  show Components.kind (reposition _ a components) = _
  unfold reposition
  split <;> rfl

/-- How a world goes on where only some entities leave Play: what is left keeps its order. -/
structure Thins (gone : GameEntityId → Prop) (world other : World) : Prop where
  placed : world.Placed → other.Placed
  kinds : ∀ a, other.get a (·.kind) = world.get a (·.kind)
  attached : ∀ a target, other.get a (·.attachedTo) = some target → world.get a (·.attachedTo) = some target
  entries : ∀ player, (other.zoneIndex player .play).Sublist (world.zoneIndex player .play)
  kept : ∀ player, ∀ a ∈ world.zoneIndex player .play, a ∈ other.zoneIndex player .play ∨ gone a

theorem Unmoved.thins {gone : GameEntityId → Prop} {world other : World} (unmoved : Unmoved world other) :
    Thins gone world other := by
  refine ⟨unmoved.placed, ?_, unmoved.attached, ?_, ?_⟩
  · intro a
    rw [get_kind, unmoved.zoned, ← get_kind]
  · intro player
    rw [unmoved.index]
  · intro player a member
    rw [unmoved.index]
    exact .inl member

theorem Thins.mono {gone lost : GameEntityId → Prop} {world other : World} (thins : Thins gone world other)
    (more : ∀ a, gone a → lost a) : Thins lost world other :=
  ⟨thins.placed, thins.kinds, thins.attached, thins.entries,
    fun player a member => (thins.kept player a member).imp_right (more a)⟩

theorem Thins.trans {gone : GameEntityId → Prop} {first second third : World} (early : Thins gone first second)
    (late : Thins gone second third) : Thins gone first third := by
  refine ⟨fun placed => late.placed (early.placed placed), ?_, ?_, ?_, ?_⟩
  · intro a
    rw [late.kinds, early.kinds]
  · intro a target attached
    exact early.attached a target (late.attached a target attached)
  · intro player
    exact (late.entries player).trans (early.entries player)
  · intro player a member
    rcases early.kept player a member with still | left
    · exact late.kept player a still
    · exact .inr left

theorem thins_trackEntry {gone : GameEntityId → Prop} (world : World) (id : GameEntityId) :
    Thins gone world (world.trackEntry id) :=
  ⟨fun placed => placed_trackEntry placed id, fun _ => rfl, fun _ _ attached => attached, fun _ => .refl _,
    fun _ _ member => .inl member⟩

theorem transferred {world : World} (placed : world.Placed) {id : GameEntityId} {source slot : Slot} {n : ℕ}
    (here : world.place id = some (source, n)) {position : Option ℕ}
    (fits : position.getD ((world.withoutEntry source n).slots slot).length ≤
      ((world.withoutEntry source n).slots slot).length) {other : World}
    (inserted : (world.withoutEntry source n).insertIntoZoneUnchecked id slot.1 slot.2 position = other) :
    other.Placed ∧ (∀ a, other.get a (·.kind) = world.get a (·.kind)) ∧
      ∀ a, other.get a (·.attachedTo) = world.get a (·.attachedTo) := by
  have but := withoutEntry_placedBut placed here
  have relocated := relocated_insert but fits (withoutEntry_present placed here)
  rw [← inserted]
  refine ⟨relocated.placed, ?_, ?_⟩
  · intro a
    rw [relocated.kinds, withoutEntry_kind placed]
  · intro a
    rw [insertIntoZoneUnchecked_attachedTo but fits, withoutEntry_attachedTo placed]

theorem thins_withdraw {world : World} (placed : world.Placed) {attachment : GameEntityId} {slot : Slot} {n : ℕ}
    (here : world.place attachment = some (slot, n)) {player : PlayerId} {position : Option ℕ}
    (fits : position.getD ((world.withoutEntry slot n).slots (player, .removedFromGame)).length ≤
      ((world.withoutEntry slot n).slots (player, .removedFromGame)).length) :
    Thins (· = attachment) world
      ((world.withoutEntry slot n).insertIntoZoneUnchecked attachment player .removedFromGame position) := by
  rcases transferred placed here fits rfl with ⟨arrived, kinds, attachments⟩
  have entries : ∀ owner, World.zoneIndex ((world.withoutEntry slot n).insertIntoZoneUnchecked attachment player
      .removedFromGame position) owner .play = (world.zoneIndex owner .play).erase attachment := by
    intro owner
    have slots := congrFun (insertIntoZoneUnchecked_slots (world.withoutEntry slot n) attachment
      (player, .removedFromGame) position) (owner, .play)
    rw [Function.update_of_ne (by simp), withoutEntry_erase placed here] at slots
    exact slots
  refine ⟨fun _ => arrived, kinds, ?_, ?_, ?_⟩
  · intro a target there
    rw [← attachments]
    exact there
  · intro owner
    rw [entries]
    exact List.erase_sublist
  · intro owner a member
    rw [entries]
    by_cases same : a = attachment
    · exact .inr same
    · exact .inl ((List.mem_erase_of_ne same).mpr member)

theorem thins_moveDetached {world : World} (placed : world.Placed) (attachment : GameEntityId) :
    Thins (· = attachment) world (world.moveDetached attachment) := by
  unfold moveDetached
  dsimp only
  have detached : Unmoved world (world.modify attachment fun components => { components with attachedTo := none }) := by
    apply unmoved_modify
    · intro components
      rfl
    · intro components
      exact .inr rfl
  have start := detached.placed placed
  generalize world.modify attachment _ = middle at detached start
  apply detached.thins.trans
  have result := @moveEntityWith_result Unmoved follows_unmoved (fun world _ => world) _ start
    (middle.detachRequest attachment) (fun world _ => .refl world)
  generalize same : moveEntityWith (fun world _ => world) middle (middle.detachRequest attachment) = ended at result
  cases result with
  | rejected | prevented => exact (Unmoved.refl middle).thins
  | moved _ _ _ _ _ =>
    rcases moveEntityWith_moved follows_unmoved start (fun world _ => .refl world) same with
      ⟨n, preserved, position, ordered, here, resolved, unmoved, settled⟩
    have fits := @resolveDestinationPosition_fits _ _ (_, .removedFromGame) _ _ _ resolved
    have withdrawn := thins_withdraw start here fits
    exact (withdrawn.trans unmoved.thins).trans ((thins_trackEntry ordered _).trans settled.thins)
  | removed _ _ full _ _ =>
    have roomy := @destinationIsFull_unlimited .removedFromGame (.inr rfl) middle attachment
      (middle.detachRequest attachment).destinationController
    cases full.symm.trans roomy

theorem thins_foldl_moveDetached (attachments : List GameEntityId) {world : World} (placed : world.Placed) :
    Thins (· ∈ attachments) world (attachments.foldl moveDetached world) := by
  induction attachments generalizing world with
  | nil => exact (Unmoved.refl world).thins
  | cons attachment rest ih =>
    have first := thins_moveDetached placed attachment
    have later := ih (first.placed placed)
    apply (first.mono _).trans (later.mono _)
    · rintro a rfl
      exact List.mem_cons_self
    · intro a member
      exact List.mem_cons_of_mem _ member

abbrev Sheds (mover : GameEntityId) (world other : World) : Prop :=
  Thins (fun a => world.get a (·.attachedTo) = some mover) world other

theorem follows_sheds (mover : GameEntityId) : Follows (Sheds mover) := by
  refine ⟨Unmoved.thins, ?_, fun sheds => sheds.placed⟩
  intro first second third early late
  exact early.trans (late.mono fun a attached => early.attached a mover attached)

theorem sheds_resetRuntimeState [QueryOrder] {world : World} (placed : world.Placed) (id : GameEntityId) :
    Sheds id world (world.resetRuntimeState id) := by
  unfold resetRuntimeState
  dsimp only
  have repaired : Unmoved world (world.modify id fun components =>
      { components with
        weaponState := components.weaponState.map fun state => { state with durability := state.baseDurability } }) := by
    apply unmoved_change
    intro components
    exact ⟨rfl, rfl⟩
  apply (follows_sheds id).trans repaired.thins
  have start := repaired.placed placed
  generalize world.modify id _ = middle at start
  split
  case h_1 => exact (Unmoved.refl middle).thins
  case h_2 before _ =>
    have detached : Sheds id middle ((if before.keepEnchantments = true then [] else
        (QueryOrder.iterEntities middle).filter fun candidate =>
          middle.get candidate (·.attachedTo) = some id).foldl moveDetached middle) := by
      split
      · exact (Unmoved.refl middle).thins
      · apply (thins_foldl_moveDetached _ start).mono
        intro attachment listed
        exact of_decide_eq_true (List.mem_filter.mp listed).2
    apply (follows_sheds id).trans detached
    apply Unmoved.thins
    have cleared : ∀ world : World, Unmoved world (world.modify id (resetComponents before)) := by
      intro world
      apply unmoved_change
      intro components
      exact ⟨rfl, rfl⟩
    apply (cleared _).trans
    apply (unmoved_recalculateStats _ id).trans
    exact (unmoved_recalculateKeywords _ id).trans (unmoved_recalculateCost _ id)

def AttachesEnchantments (world : World) : Prop :=
  ∀ id target, world.get id (·.attachedTo) = some target → world.get id (·.kind) = some .enchantment

/-- An entity ends at the board position asked for, and the other entries of the Play zone keep their order:
all of them, but for what was attached to the entity, are still there. -/
structure Reaches (world later : World) (id : GameEntityId) (player : PlayerId) (boardPosition : ℕ) : Prop where
  position : later.semanticZonePosition id player .play = some boardPosition
  order : ((later.zoneIndex player .play).erase id).Sublist ((world.zoneIndex player .play).erase id)
  others : ∀ a ∈ world.zoneIndex player .play, a ≠ id →
    a ∈ later.zoneIndex player .play ∨ world.get a (·.attachedTo) = some id

theorem Seated.sheds {rest : List GameEntityId} {world later : World} {id : GameEntityId} {player : PlayerId}
    {boardPosition : ℕ} (seated : Seated rest world id player boardPosition) (placed : world.Placed)
    (attaches : world.AttachesEnchantments) (board : world.entryIsBoardEntity id = true) (sheds : Sheds id world later) :
    later.semanticZonePosition id player .play = some boardPosition ∧
      ((later.zoneIndex player .play).erase id).Sublist rest ∧
      ∀ a ∈ rest, a ∈ later.zoneIndex player .play ∨ world.get a (·.attachedTo) = some id := by
  have kinds : later.entryIsBoardEntity = world.entryIsBoardEntity := by
    funext a
    exact entryIsBoardEntity_congr (sheds.kinds a)
  have boards : later.boardEntities player = world.boardEntities player := by
    unfold boardEntities
    rw [kinds]
    apply filter_eq_of_sublist (sheds.entries player) (placed.located.nodup (player, .play))
    intro a member boarded
    rcases sheds.kept player a member with still | attached
    · exact still
    · -- an enchantment is no board entity
      unfold entryIsBoardEntity at boarded
      rw [attaches a id attached] at boarded
      cases boarded
  refine ⟨?_, ?_, ?_⟩
  · unfold semanticZonePosition
    rw [kinds, if_pos ⟨rfl, board⟩, boards]
    exact seated.position
  · rw [← seated.others]
    exact (sheds.entries player).erase id
  · intro a member
    rw [← seated.others] at member
    exact sheds.kept player a (List.mem_of_mem_erase member)

theorem AttachesEnchantments.congr {world other : World} (attaches : world.AttachesEnchantments)
    (kinds : ∀ a, other.get a (·.kind) = world.get a (·.kind))
    (attached : ∀ a target, other.get a (·.attachedTo) = some target → world.get a (·.attachedTo) = some target) :
    other.AttachesEnchantments := by
  intro a target there
  rw [kinds]
  exact attaches a target (attached a target there)

theorem moveEntityWithRequest_reaches [QueryOrder] {world later : World} (placed : world.Placed)
    (attaches : world.AttachesEnchantments) {id : GameEntityId} {player : PlayerId} {boardPosition : ℕ}
    {kind : ZoneMovementKind} (board : world.entryIsBoardEntity id = true) {source : Zone} {controller : PlayerId}
    {remembered : ℕ} (moved : world.moveEntityWithRequest ⟨id, player, .play, some boardPosition, kind⟩ =
      (later, .ok (.moved source controller remembered))) :
    Reaches world later id player boardPosition := by
  rcases moveEntityWith_moved (follows_sheds id) placed (fun _ placed => sheds_resetRuntimeState placed id) moved with
    ⟨n, preserved, position, ordered, here, resolved, unmoved, sheds⟩
  have but := withoutEntry_placedBut placed here
  have present := withoutEntry_present placed here
  have boarded : (world.withoutEntry (controller, source) n).entryIsBoardEntity id = true := by
    rw [entryIsBoardEntity_congr (withoutEntry_kind placed _ n id)]
    exact board
  have landed : World.validateBoardPosition (world.withoutEntry (controller, source) n) player (some boardPosition) =
      .ok () ∧ position = some ((world.withoutEntry (controller, source) n).boardPositionToZonePosition player
        boardPosition) := by
    unfold resolveDestinationPosition at resolved
    dsimp only at resolved
    rw [if_pos ⟨rfl, boarded⟩] at resolved
    rcases bind_eq_ok.mp resolved with ⟨_, valid, same⟩
    exact ⟨valid, (Except.ok.inj same).symm⟩
  rcases landed with ⟨valid, rfl⟩
  have seated := seated_insert but present boarded valid
  have fits := boardPositionToZonePosition_fits (world.withoutEntry (controller, source) n) player boardPosition
  have rest : World.zoneIndex (world.withoutEntry (controller, source) n) player .play =
      (world.zoneIndex player .play).erase id := withoutEntry_erase placed here (player, .play)
  rw [rest] at seated
  generalize inserted : World.insertIntoZoneUnchecked _ _ _ _ _ = arrived at unmoved seated
  rcases @transferred _ placed id _ (player, .play) _ here (some _) fits _ inserted with ⟨arrives, kinds, attachments⟩
  have onward := (follows_sheds id).trans unmoved.thins ((follows_sheds id).trans (thins_trackEntry ordered id) sheds)
  have still := attaches.congr kinds fun a target there => (attachments a).symm.trans there
  rcases seated.sheds arrives still ((entryIsBoardEntity_congr (kinds id)).trans board) onward with
    ⟨reached, order, others⟩
  refine ⟨reached, order, ?_⟩
  intro a member different
  rw [← attachments]
  exact others a ((List.mem_erase_of_ne different).mpr member)

def spawning (world : World) (player : PlayerId) (card : Card) : World :=
  { world.allocateGameId.1 with entities := world.entities.insert world.nextGameEntityId (card.spawned player) }

theorem spawning_entities (world : World) (player : PlayerId) (card : Card) (a : GameEntityId) :
    (world.spawning player card).entities[a]? =
      if a = world.nextGameEntityId then some (card.spawned player) else world.entities[a]? :=
  BTreeMap.getElem?_insert_eq ..

theorem get_spawning {α : Type} (world : World) (player : PlayerId) (card : Card) {a : GameEntityId}
    (old : a ≠ world.nextGameEntityId) (component : Components → Option α) :
    (world.spawning player card).get a component = world.get a component := by
  unfold World.get
  rw [spawning_entities, if_neg old]

theorem spawnCardAt_inv {world spawned : World} {player : PlayerId} {card : Card} {zone : Zone} {position : Option Nat}
    {id : GameEntityId} (done : world.spawnCardAt player card zone position = (spawned, .ok id)) :
    id = world.nextGameEntityId ∧ ∃ position, spawned =
      ((world.spawning player card).insertIntoZoneUnchecked id player zone position).trackEntry id := by
  unfold spawnCardAt at done
  split at done
  · cases done
  · rename_i position _
    unfold spawnValidatedCard at done
    dsimp only at done
    split at done
    · cases done
    · rename_i inserted placed
      cases done
      unfold insertIntoZone at placed
      rcases bind_eq_ok.mp placed with ⟨_, _, rest⟩
      split at rest
      · cases rest
      · rcases bind_eq_ok.mp rest with ⟨_, _, last⟩
        cases last
        exact ⟨rfl, position, rfl⟩

theorem get_spawnCardAt {α : Type} {component : Components → Option α}
    (kept : ∀ components position, component { components with zonePosition := some position } = component components)
    {world spawned : World} {player : PlayerId} {card : Card} {zone : Zone} {position : Option Nat} {id : GameEntityId}
    (done : world.spawnCardAt player card zone position = (spawned, .ok id)) :
    spawned.get id component = component { card.spawned player with zone := some zone } := by
  rcases spawnCardAt_inv done with ⟨rfl, position, rfl⟩
  show World.get (World.insertIntoZoneUnchecked _ _ _ _ _) _ _ = _
  rw [get_insertIntoZoneUnchecked kept, spawning_entities, if_pos rfl, Option.bind_some, if_pos rfl]
  rfl

theorem change_spawning {world : World} (placed : world.Placed) (free : world.entities[world.nextGameEntityId]? = none)
    (player : PlayerId) (card : Card) : Change world (world.spawning player card) := by
  refine ⟨rfl, rfl, rfl, ?_, ?_⟩
  · intro a zoned
    have old : a ≠ world.nextGameEntityId := by
      rintro rfl
      unfold World.get at zoned
      rw [spawning_entities, if_pos rfl, free] at zoned
      rcases zoned with before | after
      · cases before
      · cases after
    unfold World.zoned
    rw [spawning_entities, if_neg old]
  · intro a
    by_cases new : a = world.nextGameEntityId
    · unfold World.get
      rw [spawning_entities, if_pos new]
      exact nofun
    · rw [get_spawning world player card new]
      exact placed.unattached a

/-- What a summoned entity is once it was spawned: it stands in Play, behind everything else. -/
structure Spawned (world spawned : World) (id : GameEntityId) (player : PlayerId) (card : Card) : Prop where
  relocated : Relocated (world.spawning player card) spawned id (player, .play)
  entries : spawned.zoneIndex player .play = world.zoneIndex player .play ++ [id]
  attached : ∀ a target, spawned.get a (·.attachedTo) = some target → world.get a (·.attachedTo) = some target
  old : world.entities[id]? = none
  new : world.nextGameEntityId = id

theorem spawnCard_spawned {world later : World} (placed : world.Placed)
    (free : world.entities[world.nextGameEntityId]? = none) {player : PlayerId} {card : Card} {id : GameEntityId}
    (done : world.spawnCard player card .play = (later, .ok id)) :
    ∃ spawned, Spawned world spawned id player card ∧ later = spawned.trackEntry id := by
  unfold spawnCard spawnCardAt at done
  split at done
  · cases done
  case h_2 position valid =>
    have unrequested : position = none := by
      unfold validateCardSpawn at valid
      rcases bind_eq_ok.mp valid with ⟨_, _, rest⟩
      rcases bind_eq_ok.mp rest with ⟨_, _, last⟩
      unfold resolveGenerationPosition at last
      split at last
      · exact (Except.ok.inj last).symm
      · exact (Except.ok.inj last).symm
    subst unrequested
    unfold spawnValidatedCard at done
    dsimp only at done
    have change := change_spawning placed free player card
    have unzoned : (world.spawning player card).get world.nextGameEntityId (·.zone) = none := by
      unfold World.get
      rw [spawning_entities, if_pos rfl]
      rfl
    split at done
    · cases done
    case h_2 inserted entering =>
      cases done
      have entered : (world.spawning player card).insertIntoZone world.nextGameEntityId player .play none =
          .ok inserted := entering
      have relocated := (insertIntoZone_relocated (change.placed placed) unzoned entered).2
      have but := (change.placed placed).but unzoned
      rcases bind_eq_ok.mp entered with ⟨_, _, placing⟩
      split at placing
      · cases placing
      rcases bind_eq_ok.mp placing with ⟨_, _, same⟩
      have placedThere := Except.ok.inj same
      refine ⟨inserted, ⟨relocated, ?_, ?_, free, rfl⟩, rfl⟩
      · have slots := congrFun (insertIntoZoneUnchecked_slots (world.spawning player card) world.nextGameEntityId
          (player, .play) none) (player, .play)
        rw [Function.update_self, placedThere] at slots
        show inserted.slots (player, .play) = _
        rw [slots]
        exact List.insertIdx_length_self
      · intro a target there
        rw [← placedThere, @insertIntoZoneUnchecked_attachedTo _ _ but (player, .play) none le_rfl] at there
        by_cases new : a = world.nextGameEntityId
        · unfold World.get at there
          rw [spawning_entities, if_pos new] at there
          cases there
        · rw [get_spawning world player card new] at there
          exact there

theorem moveEntity_stays [QueryOrder] {world later : World} {id : GameEntityId} {player : PlayerId}
    {boardPosition : ℕ} {outcome : ZoneMoveOutcome} (controlled : world.get id (·.controller) = some player)
    (zoned : world.get id (·.zone) = some .play)
    (moved : world.moveEntity id .play (some boardPosition) = (later, .ok outcome)) :
    ∃ remembered, world.moveEntityWithRequest ⟨id, player, .play, some boardPosition, .normal⟩ =
      (later, .ok (.moved .play player remembered)) := by
  unfold moveEntity at moved
  rw [controlled] at moved
  dsimp only at moved
  have result := moved
  unfold moveEntityWithRequest moveEntityWith at moved
  dsimp only at moved
  rw [controlled, zoned] at moved
  dsimp only at moved
  simp only [and_self, decide_true, Bool.not_true, Bool.false_and, Bool.false_eq_true, if_false] at moved
  unfold relocateWith at moved
  split at moved
  · cases moved
  case h_2 remembered _ =>
    split at moved
    · cases moved
    · dsimp only at moved
      split at moved
      · cases moved
      · cases moved
        exact ⟨remembered, result⟩

theorem settleSummoned_moved [QueryOrder] {world later : World} {summoned id : GameEntityId} {boardPosition : ℕ}
    (done : world.settleSummoned summoned (some boardPosition) = (later, .ok id)) :
    id = summoned ∧ ∃ moved outcome, world.moveEntity summoned .play (some boardPosition) = (moved, .ok outcome) ∧
      Unmoved moved later := by
  unfold settleSummoned at done
  dsimp only at done
  cases moving : world.moveEntity summoned .play (some boardPosition) with
  | mk moved result =>
    rw [moving] at done
    cases result with
    | error error => cases done
    | ok outcome =>
      cases done
      refine ⟨rfl, moved, outcome, rfl, ?_⟩
      have allocated : Unmoved moved moved.allocatePlayOrder.1 := .of_eq rfl rfl rfl rfl
      apply allocated.trans
      apply unmoved_change
      intro components
      exact ⟨rfl, rfl⟩

theorem Reaches.unmoved {world middle later : World} {id : GameEntityId} {player : PlayerId} {boardPosition : ℕ}
    (reaches : Reaches world middle id player boardPosition) (unmoved : Unmoved middle later) :
    Reaches world later id player boardPosition := by
  have kinds : later.entryIsBoardEntity = middle.entryIsBoardEntity := by
    funext a
    apply entryIsBoardEntity_congr
    rw [get_kind, unmoved.zoned, ← get_kind]
  refine ⟨?_, ?_, ?_⟩
  · unfold semanticZonePosition boardEntities
    rw [kinds, unmoved.index]
    exact reaches.position
  · rw [unmoved.index]
    exact reaches.order
  · rw [unmoved.index]
    exact reaches.others

theorem summon_reaches [QueryOrder] {world later : World} (placed : world.Placed)
    (attaches : world.AttachesEnchantments) (free : world.entities[world.nextGameEntityId]? = none)
    {player : PlayerId} {card : Card} {boardPosition : ℕ} {id : GameEntityId} (board : isBoardEntity card.kind = true)
    (done : world.summon player card (some boardPosition) = (later, .ok (some id))) :
    Reaches world later id player boardPosition := by
  unfold summon at done
  split at done
  · cases done
  split at done
  · cases done
  split at done
  · cases done
  case h_2 spawned summoned spawning =>
    rcases spawnCard_spawned placed free spawning with ⟨inserted, fresh, rfl⟩
    split at done
    · cases done
    case h_2 settled same settling =>
      cases done
      rcases settleSummoned_moved settling with ⟨rfl, moved, outcome, moving, unmoved⟩
      have change := change_spawning placed free player card
      have there : World.get (inserted.trackEntry id) id (·.kind) = some card.kind := by
        show inserted.get id (·.kind) = _
        rw [fresh.relocated.kinds, ← fresh.new]
        unfold World.get
        rw [spawning_entities, if_pos rfl]
        rfl
      rcases fresh.relocated.placed.located.mem_iff.mp ((fresh.relocated.arrived _).mpr rfl) with ⟨n, here⟩
      rcases get_place here with ⟨components, found, controlled, zoned, _⟩
      have controller : World.get (inserted.trackEntry id) id (·.controller) = some player := by
        show (inserted.entities[id]?).bind _ = _
        rw [found]
        exact controlled
      have zone : World.get (inserted.trackEntry id) id (·.zone) = some .play := by
        show (inserted.entities[id]?).bind _ = _
        rw [found]
        exact zoned
      rcases moveEntity_stays controller zone moving with ⟨remembered, moved⟩
      have attaches : World.AttachesEnchantments (inserted.trackEntry id) := by
        intro a target attached
        have old := fresh.attached a target attached
        have listed := attaches a target old
        have different : a ≠ world.nextGameEntityId := by
          rintro rfl
          unfold World.get at old
          rw [free] at old
          cases old
        show inserted.get a (·.kind) = _
        rw [fresh.relocated.kinds, get_spawning world player card different]
        exact listed
      have boarded : World.entryIsBoardEntity (inserted.trackEntry id) id = true := by
        unfold entryIsBoardEntity
        rw [there]
        exact board
      have reaches := (moveEntityWithRequest_reaches (placed_trackEntry fresh.relocated.placed id) attaches boarded
        moved).unmoved unmoved
      have unlisted : id ∉ world.zoneIndex player .play := by
        rw [← fresh.new]
        have unzoned : world.get world.nextGameEntityId (·.zone) = none := by
          unfold World.get
          rw [free]
          rfl
        exact notMem_of_unzoned placed unzoned (player, .play)
      have entries : World.zoneIndex (inserted.trackEntry id) player .play = world.zoneIndex player .play ++ [id] :=
        fresh.entries
      refine ⟨reaches.position, ?_, ?_⟩
      · have order := reaches.order
        rw [entries, List.erase_append_right _ unlisted] at order
        rw [List.erase_of_not_mem unlisted]
        simpa using order
      · intro a member different
        have listed : a ∈ World.zoneIndex (inserted.trackEntry id) player .play := by
          rw [entries]
          exact List.mem_append_left _ member
        rcases reaches.others a listed different with still | attached
        · exact .inl still
        · exact .inr (fresh.attached a id attached)

theorem attachesEnchantments_of_all {world : World} (all : world.entities.toList.all (fun entry =>
    entry.2.attachedTo.isNone || entry.2.kind = some .enchantment) = true) : world.AttachesEnchantments := by
  intro id target attached
  unfold World.get at attached ⊢
  rcases Option.bind_eq_some_iff.mp attached with ⟨components, found, host⟩
  have allowed := List.all_eq_true.mp all (id, components) (BTreeMap.mem_toList.mpr found)
  rw [found]
  show components.kind = _
  rw [Bool.or_eq_true, host] at allowed
  rcases allowed with free | enchantment
  · cases free
  · exact of_decide_eq_true enchantment

section Examples

def ranks : World :=
  { entities := (∅ : BTreeMap GameEntityId Components)
      |>.insert 1 { kind := some .minion }
      |>.insert 2 { kind := some .hero }
      |>.insert 3 { kind := some .minion }
    zoneIndex := fun _ _ => []
    ruleset := ⟨7, 10, 60, 5, 1, 1, 1, 1, 10, 100000⟩
    gameState := ⟨.one, 1, none, .awaitingAction⟩
    weaponEquipment := ⟨fun _ => none, ∅⟩
    playOrderCounter := 0
    nextGameEntityId := 4
    pendingDeaths := []
    deathEventCache := []
    canonicalTrace := []
    nativeEffectRegistry := [] }

def board : World :=
  [ZoneOp.insert 1 .one .play none, .insert 2 .one .play none, .insert 3 .one .play none].foldl
    (@ZoneOp.run keyOrder) ranks

def recruit : Card :=
  { definitionId := "recruit", name := "Recruit", kind := .minion, manaCost := 1, attack := 1, health := 1,
    durability := 0, keywords := ∅, effects := [], triggers := [], auras := [], continuousEffects := [],
    targeting := .none }

theorem ranks_start : ranks.Start := by
  apply Start.of_cards (fun _ _ => rfl) (fun _ => rfl)
  intro id components found
  unfold ranks at found
  rw [BTreeMap.getElem?_insert_eq, BTreeMap.getElem?_insert_eq, BTreeMap.getElem?_insert_eq] at found
  split at found
  · cases found
    exact ⟨rfl, rfl⟩
  · split at found
    · cases found
      exact ⟨rfl, rfl⟩
    · split at found
      · cases found
        exact ⟨rfl, rfl⟩
      · simp at found

theorem board_placed : board.Placed := by
  have run : @Run keyOrder (fun _ _ => True) ranks board := by
    apply @run_foldl keyOrder
    · exact fun _ _ _ => trivial
    · decide +kernel
  exact (@Run.sound keyOrder _ _ _ run ranks_start).1

end Examples

/-- Every board entity that was moved or summoned at a requested board position ends there, and the other
entries of the Play zone keep their order. -/
theorem requested_board_positions [QueryOrder] {world : World} (placed : world.Placed)
    (attaches : world.AttachesEnchantments) (free : world.entities[world.nextGameEntityId]? = none) :
    (∀ (request : ZoneMoveRequest) (boardPosition : ℕ) (later : World) (source : Zone) (controller : PlayerId)
        (remembered : ℕ), request.destination = .play → request.position = some boardPosition →
        world.entryIsBoardEntity request.entity = true →
        world.moveEntityWithRequest request = (later, .ok (.moved source controller remembered)) →
        Reaches world later request.entity request.destinationController boardPosition) ∧
      ∀ (player : PlayerId) (card : Card) (boardPosition : ℕ) (later : World) (id : GameEntityId),
        isBoardEntity card.kind = true → world.summon player card (some boardPosition) = (later, .ok (some id)) →
        Reaches world later id player boardPosition := by
  refine ⟨?_, ?_⟩
  · rintro ⟨id, player, destination, position, kind⟩ boardPosition later source controller remembered play requested
      boarded moved
    dsimp only at play requested boarded
    subst play requested
    exact moveEntityWithRequest_reaches placed attaches boarded moved
  · intro player card boardPosition later id boarded done
    exact summon_reaches placed attaches free boarded done

theorem requested_board_positions_board :
    (Reaches board (@moveEntityWithRequest keyOrder board ⟨3, .one, .play, some 0, .normal⟩).1 3 .one 0 ∧
      (@moveEntityWithRequest keyOrder board ⟨3, .one, .play, some 0, .normal⟩).1.zoneIndex .one .play = [3, 1, 2]) ∧
    Reaches board (@summon keyOrder board .one recruit (some 1)).1 4 .one 1 ∧
      (@summon keyOrder board .one recruit (some 1)).1.zoneIndex .one .play = [1, 2, 4, 3] := by
  have reaches := @requested_board_positions keyOrder board board_placed
    (attachesEnchantments_of_all (by decide +kernel)) (by decide +kernel)
  refine ⟨⟨?_, by decide +kernel⟩, ?_, by decide +kernel⟩
  · apply reaches.1 ⟨3, .one, .play, some 0, .normal⟩ 0 _ .play .one 1 rfl rfl (by decide +kernel)
    have outcome : (@moveEntityWithRequest keyOrder board ⟨3, .one, .play, some 0, .normal⟩).2 =
        .ok (.moved .play .one 1) := by
      decide +kernel
    rw [← outcome]
  · apply reaches.2 .one recruit 1 _ 4 (by decide +kernel)
    have outcome : (@summon keyOrder board .one recruit (some 1)).2.toOption = some (some 4) := by
      decide +kernel
    generalize @summon keyOrder board .one recruit (some 1) = ended at outcome
    rcases ended with ⟨later, _ | result⟩
    · cases outcome
    · cases outcome
      rfl

end World

end HearthstoneSimulator

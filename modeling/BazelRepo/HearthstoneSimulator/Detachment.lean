import BazelRepo.HearthstoneSimulator.Attachment

namespace HearthstoneSimulator

open Library

namespace World

/-- What holds of the steps of a move holds of the move: its steps are quiet, a reset of the mover, and for a mover
that enters Play a new place in the order of play. -/
structure Along (reset : World → GameEntityId → World) (mover : GameEntityId) (entering : Prop)
    (follows : World → World → Prop) : Prop where
  quiet : ∀ {world other : World}, Quiet world other → follows world other
  trans : ∀ {world middle other : World}, follows world middle → follows middle other → follows world other
  resets : ∀ world, follows world (reset world mover)
  enters : entering → ∀ (world : World) (order : Nat),
    follows world (world.modify mover fun components => { components with playOrder := some order })

section Moves

variable {reset : World → GameEntityId → World} {follows : World → World → Prop}

theorem quiet_trackEntry (world : World) (id : GameEntityId) : Quiet world (world.trackEntry id) :=
  quiet_of_entities rfl rfl rfl

theorem quiet_clearPostDeathAuras (world : World) (id : GameEntityId) : Quiet world (world.clearPostDeathAuras id) := by
  unfold clearPostDeathAuras
  have cleared : Quiet world (world.modify id fun components =>
      { components with attackAuraCache := none, otherAuraCache := none }) := quiet_modify fun _ _ => rfl
  exact cleared.trans (quiet_recalculateStats _ id)

theorem quiet_removeFromIndex {world removed : World} {id : GameEntityId} {player : PlayerId} {zone : Zone}
    {position : Nat} (success : world.removeFromIndex id player zone = .ok (removed, position)) :
    Quiet world removed := by
  unfold removeFromIndex at success
  simp only [bind_eq_ok, Except.ok.injEq, Prod.mk.injEq] at success
  rcases success with ⟨_, _, rfl, _⟩
  exact (quiet_setEntries world player zone _).trans (quiet_refreshPositions _ player zone)

theorem quiet_recordFullZoneDeath (world : World) (id : GameEntityId) (position : Nat) :
    Quiet world (world.recordFullZoneDeath id position) := by
  unfold recordFullZoneDeath
  split
  · split
    · exact quiet_of_entities rfl rfl rfl
    · exact Quiet.refl world
  · exact Quiet.refl world

theorem Along.policy {request : ZoneMoveRequest} {entering : Prop} (along : Along reset request.entity entering follows)
    (enters : request.destination = .play → entering) (world : World) (source : Zone) :
    follows world (applyMovementStatePolicyWith reset world request source) := by
  unfold applyMovementStatePolicyWith
  dsimp only
  have allocated : ∀ world : World, follows world
      (if request.destination = .play ∧ source ≠ .play then
        world.allocatePlayOrder.1.modify request.entity fun components =>
          { components with playOrder := some world.allocatePlayOrder.2 }
      else world) := by
    intro world
    split
    · rename_i enter
      have counted : Quiet world world.allocatePlayOrder.1 := ⟨fun _ => rfl, Nat.le_refl _, Nat.le_succ _⟩
      exact along.trans (along.quiet counted) (along.enters (enters enter.1) _ _)
    · exact along.quiet (Quiet.refl world)
  have cleared : ∀ world : World, follows world
      (if source = .play ∧ request.destination ≠ .play then world.clearPostDeathAuras request.entity else world) := by
    intro world
    split
    · exact along.quiet (quiet_clearPostDeathAuras world request.entity)
    · exact along.quiet (Quiet.refl world)
  have reset' : ∀ world : World, follows world
      (if resetsRuntimeState request.kind source request.destination = true then reset world request.entity
      else if source = .hand ∧ request.destination = .play then
        world.modify request.entity fun components => { components with pendingDestroy := false }
      else world) := by
    intro world
    split
    · exact along.resets world
    · split
      · exact along.quiet (quiet_modify fun _ _ => rfl)
      · exact along.quiet (Quiet.refl world)
  have readied : ∀ world : World, follows world
      (if source = request.destination ∧ request.destination = .play then
        world.modify request.entity fun components =>
          { components with
            attackState := components.attackState.map fun attack => { attack with readinessBlocked := true } }
      else world) := by
    intro world
    split
    · exact along.quiet (quiet_modify fun _ _ => rfl)
    · exact along.quiet (Quiet.refl world)
  refine along.trans (allocated world) (along.trans (along.quiet (quiet_trackEntry _ request.entity)) ?_)
  exact along.trans (cleared _) (along.trans (reset' _) (readied _))

theorem Along.graveyard {mover : GameEntityId} {entering : Prop} (along : Along reset mover entering follows)
    (world : World) (source : Zone) (controller : PlayerId) (kind : ZoneMovementKind) :
    follows world (moveToGraveyardAfterFailedMoveWith reset world mover source controller kind).1 := by
  unfold moveToGraveyardAfterFailedMoveWith
  split
  · exact along.quiet (Quiet.refl world)
  · split
    · exact along.quiet (Quiet.refl world)
    · rename_i removed _ removal
      have gone := quiet_removeFromIndex removal
      split
      · exact along.quiet gone
      · rename_i inserted insertion
        have moved : follows inserted
            (applyMovementStatePolicyWith reset inserted ⟨mover, controller, .graveyard, none, kind⟩ source) :=
          Along.policy along nofun inserted source
        have arrived := along.trans (along.quiet (gone.trans (quiet_insertIntoZone insertion))) moved
        dsimp only
        split
        · exact along.trans arrived (along.quiet (quiet_recordFullZoneDeath _ mover _))
        · exact arrived

theorem Along.relocate {request : ZoneMoveRequest} {entering : Prop}
    (along : Along reset request.entity entering follows) (enters : request.destination = .play → entering)
    (world : World) (source : Zone) (controller : PlayerId) :
    follows world (relocateWith reset world request source controller).1 := by
  unfold relocateWith
  split
  · exact along.quiet (Quiet.refl world)
  · split
    · exact along.quiet (Quiet.refl world)
    · rename_i removed _ removal
      have gone := quiet_removeFromIndex removal
      dsimp only
      split
      · exact along.quiet (gone.trans (quiet_insertIntoZoneUnchecked _ _ _ _ _))
      · rename_i position _
        have inserted := quiet_insertIntoZoneUnchecked removed request.entity request.destinationController
          request.destination position
        exact along.trans (along.quiet (gone.trans inserted)) (along.policy enters _ source)

theorem Along.move {request : ZoneMoveRequest} {entering : Prop}
    (along : Along reset request.entity entering follows) (enters : request.destination = .play → entering)
    (world : World) : follows world (moveEntityWith reset world request).1 := by
  unfold moveEntityWith
  split
  · rename_i source sourceController _ _
    dsimp only
    split
    · split
      · exact along.quiet (Quiet.refl world)
      · exact along.graveyard world source sourceController _
    · exact along.relocate enters world source sourceController
  · exact along.quiet (Quiet.refl world)

end Moves

/-- Some enchantments lose their host, and nothing else that keywords depend on changes. -/
structure Detaches (gone : List GameEntityId) (world other : World) : Prop where
  data : ∀ id : GameEntityId, (other.entities[id]?).map Components.keywordData =
    (world.entities[id]?).map fun components =>
      (components.keywordData.1, if id ∈ gone then none else components.hosted, components.keywordModifier)
  identified : world.nextGameEntityId ≤ other.nextGameEntityId
  ordered : world.playOrderCounter ≤ other.playOrderCounter

section Detaches

variable {gone : List GameEntityId} {world middle other : World}

theorem Quiet.detaches (quiet : Quiet world other) : Detaches [] world other := by
  refine ⟨?_, quiet.identified, quiet.ordered⟩
  intro id
  rw [quiet.data]
  rfl

theorem Detaches.quiet (detaches : Detaches gone world middle) (quiet : Quiet middle other) :
    Detaches gone world other :=
  ⟨fun id => (quiet.data id).trans (detaches.data id), Nat.le_trans detaches.identified quiet.identified,
    Nat.le_trans detaches.ordered quiet.ordered⟩

theorem Detaches.trans {later : List GameEntityId} (first : Detaches gone world middle)
    (second : Detaches later middle other) : Detaches (gone ++ later) world other := by
  refine ⟨?_, Nat.le_trans first.identified second.identified, Nat.le_trans first.ordered second.ordered⟩
  intro id
  have early := first.data id
  rw [second.data]
  cases between : middle.entities[id]? with
  | none =>
    rw [between] at early
    cases before : world.entities[id]? with
    | none => rfl
    | some components =>
      rw [before] at early
      cases early
  | some components =>
    rw [between] at early
    cases before : world.entities[id]? with
    | none =>
      rw [before] at early
      cases early
    | some old =>
      rw [before] at early
      have same : components.keywordData =
          (old.keywordData.1, if id ∈ gone then none else old.hosted, old.keywordModifier) := Option.some.inj early
      have host : components.keywordData.1 = old.keywordData.1 := by rw [same]
      have placed : components.hosted = if id ∈ gone then none else old.hosted := congrArg (·.2.1) same
      have modifies : components.keywordModifier = old.keywordModifier := congrArg (·.2.2) same
      simp only [Option.map_some, host, placed, modifies, List.mem_append]
      by_cases early : id ∈ gone <;> by_cases late : id ∈ later <;> simp [early, late]

def keptModifiers (world : World) (id : GameEntityId) (gone : List GameEntityId) : List KeywordModifier :=
  (((world.modifierEntries id).mergeSort earlier).filter fun entry => entry.2.1 ∉ gone).map (·.2.2)

theorem Detaches.attachment (detaches : Detaches gone world other) (id : GameEntityId) :
    other.get id (·.attachment) = if id ∈ gone then none else world.get id (·.attachment) := by
  have same := detaches.data id
  unfold World.get
  cases after : other.entities[id]? with
  | none =>
    cases before : world.entities[id]? with
    | none => simp
    | some old =>
      rw [after, before] at same
      cases same
  | some components =>
    cases before : world.entities[id]? with
    | none =>
      rw [after, before] at same
      cases same
    | some old =>
      rw [after, before] at same
      have placed : components.hosted = if id ∈ gone then none else old.hosted :=
        congrArg (·.2.1) (Option.some.inj same)
      have modifies : components.keywordModifier = old.keywordModifier := congrArg (·.2.2) (Option.some.inj same)
      show components.attachment = if id ∈ gone then none else old.attachment
      unfold Components.attachment
      rw [placed, modifies]
      by_cases member : id ∈ gone <;> simp [member]

theorem Detaches.modifiers (detaches : Detaches gone world other) (id : GameEntityId) :
    other.attachedModifiers id (·.keywordModifier) = world.keptModifiers id gone := by
  rw [attachedModifiers_eq, keptModifiers]
  congr 1
  have perm : (other.modifierEntries id).Perm ((world.modifierEntries id).filter fun entry => entry.2.1 ∉ gone) := by
    rw [List.perm_ext_iff_of_nodup (modifierEntries_distinct other id).of_map
      ((modifierEntries_distinct world id).of_map.filter _)]
    rintro ⟨order, a, modifier⟩
    rw [mem_modifierEntries, List.mem_filter, mem_modifierEntries, detaches.attachment]
    by_cases member : a ∈ gone <;> simp [member]
  have sorted := List.mergeSort_perm (other.modifierEntries id) earlier
  apply eq_of_ordered ((sorted.map (·.2.1)).nodup_iff.mpr (modifierEntries_distinct other id)) _
    (pairwise_sorted _) ((pairwise_sorted _).filter _)
  exact sorted.trans (perm.trans ((List.mergeSort_perm _ _).symm.filter _))

theorem Detaches.layers (detaches : Detaches gone world other) (id : GameEntityId) :
    other.layers id = (world.layers id).map fun layers => { layers with modifiers := world.keptModifiers id gone } := by
  have host := congrArg (Option.map Prod.fst) (detaches.data id)
  rw [Option.map_map, Option.map_map] at host
  rw [layers_of_host host, detaches.modifiers]

theorem Detaches.isSome (detaches : Detaches gone world other) (id : GameEntityId) :
    (other.entities[id]?).isSome = (world.entities[id]?).isSome := by
  have same := congrArg Option.isSome (detaches.data id)
  rwa [Option.isSome_map, Option.isSome_map] at same

theorem Fresh.detaches (fresh : world.Fresh) (detaches : Detaches gone world other) : other.Fresh := by
  constructor
  · intro id present
    rw [detaches.isSome] at present
    exact Nat.lt_of_lt_of_le (fresh.identified id present) detaches.identified
  · intro id host order modifier found
    rw [detaches.attachment] at found
    split at found
    · cases found
    · exact Nat.lt_of_lt_of_le (fresh.ordered id host order modifier found) detaches.ordered

end Detaches

end World

end HearthstoneSimulator

import BazelRepo.HearthstoneSimulator.BoardPosition
import BazelRepo.HearthstoneSimulator.Events
import BazelRepo.HearthstoneSimulator.Lifecycle

namespace HearthstoneSimulator

open Library

abbrev Alteration := GameEntityId → Components → Components → Prop

/-- Alterations that add up, and that let every entity be renumbered within its zone. -/
structure Alteration.Tolerant (S : Alteration) : Prop where
  refl : ∀ id components, S id components components
  trans : ∀ {id first second third}, S id first second → S id second third → S id first third
  positioned : ∀ id components position, S id components { components with zonePosition := position }

structure Alteration.Recalculates (S : Alteration) (id : GameEntityId) : Prop where
  stats : ∀ components stats damage, S id components { components with currentStats := stats, damage := damage }
  keywords : ∀ components keywords, S id components { components with keywords := keywords }
  cost : ∀ components runtime, S id components { components with cardRuntime := runtime }

structure Alteration.Moves (S : Alteration) (id : GameEntityId) : Prop extends Alteration.Recalculates S id where
  zoned : ∀ components player zone, S id components { components with controller := player, zone := zone }
  ordered : ∀ components order, S id components { components with playOrder := order }
  calmed : ∀ components, S id components { components with attackAuraCache := none, otherAuraCache := none }
  spared : ∀ components, S id components { components with pendingDestroy := false }
  readied : ∀ components state, S id components { components with attackState := state }

structure Alteration.Detaches (S : Alteration) (id : GameEntityId) : Prop extends Alteration.Moves S id where
  detached : ∀ components, S id components { components with attachedTo := none }

structure Alteration.Resets (S : Alteration) (id : GameEntityId) : Prop extends Alteration.Moves S id where
  repaired : ∀ components : Components, S id components components.repaired
  reset : ∀ before components, S id components (World.resetComponents before components)

namespace World

/-- The entities of a world, altered; new ones take new numbers. Nothing waits or is decided in the meantime. -/
structure Keeps (S : Alteration) (world other : World) : Prop where
  work : other.work = world.work
  ruleset : other.ruleset = world.ruleset
  nativeEffectRegistry : other.nativeEffectRegistry = world.nativeEffectRegistry
  defeatedHeroes : world.defeatedHeroes ⊆ other.defeatedHeroes
  nextGameEntityId : world.nextGameEntityId ≤ other.nextGameEntityId
  born : ∀ id, (other.entities[id]?).isSome = true →
    (world.entities[id]?).isSome = true ∨ world.nextGameEntityId ≤ id ∧ id < other.nextGameEntityId
  altered : ∀ id components, id < world.nextGameEntityId → world.entities[id]? = some components →
    ∃ after, other.entities[id]? = some after ∧ S id components after

section Keeping

variable {S : Alteration} (tolerant : S.Tolerant) {world middle other : World}

include tolerant

theorem Keeps.of_entities (entities : other.entities = world.entities) (work : other.work = world.work)
    (ruleset : other.ruleset = world.ruleset)
    (nativeEffectRegistry : other.nativeEffectRegistry = world.nativeEffectRegistry)
    (defeatedHeroes : world.defeatedHeroes ⊆ other.defeatedHeroes)
    (nextGameEntityId : world.nextGameEntityId ≤ other.nextGameEntityId) : Keeps S world other := by
  refine ⟨work, ruleset, nativeEffectRegistry, defeatedHeroes, nextGameEntityId, ?_, ?_⟩
  · intro id present
    left
    rwa [entities] at present
  · intro id components _ found
    exact ⟨components, entities ▸ found, tolerant.refl id components⟩

theorem Keeps.refl (world : World) : Keeps S world world :=
  .of_entities tolerant rfl rfl rfl rfl subset_rfl le_rfl

theorem Keeps.trans (first : Keeps S world middle) (second : Keeps S middle other) : Keeps S world other := by
  refine ⟨second.work.trans first.work, second.ruleset.trans first.ruleset,
    second.nativeEffectRegistry.trans first.nativeEffectRegistry,
    first.defeatedHeroes.trans second.defeatedHeroes,
    first.nextGameEntityId.trans second.nextGameEntityId, ?_, ?_⟩
  · intro id present
    rcases second.born id present with old | ⟨new, used⟩
    · rcases first.born id old with older | ⟨new, used⟩
      · exact .inl older
      · exact .inr ⟨new, used.trans_le second.nextGameEntityId⟩
    · exact .inr ⟨first.nextGameEntityId.trans new, used⟩
  · intro id components old found
    rcases first.altered id components old found with ⟨between, early, altered⟩
    rcases second.altered id between (old.trans_le first.nextGameEntityId) early with ⟨after, late, again⟩
    exact ⟨after, late, tolerant.trans altered again⟩

theorem keeps_modify {id : GameEntityId} {change : Components → Components}
    (alters : ∀ components, S id components (change components)) (world : World) :
    Keeps S world (world.modify id change) := by
  refine ⟨rfl, rfl, rfl, subset_rfl, le_rfl, ?_, ?_⟩
  · intro a present
    left
    rwa [entities_modify, Option.isSome_map] at present
  · intro a components _ found
    refine ⟨if a = id then change components else components, ?_, ?_⟩
    · rw [entities_modify, found, Option.map_some]
    · split
      · rename_i same
        subst same
        exact alters components
      · exact tolerant.refl a components

theorem keeps_foldl {α : Type} {step : World → α → World} (each : ∀ world a, Keeps S world (step world a)) (items : List α)
    (world : World) : Keeps S world (items.foldl step world) := by
  induction items generalizing world with
  | nil => exact .refl tolerant world
  | cons a rest ih => exact (each world a).trans tolerant (ih _)

theorem keeps_refreshPositions (world : World) (player : PlayerId) (zone : Zone) :
    Keeps S world (world.refreshPositions player zone) :=
  keeps_foldl tolerant (fun world _ => keeps_modify tolerant (fun _ => tolerant.positioned _ _ _) world) _ world

theorem keeps_setEntries (world : World) (player : PlayerId) (zone : Zone) (entries : List GameEntityId) :
    Keeps S world (world.setEntries player zone entries) :=
  .of_entities tolerant rfl rfl rfl rfl subset_rfl le_rfl

theorem keeps_removeFromIndex {id : GameEntityId} {player : PlayerId} {zone : Zone} {position : Nat}
    (removal : world.removeFromIndex id player zone = .ok (other, position)) : Keeps S world other := by
  unfold removeFromIndex at removal
  simp only [bind_eq_ok, Except.ok.injEq, Prod.mk.injEq] at removal
  rcases removal with ⟨_, _, rfl, _⟩
  exact (keeps_setEntries tolerant world player zone _).trans tolerant (keeps_refreshPositions tolerant _ player zone)

theorem keeps_trackEntry (world : World) (id : GameEntityId) : Keeps S world (world.trackEntry id) :=
  .of_entities tolerant rfl rfl rfl rfl subset_rfl le_rfl

theorem keeps_recordFullZoneDeath (world : World) (id : GameEntityId) (position : Nat) :
    Keeps S world (world.recordFullZoneDeath id position) := by
  unfold recordFullZoneDeath
  split
  · split
    · exact .of_entities tolerant rfl rfl rfl rfl subset_rfl le_rfl
    · exact .refl tolerant world
  · exact .refl tolerant world

theorem keeps_recalculateStats {id : GameEntityId} (recalculates : S.Recalculates id) (world : World) :
    Keeps S world (world.recalculateStats id) := by
  apply keeps_modify tolerant
  intro components
  split
  · exact tolerant.refl id components
  · exact recalculates.stats components _ _

theorem keeps_recalculateKeywords {id : GameEntityId} (recalculates : S.Recalculates id) (world : World) :
    Keeps S world (world.recalculateKeywords id) :=
  keeps_modify tolerant (fun components => recalculates.keywords components _) world

theorem keeps_recalculateCost {id : GameEntityId} (recalculates : S.Recalculates id) (world : World) :
    Keeps S world (world.recalculateCost id) :=
  keeps_modify tolerant (fun components => recalculates.cost components _) world

theorem keeps_recalculate {id : GameEntityId} (recalculates : S.Recalculates id) (world : World) :
    Keeps S world (world.recalculate id) :=
  ((keeps_recalculateStats tolerant recalculates world).trans tolerant
    (keeps_recalculateKeywords tolerant recalculates _)).trans tolerant (keeps_recalculateCost tolerant recalculates _)

end Keeping

section Moves

variable {S : Alteration} (tolerant : S.Tolerant) {reset : World → GameEntityId → World}
  {mover : GameEntityId} (moves : S.Moves mover)

include tolerant moves

theorem keeps_insertIntoZoneUnchecked (world : World) (player : PlayerId) (zone : Zone) (position : Option Nat) :
    Keeps S world (world.insertIntoZoneUnchecked mover player zone position) :=
  ((keeps_setEntries tolerant world player zone _).trans tolerant
    (keeps_modify tolerant (fun components => moves.zoned components _ _) _)).trans tolerant
      (keeps_refreshPositions tolerant _ player zone)

theorem keeps_insertIntoZone {world other : World} {player : PlayerId} {zone : Zone} {position : Option Nat}
    (inserted : world.insertIntoZone mover player zone position = .ok other) : Keeps S world other := by
  unfold insertIntoZone at inserted
  simp only [bind_eq_ok, reject_eq_ok, Except.ok.injEq] at inserted
  rcases inserted with ⟨_, _, _, _, _, rfl⟩
  exact keeps_insertIntoZoneUnchecked tolerant moves world player zone position

theorem keeps_clearPostDeathAuras (world : World) : Keeps S world (world.clearPostDeathAuras mover) :=
  (keeps_modify tolerant (fun components => moves.calmed components) world).trans tolerant
    (keeps_recalculateStats tolerant moves.toRecalculates _)

theorem keeps_allocatePlayOrder (world : World) :
    Keeps S world (world.allocatePlayOrder.1.modify mover fun components =>
      { components with playOrder := some world.allocatePlayOrder.2 }) := by
  have counted : Keeps S world world.allocatePlayOrder.1 :=
    .of_entities tolerant rfl rfl rfl rfl subset_rfl le_rfl
  exact counted.trans tolerant (keeps_modify tolerant (fun components => moves.ordered components _) _)

variable {start : World} (resets : ∀ {world}, Keeps S start world → Keeps S start (reset world mover))

include resets

theorem keeps_policy {request : ZoneMoveRequest} (moved : request.entity = mover) {world : World} (source : Zone)
    (before : Keeps S start world) : Keeps S start (applyMovementStatePolicyWith reset world request source) := by
  subst moved
  unfold applyMovementStatePolicyWith
  dsimp only
  have allocated : ∀ {world : World}, Keeps S start world → Keeps S start
      (if request.destination = .play ∧ source ≠ .play then
        world.allocatePlayOrder.1.modify request.entity fun components =>
          { components with playOrder := some world.allocatePlayOrder.2 }
      else world) := by
    intro world before
    split
    · exact before.trans tolerant (keeps_allocatePlayOrder tolerant moves world)
    · exact before
  have tracked : ∀ {world : World}, Keeps S start world → Keeps S start (world.trackEntry request.entity) :=
    fun before => before.trans tolerant (keeps_trackEntry tolerant _ request.entity)
  have cleared : ∀ {world : World}, Keeps S start world → Keeps S start
      (if source = .play ∧ request.destination ≠ .play then world.clearPostDeathAuras request.entity else world) := by
    intro world before
    split
    · exact before.trans tolerant (keeps_clearPostDeathAuras tolerant moves world)
    · exact before
  have reset' : ∀ {world : World}, Keeps S start world → Keeps S start
      (if resetsRuntimeState request.kind source request.destination = true then reset world request.entity
      else if source = .hand ∧ request.destination = .play then
        world.modify request.entity fun components => { components with pendingDestroy := false }
      else world) := by
    intro world before
    split
    · exact resets before
    · split
      · exact before.trans tolerant (keeps_modify tolerant moves.spared world)
      · exact before
  have readied : ∀ {world : World}, Keeps S start world → Keeps S start
      (if source = request.destination ∧ request.destination = .play then
        world.modify request.entity fun components =>
          { components with
            attackState := components.attackState.map fun attack => { attack with readinessBlocked := true } }
      else world) := by
    intro world before
    split
    · exact before.trans tolerant (keeps_modify tolerant (fun components => moves.readied components _) world)
    · exact before
  exact readied (reset' (cleared (tracked (allocated before))))

theorem keeps_moveToGraveyard {world : World} (source : Zone) (controller : PlayerId) (kind : ZoneMovementKind)
    (before : Keeps S start world) :
    Keeps S start (moveToGraveyardAfterFailedMoveWith reset world mover source controller kind).1 := by
  unfold moveToGraveyardAfterFailedMoveWith
  split
  · exact before
  · split
    · exact before
    · rename_i removed _ removal
      have gone := before.trans tolerant (keeps_removeFromIndex tolerant removal)
      split
      · exact gone
      · rename_i inserted insertion
        have arrived := gone.trans tolerant (keeps_insertIntoZone tolerant moves insertion)
        have moved : Keeps S start
            (applyMovementStatePolicyWith reset inserted ⟨mover, controller, .graveyard, none, kind⟩ source) :=
          keeps_policy tolerant moves resets rfl source arrived
        dsimp only
        split
        · exact moved.trans tolerant (keeps_recordFullZoneDeath tolerant _ mover _)
        · exact moved

theorem keeps_relocate {request : ZoneMoveRequest} (moved : request.entity = mover) {world : World} (source : Zone)
    (controller : PlayerId) (before : Keeps S start world) :
    Keeps S start (relocateWith reset world request source controller).1 := by
  subst moved
  unfold relocateWith
  split
  · exact before
  · split
    · exact before
    · rename_i removed _ removal
      have gone := before.trans tolerant (keeps_removeFromIndex tolerant removal)
      dsimp only
      split
      · exact gone.trans tolerant (keeps_insertIntoZoneUnchecked tolerant moves _ _ _ _)
      · exact keeps_policy tolerant moves resets rfl source
          (gone.trans tolerant (keeps_insertIntoZoneUnchecked tolerant moves _ _ _ _))

theorem keeps_moveEntityWith {request : ZoneMoveRequest} (moved : request.entity = mover) {world : World}
    (before : Keeps S start world) : Keeps S start (moveEntityWith reset world request).1 := by
  unfold moveEntityWith
  split
  · rename_i source sourceController _ _
    dsimp only
    split
    · split
      · exact before
      · subst moved
        exact keeps_moveToGraveyard tolerant moves resets source sourceController _ before
    · exact keeps_relocate tolerant moves resets moved source sourceController before
  · exact before

end Moves

section Resets

variable {S : Alteration} (tolerant : S.Tolerant)

include tolerant

theorem keeps_moveDetached {attachment : GameEntityId} (detaches : S.Detaches attachment) (world : World) :
    Keeps S world (world.moveDetached attachment) :=
  keeps_moveEntityWith tolerant detaches.toMoves (fun before => before) rfl
    (keeps_modify tolerant detaches.detached world)

theorem keeps_foldl_moveDetached {attachments : List GameEntityId}
    (detaches : ∀ attachment ∈ attachments, S.Detaches attachment) (world : World) :
    Keeps S world (attachments.foldl moveDetached world) := by
  induction attachments generalizing world with
  | nil => exact .refl tolerant world
  | cons attachment rest ih =>
    have first := keeps_moveDetached tolerant (detaches attachment List.mem_cons_self) world
    exact first.trans tolerant (ih (fun other member => detaches other (List.mem_cons_of_mem _ member)) _)

variable [QueryOrder] {start : World} {mover : GameEntityId} (resets : S.Resets mover)
  (detaches : ∀ {world : World}, Keeps S start world →
    ∀ attachment, world.get attachment (·.attachedTo) = some mover → S.Detaches attachment)

include resets detaches

theorem keeps_resetRuntimeState {world : World} (before : Keeps S start world) :
    Keeps S start (world.resetRuntimeState mover) := by
  have repaired := before.trans tolerant (keeps_modify tolerant resets.repaired world)
  unfold resetRuntimeState
  dsimp only
  split
  · exact repaired
  · rename_i components found
    have gone : Keeps S start ((if components.keepEnchantments = true then [] else
        (QueryOrder.iterEntities (world.modify mover Components.repaired)).filter fun candidate =>
          (world.modify mover Components.repaired).get candidate (·.attachedTo) = some mover).foldl moveDetached
            (world.modify mover Components.repaired)) := by
      apply repaired.trans tolerant
      apply keeps_foldl_moveDetached tolerant
      intro attachment member
      split at member
      · cases member
      · exact detaches repaired attachment (of_decide_eq_true (List.mem_filter.mp member).2)
    have reset := gone.trans tolerant (keeps_modify tolerant (resets.reset components) _)
    exact reset.trans tolerant (keeps_recalculate tolerant resets.toRecalculates _)

theorem keeps_moveEntityWithRequest {request : ZoneMoveRequest} (moved : request.entity = mover) {world : World}
    (before : Keeps S start world) : Keeps S start (world.moveEntityWithRequest request).1 :=
  keeps_moveEntityWith tolerant resets.toMoves (fun before => keeps_resetRuntimeState tolerant resets detaches before)
    moved before

end Resets

end World

end HearthstoneSimulator

import BazelRepo.HearthstoneSimulator.FrameOperations
import BazelRepo.HearthstoneSimulator.OwnUpkeep

namespace HearthstoneSimulator

open Library

def anyAlteration : Alteration := fun _ _ _ => True

theorem pliant_anyAlteration : Alteration.Pliant anyAlteration := by
  have moves : ∀ id, Alteration.Moves anyAlteration id := fun id =>
    { stats := fun _ _ _ => trivial
      keywords := fun _ _ => trivial
      cost := fun _ _ => trivial
      zoned := fun _ _ _ => trivial
      ordered := fun _ _ => trivial
      calmed := fun _ => trivial
      spared := fun _ => trivial
      readied := fun _ _ => trivial }
  exact
    { refl := fun _ _ => trivial
      trans := fun _ _ => trivial
      positioned := fun _ _ _ => trivial
      resets := fun id =>
        { toMoves := moves id
          repaired := fun _ => trivial
          reset := fun _ _ => trivial }
      detaches := fun id =>
        { toMoves := moves id
          detached := fun _ => trivial }
      muted := fun _ _ => trivial
      transformed := fun _ _ _ => trivial
      cached := fun _ _ _ _ => trivial }

section Flows

variable [QueryOrder]

/-- An invariant of a resolution, whatever becomes of the entities. -/
structure Flow (allowed : World → ResolutionOp → Prop) (I : List EventId → World → Prop) : Prop where
  forgets : Procedure.Forgets I
  kept : ∀ {held world other}, World.Keeps anyAlteration world other → I held world → I held other
  tidy : ∀ {held} {world : World} {change}, Tidy world.work (change world.work) → I held world →
    I held (world.withWork change)
  common : ∀ {world} {operation : ResolutionOp}, operation.Common → allowed world operation
  push : ∀ {held world operations}, (∀ operation ∈ operations, allowed world operation) →
    I (operations.filterMap ResolutionOp.resolvedEvent ++ held) world → I held (world.scheduled operations)
  record : ∀ {held world context}, I held world → I (world.work.nextEventId :: held) (world.recorded context none)
  recordSeeds : ∀ {held world context}, I held world →
    I (world.work.nextEventId :: held) (world.recorded context (some (world.collectTriggerSeeds context)))

variable {allowed : World → ResolutionOp → Prop} {I : List EventId → World → Prop}

omit [QueryOrder] in
theorem Aside.keeps {world other : World} (aside : Aside world other) : World.Keeps anyAlteration world other :=
  .of_entities pliant_anyAlteration.toTolerant aside.entities aside.work aside.ruleset aside.nativeEffectRegistry
    aside.defeatedHeroes (le_of_eq aside.nextGameEntityId.symm)

omit [QueryOrder] in
theorem keeps_modifyAny (world : World) (id : GameEntityId) (change : Components → Components) :
    World.Keeps anyAlteration world (world.modify id change) :=
  World.keeps_modify pliant_anyAlteration.toTolerant (fun _ => trivial) world

omit [QueryOrder] in
theorem keeps_consumeDurability (world : World) (player : PlayerId) (weapon : GameEntityId) :
    World.Keeps anyAlteration world (world.consumeDurability player weapon) := by
  have tolerant := pliant_anyAlteration.toTolerant
  unfold World.consumeDurability
  split
  · exact .refl tolerant world
  · split
    · exact .refl tolerant world
    · exact (keeps_modifyAny world weapon _).trans tolerant
        (.of_entities tolerant rfl rfl rfl rfl subset_rfl le_rfl)

theorem Flow.admits (flow : Flow allowed I) : Admits allowed (fun _ => True) I := by
  have same : ∀ {held} {world other : World}, World.Keeps anyAlteration world other → I held world → I held other :=
    flow.kept
  have pliant := pliant_anyAlteration
  exact
    { forgets := flow.forgets
      aside := fun aside => same aside.keeps
      tidy := flow.tidy
      common := flow.common
      push := flow.push
      record := flow.record
      recordSeeds := flow.recordSeeds
      move := same (World.keeps_move pliant _ _)
      spawn := same (World.keeps_spawnCardAt pliant _ _ _ _ _)
      tweak := fun _ => same (keeps_modifyAny _ _ _)
      resources := fun _ => same (keeps_modifyAny _ _ _)
      fatigued := trivial
      attachStat := fun attached => same (World.keeps_attachModifier pliant
        (fun world => World.keeps_recalculateStats pliant.toTolerant (pliant.resets _).toRecalculates world) attached)
      attachKeyword := fun attached => same (World.keeps_attachModifier pliant
        (fun world => World.keeps_recalculateKeywords pliant.toTolerant (pliant.resets _).toRecalculates world) attached)
      attachCost := fun attached => same (World.keeps_attachModifier pliant
        (fun world => World.keeps_recalculateCost pliant.toTolerant (pliant.resets _).toRecalculates world) attached)
      attachContinuous := fun attached => same (World.keeps_attachContinuousEffect pliant attached)
      attachTriggers := fun attached => same (World.keeps_attachTriggers pliant attached)
      silence := fun silenced => same (World.keeps_silence pliant silenced)
      detachAll := same (World.keeps_detachAll pliant _ _)
      transform := fun transforms => same (World.keeps_transform pliant transforms)
      expire := same (World.keeps_expire pliant _ _ _)
      copy := fun _ _ placed restored => same (World.keeps_copy pliant placed restored)
      hero := fun placed => same (World.keeps_hero pliant placed _)
      beginEquip := fun _ _ => same (World.keeps_beginEquip pliant _ _ _)
      finishEquip := same (World.keeps_finishEquip pliant _ _)
      refreshHealthAttack := same (World.keeps_refreshHealthAttackAuras pliant _)
      createDeaths := same (World.keeps_createDeaths pliant _)
      refreshPostDeath := same (World.keeps_refreshPostDeathAuras pliant _)
      refreshAll := same (World.keeps_refreshAllAuras pliant _)
      refreshPlayed := same (World.keeps_refreshPlayedProvider pliant _ _) }

theorem Flow.above (flow : Flow allowed I) (bound : GameEntityId) :
    Flow allowed fun held world => I held world ∧ bound ≤ world.nextGameEntityId where
  forgets := ⟨fun part invariant => ⟨flow.forgets.keep part invariant.1, invariant.2⟩⟩
  kept kept invariant := ⟨flow.kept kept invariant.1, invariant.2.trans kept.nextGameEntityId⟩
  tidy tidy invariant := ⟨flow.tidy tidy invariant.1, invariant.2⟩
  common := flow.common
  push permitted invariant := ⟨flow.push permitted invariant.1, invariant.2⟩
  record invariant := ⟨flow.record invariant.1, invariant.2⟩
  recordSeeds invariant := ⟨flow.recordSeeds invariant.1, invariant.2⟩

end Flows

end HearthstoneSimulator

import BazelRepo.HearthstoneSimulator.World
import BazelRepo.Library.Ranking
import Mathlib.Data.List.Nodup

namespace HearthstoneSimulator

open Library

def resolvePlayer (controller : PlayerId) : PlayerSelector → PlayerId
  | .controller => controller
  | .opponent => controller.opponent
  | .player player => player

def zoneBucket : Zone → Nat
  | .play => 0
  | .secret => 1
  | .hand => 2
  | .deck => 3
  | .graveyard => 4
  | .setAside => 5
  | .removedFromGame => 6

def TriggerOrderKey.key (order : TriggerOrderKey) : ℕ ×ₗ ℕ ×ₗ ℤ ×ₗ ℕ ×ₗ ℕ ×ₗ ℕ :=
  toLex (order.playerBucket, toLex (order.zoneBucket, toLex (order.priority.toInt, toLex (order.playOrder,
    toLex (order.source, order.tieBreaker)))))

/-- Whether a selector of minions or characters in Play reaches the zone of a player. -/
def Selector.reaches (controller player : PlayerId) : Selector → Bool
  | .friendlyMinions | .friendlyCharacters => player = controller
  | .enemyMinions | .enemyCharacters => player = controller.opponent
  | _ => true

def Selector.includesKind (kind : Option EntityKind) : Selector → Bool
  | .friendlyMinions | .enemyMinions | .allMinions => kind = some .minion
  | _ => kind = some .hero ∨ kind = some .minion

namespace World

def selectInPlay (world : World) (controller : PlayerId) (selector : Selector) : List GameEntityId :=
  ([PlayerId.one, .two].filter fun player => selector.reaches controller player).flatMap fun player =>
    (world.zoneIndex player .play).filter fun id => selector.includesKind (world.get id (·.kind))

def attachedEntity (world : World) (source : GameEntityId) : Option GameEntityId :=
  (world.get source (·.attachedTo)).filter fun target => (world.entities[target]?).isSome

def selectorCount (world : World) (source : GameEntityId) (controller : PlayerId) (event : Option EventContext) :
    Selector → Nat
  | .source => if (world.entities[source]?).isSome then 1 else 0
  | .drawnCard => 0
  | .attachedEntity => if (world.attachedEntity source).isSome then 1 else 0
  | .declaredTarget =>
    if (event.bind fun event => event.targets.head?).any fun target => (world.entities[target]?).isSome then 1 else 0
  | .entity entity => if (world.entities[entity]?).isSome then 1 else 0
  | .inZone player zone => (world.zoneIndex (resolvePlayer controller player) zone).length
  | .random inner => if 0 < world.selectorCount source controller event inner then 1 else 0
  | selector => (world.selectInPlay controller selector).length

def evaluateCondition (world : World) (source : GameEntityId) (controller : PlayerId) (event : Option EventContext)
    (condition : TriggerCondition) : Bool :=
  let currentController := (world.get source (·.controller)).getD controller
  match condition with
  | .always => true
  | .sourceInPlay => world.get source (·.zone) = some .play
  | .sourceInZone zone => world.get source (·.zone) = some zone
  | .eventValueAtLeast value =>
    (event.bind fun event => event.actualValue.or event.proposedValue).any fun actual => value ≤ actual
  | .eventSourceIsSelf => (event.bind fun event => event.source) = some source
  | .eventTargetsSelf => event.any fun event => event.targets.contains source
  | .eventTargetsAttachedEntity =>
    (world.attachedEntity source).any fun attached => event.any fun event => event.targets.contains attached
  | .eventControllerIs player => event.any fun event => event.controller = resolvePlayer currentController player
  | .controllerIs player => currentController = player
  | .minimumEntityCount selector count => count ≤ world.selectorCount source currentController event selector

def triggerSeedIsEligible (world : World) (seed : TriggerSeed) (event : EventContext) (timing : ConditionTiming) :
    Bool :=
  let present : Bool := match seed.definition.sourceEligibility with
    | .mustExist => (world.entities[seed.source]?).isSome
    | .mustRemainInEligibleZone =>
      (world.get seed.source (·.zone)).any fun zone => seed.definition.eligibleZones.contains zone
    | .rememberedSource => true
  present && (seed.definition.conditions.filter fun condition => condition.timing = timing).all fun condition =>
    world.evaluateCondition seed.source seed.controller (some event) condition.condition

def triggerSeeds (world : World) (event : EventContext) (source : GameEntityId) : List TriggerSeed :=
  match world.entities[source]? with
  | none => []
  | some components =>
    match components.runtimeTriggers, components.zone, components.controller with
    | some triggers, some zone, some controller =>
      if components.silenced then
        []
      else
        triggers.zipIdx.filterMap fun indexed : TriggerDefinition × Nat =>
          let seed : TriggerSeed :=
            { source := source
              definitionIndex := indexed.2
              definition := indexed.1
              controller := controller
              zone := zone
              playOrder := components.playOrder.getD 0 }
          if indexed.1.event = event.kind ∧ indexed.1.eligibleZones.contains zone = true ∧
              world.triggerSeedIsEligible seed event .preCheck = true then
            some seed
          else
            none
    | _, _, _ => []

def collectTriggerSeeds [QueryOrder] (world : World) (event : EventContext) : List TriggerSeed :=
  sortByKey (fun seed : TriggerSeed => (toLex (seed.playOrder, toLex (seed.source, seed.definitionIndex)) : ℕ ×ₗ ℕ ×ₗ ℕ))
    ((QueryOrder.iterEntities world).flatMap (world.triggerSeeds event))

def triggerCandidate (world : World) (id : EventId) (event : EventContext) (seed : TriggerSeed) : TriggerCandidate :=
  let controller := (world.get seed.source (·.controller)).getD seed.controller
  { source := seed.source
    event := id
    definitionIndex := seed.definitionIndex
    definition := seed.definition
    controller := controller
    order :=
      { playerBucket := if controller = world.dominantPlayer then 0 else 1
        zoneBucket := if event.kind = .death then 0 else zoneBucket seed.zone
        priority := seed.definition.priority
        playOrder := seed.playOrder
        source := seed.source
        tieBreaker := seed.definitionIndex } }

def collectTriggerCandidates (world : World) (id : EventId) (event : EventContext) (seeds : List TriggerSeed) :
    List TriggerCandidate :=
  sortByKey (fun candidate : TriggerCandidate => candidate.order.key)
    ((seeds.filter fun seed => world.triggerSeedIsEligible seed event .queueTime).map (world.triggerCandidate id event))

def triggerIsEligible (world : World) (candidate : TriggerCandidate) (event : EventContext) (timing : ConditionTiming) :
    Bool :=
  world.triggerSeedIsEligible
    { source := candidate.source
      definitionIndex := candidate.definitionIndex
      definition := candidate.definition
      controller := candidate.controller
      zone := (world.get candidate.source (·.zone)).getD .removedFromGame
      playOrder := candidate.order.playOrder } event timing

end World

def TriggerSeed.mark (seed : TriggerSeed) : GameEntityId × Nat := (seed.source, seed.definitionIndex)

def TriggerCandidate.mark (candidate : TriggerCandidate) : GameEntityId × Nat :=
  (candidate.source, candidate.definitionIndex)

namespace World

theorem source_triggerSeeds {world : World} {event : EventContext} {source : GameEntityId} {seed : TriggerSeed}
    (member : seed ∈ world.triggerSeeds event source) : seed.source = source ∧ (world.entities[source]?).isSome := by
  unfold triggerSeeds at member
  split at member
  · cases member
  · rename_i components found
    rw [found]
    split at member
    · split at member
      · cases member
      · rcases List.mem_filterMap.mp member with ⟨indexed, _, made⟩
        dsimp only at made
        split at made
        · cases made
          exact ⟨rfl, rfl⟩
        · cases made
    · cases member

theorem nodup_triggerSeeds (world : World) (event : EventContext) (source : GameEntityId) :
    ((world.triggerSeeds event source).map TriggerSeed.mark).Nodup := by
  unfold triggerSeeds
  split
  · exact List.nodup_nil
  · split
    · split
      · exact List.nodup_nil
      · rename_i triggers _ _ _ _ _ _
        have indices : (triggers.zipIdx.map Prod.snd).Nodup := by
          rw [List.zipIdx_map_snd]
          exact List.nodup_range'
        generalize triggers.zipIdx = indexed at indices
        induction indexed with
        | nil => exact List.nodup_nil
        | cons first rest ih =>
          rw [List.map_cons, List.nodup_cons] at indices
          have later := ih indices.2
          rw [List.filterMap_cons]
          dsimp only
          split
          · exact later
          · rename_i seed made
            split at made
            · cases made
              rw [List.map_cons, List.nodup_cons]
              refine ⟨?_, later⟩
              intro member
              rcases List.mem_map.mp member with ⟨other, listed, same⟩
              rcases List.mem_filterMap.mp listed with ⟨entry, inside, produced⟩
              split at produced
              · cases produced
                have number : entry.2 = first.2 := (Prod.mk.inj same).2
                apply indices.1
                rw [← number]
                exact List.mem_map_of_mem inside
              · cases produced
            · cases made
    · exact List.nodup_nil

section Collection

variable [order : QueryOrder]

theorem nodup_flatMap_triggerSeeds (world : World) (event : EventContext) :
    (((QueryOrder.iterEntities world).flatMap (world.triggerSeeds event)).map TriggerSeed.mark).Nodup := by
  rw [List.map_flatMap, List.nodup_flatMap]
  refine ⟨fun source _ => nodup_triggerSeeds world event source, ?_⟩
  apply (List.nodup_iff_pairwise_ne.mp (nodup_iterEntities world)).imp
  intro source other apart mark first second
  rcases List.mem_map.mp first with ⟨seed, listed, rfl⟩
  rcases List.mem_map.mp second with ⟨seed', listed', same⟩
  apply apart
  rw [← (source_triggerSeeds listed).1, ← (source_triggerSeeds listed').1]
  exact (Prod.mk.inj same).1.symm

theorem nodup_collectTriggerSeeds (world : World) (event : EventContext) :
    ((world.collectTriggerSeeds event).map TriggerSeed.mark).Nodup := by
  unfold collectTriggerSeeds
  rw [((perm_sortByKey _ _).map TriggerSeed.mark).nodup_iff]
  exact nodup_flatMap_triggerSeeds world event

theorem source_collectTriggerSeeds {world : World} {event : EventContext} {seed : TriggerSeed}
    (member : seed ∈ world.collectTriggerSeeds event) : (world.entities[seed.source]?).isSome := by
  rcases List.mem_flatMap.mp (mem_sortByKey.mp member) with ⟨source, _, listed⟩
  rcases source_triggerSeeds listed with ⟨same, present⟩
  rwa [same]

end Collection

theorem pairwise_collectTriggerCandidates {seeds : List TriggerSeed} (distinct : (seeds.map TriggerSeed.mark).Nodup)
    (world : World) (id : EventId) (event : EventContext) :
    (world.collectTriggerCandidates id event seeds).Pairwise fun a b => a.order.key < b.order.key := by
  apply strict_sortByKey
  rw [List.map_map]
  apply List.Nodup.of_map fun key : ℕ ×ₗ ℕ ×ₗ ℤ ×ₗ ℕ ×ₗ ℕ ×ₗ ℕ =>
    ((ofLex (ofLex (ofLex (ofLex (ofLex key).2).2).2).2).1, (ofLex (ofLex (ofLex (ofLex (ofLex key).2).2).2).2).2)
  rw [List.map_map]
  exact List.Nodup.sublist (List.filter_sublist.map TriggerSeed.mark) distinct

theorem mem_collectTriggerCandidates {world : World} {id : EventId} {event : EventContext} {seeds : List TriggerSeed}
    {candidate : TriggerCandidate} (member : candidate ∈ world.collectTriggerCandidates id event seeds) :
    candidate.event = id ∧ ∃ seed ∈ seeds, seed.mark = candidate.mark := by
  rcases List.mem_map.mp (mem_sortByKey.mp member) with ⟨seed, listed, rfl⟩
  exact ⟨rfl, seed, List.mem_of_mem_filter listed, rfl⟩

theorem nodup_collectTriggerCandidates {seeds : List TriggerSeed} (distinct : (seeds.map TriggerSeed.mark).Nodup)
    (world : World) (id : EventId) (event : EventContext) :
    ((world.collectTriggerCandidates id event seeds).map TriggerCandidate.mark).Nodup := by
  unfold collectTriggerCandidates
  rw [((perm_sortByKey _ _).map TriggerCandidate.mark).nodup_iff, List.map_map]
  exact List.Nodup.sublist (List.filter_sublist.map TriggerSeed.mark) distinct

end World

end HearthstoneSimulator

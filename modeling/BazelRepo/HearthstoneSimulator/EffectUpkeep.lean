import BazelRepo.HearthstoneSimulator.Upkeep
import BazelRepo.Library.Listing

namespace HearthstoneSimulator

open Library

theorem Aside.refl (world : World) : Aside world world :=
  ⟨rfl, rfl, rfl, rfl, rfl, rfl, rfl, le_rfl, subset_rfl⟩

theorem Aside.trans {world middle other : World} (first : Aside world middle) (second : Aside middle other) :
    Aside world other where
  entities := second.entities.trans first.entities
  zoneIndex := second.zoneIndex.trans first.zoneIndex
  ruleset := second.ruleset.trans first.ruleset
  weaponEquipment := second.weaponEquipment.trans first.weaponEquipment
  nextGameEntityId := second.nextGameEntityId.trans first.nextGameEntityId
  nativeEffectRegistry := second.nativeEffectRegistry.trans first.nativeEffectRegistry
  work := second.work.trans first.work
  playOrderCounter := first.playOrderCounter.trans second.playOrderCounter
  defeatedHeroes := first.defeatedHeroes.trans second.defeatedHeroes

theorem Tidy.replaceEvent {work : ResolutionWork} {event : EventId} {prepared after : PreparedEvent}
    (present : work.events[event]? = some prepared) (kind : after.context.kind = prepared.context.kind)
    (precheckedTriggers : after.precheckedTriggers = prepared.precheckedTriggers)
    (candidates : after.candidates = prepared.candidates) :
    Tidy work { work with events := work.events.insert event after } := by
  refine ⟨rfl, rfl, rfl, rfl, rfl, rfl, rfl, ?_⟩
  intro other found inserted
  rw [BTreeMap.getElem?_insert_eq] at inserted
  split at inserted
  · rename_i same
    cases inserted
    exact ⟨prepared, same ▸ present, kind, precheckedTriggers, candidates⟩
  · exact ⟨found, inserted, rfl, rfl, rfl⟩

namespace World

theorem aside_chooseGameEntity (world : World) (candidates : List GameEntityId) :
    Aside world (world.chooseGameEntity candidates).1 := by
  unfold chooseGameEntity
  dsimp only
  split
  · exact .refl world
  · exact ⟨rfl, rfl, rfl, rfl, rfl, rfl, rfl, le_rfl, subset_rfl⟩

theorem aside_selectEntities (context : EffectContext) (selector : Selector) (world : World) :
    Aside world (world.selectEntities context selector).1 := by
  induction selector with
  | random inner ih => exact ih.trans (aside_chooseGameEntity _ _)
  | _ => exact .refl world

end World

theorem tweaks_pendingDestroy : Tweaks fun components => { components with pendingDestroy := true } :=
  fun _ => rfl

theorem chooseEffect_common {context : EffectContext} {id : ChoiceId} {player : PlayerSelector}
    {options : List EffectChoiceOption} :
    (ResolutionOp.requestChoice (chooseEffect context id player options)).Common := by
  intro option offered operation member
  rcases List.mem_map.mp offered with ⟨choice, _, rfl⟩
  rcases List.mem_map.mp member with ⟨effect, _, rfl⟩
  rfl

theorem copyOps_copies {world : World} {context : EffectContext} {controller : PlayerId} {zone : Zone}
    {boardIndex : Option Nat} {targets : List GameEntityId} {operations : List ResolutionOp}
    (copied : copyOps world context controller zone boardIndex targets = .ok operations) :
    ∀ operation ∈ operations, ∃ request, operation = .copyEntity request := by
  intro operation member
  rcases (mem_of_mapM copied operation).mp member with ⟨target, _, found⟩
  dsimp only at found
  split at found
  · rcases bind_eq_ok.mp found with ⟨policy, _, same⟩
    exact ⟨_, (Except.ok.inj same).symm⟩
  · exact ⟨_, (Except.ok.inj found).symm⟩

section Admission

variable [QueryOrder]

namespace Admits

open Procedure

variable {allowed : World → ResolutionOp → Prop} {granted : (Player → Player) → Prop}
  {I : List EventId → World → Prop} {given : List EventId} (admits : Admits allowed granted I)

include admits

theorem selectEntities (context : EffectContext) (selector : Selector) : Maintains I (selectEntities context selector) :=
  .changing fun _ _ => admits.aside (World.aside_selectEntities context selector _)

theorem modifyEventValue (event : Option EventId) (context : EffectContext) (operation : EventValueOperation)
    (expression : ValueExpression) : Maintains I (modifyEventValue event context operation expression) := by
  apply Uses.ofExcept_bind admits.forgets
  intro event _ world
  apply UsesAt.read_bind
  apply UsesAt.ofExcept_bind admits.forgets
  intro prepared found
  apply UsesAt.ofExcept_bind admits.forgets
  intro previous _
  apply UsesAt.change_bind
  · intro held invariant
    rcases Option.filter_eq_some_iff.mp (okOr_eq_ok.mp found) with ⟨present, _⟩
    exact admits.tidy (.replaceEvent present rfl rfl rfl) invariant
  · exact admits.trace _ _

theorem drawEffect (player : PlayerId) (source : Option GameEntityId) (count : Nat) :
    Maintains I (drawEffect player source count) := by
  apply Uses.read_bind
  intro world
  split
  · exact admits.raise _
  · apply Uses.bind admits.forgets (Maintains.mapM admits.forgets fun _ _ => admits.allocateDrawResultSlot)
    intro slots
    apply admits.pushEventless
    · simp only [List.mem_flatMap]
      rintro operation ⟨slot, _, member⟩
      simp only [List.mem_cons, List.not_mem_nil, or_false] at member
      rcases member with rfl | rfl <;> trivial
    · simp only [List.mem_flatMap]
      rintro operation ⟨slot, _, member⟩
      simp only [List.mem_cons, List.not_mem_nil, or_false] at member
      rcases member with rfl | rfl <;> rfl

theorem moveTarget (player : PlayerId) (zone : Zone) (kind : ZoneMovementKind) (target : GameEntityId) :
    Maintains I (moveTarget player zone kind target) := by
  apply Uses.bind admits.forgets (admits.moveEntityRequested _)
  intro outcome
  cases outcome with
  | moved source _ _ => exact admits.trace _
  | fullZoneRemoval source _ _ => exact admits.trace _
  | preventedByFullZone => exact Uses.pure admits.forgets _

theorem moveEffect (context : EffectContext) (targets : Selector) (player : PlayerSelector) (zone : Zone)
    (kind : ZoneMovementKind) : Maintains I (moveEffect context targets player zone kind) := by
  apply Uses.bind admits.forgets (admits.selectEntities _ _)
  intro targets
  apply Uses.read_bind
  intro world
  exact Maintains.forM admits.forgets fun _ _ => admits.moveTarget _ _ _ _

theorem scheduleExtraTurns (player : PlayerId) (count : UInt32) (timing : ExtraTurnTiming) :
    Maintains I (scheduleExtraTurns player count timing) := by
  apply Uses.bind admits.forgets
  · exact .change fun _ _ => admits.aside ⟨rfl, rfl, rfl, rfl, rfl, rfl, rfl, le_rfl, subset_rfl⟩
  · exact fun _ => admits.trace _

theorem moveEntity (id : GameEntityId) (destination : Zone) (position : Option Nat) :
    Maintains I (moveEntity id destination position) := by
  intro world held invariant
  show I held (world.moveEntity id destination position).1
  unfold World.moveEntity
  split
  · exact invariant
  · exact admits.move invariant

theorem settleSummoned {held : List EventId} {world : World} (invariant : I held world) (summoned : GameEntityId)
    (boardIndex : Option Nat) : I held (world.settleSummoned summoned boardIndex).1 := by
  have moves := fun index => admits.moveEntity summoned .play (some index) world held invariant
  have settled : ∀ {other : World}, I held other →
      I held (other.allocatePlayOrder.1.modify summoned fun components =>
        { components with playOrder := some other.allocatePlayOrder.2 }) := by
    intro other kept
    apply admits.tweak (tweaks_playOrder _)
    exact admits.aside (World.aside_allocatePlayOrder other) kept
  unfold World.settleSummoned
  cases boardIndex with
  | none => exact settled invariant
  | some index =>
    have moved := moves index
    unfold HearthstoneSimulator.moveEntity at moved
    dsimp only at moved ⊢
    rcases result : world.moveEntity summoned .play (some index) with ⟨other, error | outcome⟩
    · rwa [result] at moved
    · rw [result] at moved
      exact settled moved

theorem summon (player : PlayerId) (card : Card) (boardIndex : Option Nat) :
    Maintains I (fun world => world.summon player card boardIndex : Sim (Option GameEntityId)) := by
  intro world held invariant
  show I held (world.summon player card boardIndex).1
  unfold World.summon
  split
  · exact invariant
  · split
    · exact invariant
    · have spawned := admits.spawnCard player card .play world held invariant
      unfold HearthstoneSimulator.spawnCard at spawned
      rcases result : world.spawnCard player card .play with ⟨other, error | summoned⟩
      · rwa [result] at spawned
      · rw [result] at spawned
        have settled := admits.settleSummoned spawned summoned boardIndex
        dsimp only
        rcases settles : other.settleSummoned summoned boardIndex with ⟨last, error | _⟩
        · rwa [settles] at settled
        · rwa [settles] at settled

theorem summonEffect (source : Option GameEntityId) (player : PlayerId) (card : Card) (boardIndex : Option Nat) :
    Maintains I (summonEffect source player card boardIndex) := by
  apply Uses.bind admits.forgets (admits.summon _ _ _)
  intro summoned
  cases summoned with
  | none => exact Uses.pure admits.forgets _
  | some summoned => exact admits.announceSummoned _ _ _

theorem gainResource {player : PlayerId} {amount : Int32} {temporary : Bool}
    (permitted : ∀ maximum : Int32, granted fun player =>
      if temporary then
        { player with temporaryResources := player.temporaryResources + amount }
      else
        { player with maximumResources := min (player.maximumResources + amount) maximum }) :
    Maintains I (gainResource player amount temporary) := by
  apply Uses.read_bind
  intro world
  exact admits.changePlayer (permitted _) _

theorem attachEach {attach : World → GameEntityId → Except SimulationError (World × GameEntityId)}
    (kept : ∀ {held world target attached}, attach world target = .ok attached → I held world → I held attached.1)
    (targets : List GameEntityId) : Maintains I (attachEach targets attach) := by
  apply Maintains.forM admits.forgets
  intro target _
  apply replacing_maintains
  intro held world other attached invariant
  cases result : attach world target with
  | error error =>
    rw [result] at attached
    cases attached
  | ok found =>
    rw [result] at attached
    cases attached
    exact kept result invariant

theorem silenceEach (targets : List GameEntityId) :
    Maintains I (targets.forM fun target => replacing (·.silenceEntity target)) :=
  Maintains.forM admits.forgets fun _ _ => replacing_maintains admits.silence

theorem setPendingDestroy (target : GameEntityId) : Maintains I (setPendingDestroy target) :=
  admits.tweakBy tweaks_pendingDestroy target

theorem pushEach {α : Type} {operation : α → ResolutionOp} (common : ∀ a, (operation a).Common)
    (eventless : ∀ a, (operation a).resolvedEvent = none) (targets : List α) :
    Maintains I (HearthstoneSimulator.pushResolutionOps (targets.map operation)) := by
  apply admits.pushEventless
  · intro pushed member
    rcases List.mem_map.mp member with ⟨target, _, rfl⟩
    exact common target
  · intro pushed member
    rcases List.mem_map.mp member with ⟨target, _, rfl⟩
    exact eventless target

variable [NativeEffects]

theorem nativeEffect (context : EffectContext) (event : Option EventId) (id : NativeEffectId) :
    Maintains I (nativeEffect context event id) := by
  apply Uses.read_bind
  intro world
  split
  · apply Uses.ofExcept_bind admits.forgets
    intro plan _
    apply Uses.ofExcept_bind admits.forgets
    intro _ _
    exact admits.pushScopedEffects _ _ _ _
  · exact admits.raise _

theorem executeScopedEffect (context : EffectContext) (event : Option EventId) (playScope : Option ResolutionId)
    {effect : Effect}
    (gains : ∀ player amount temporary, effect = .gainResource player amount temporary →
      Maintains I (HearthstoneSimulator.gainResource (resolvePlayer context.controller player) amount temporary)) :
    Maintains I (executeScopedEffect context event playScope effect) := by
  cases effect with
  | choose id player options =>
    apply Uses.read_bind
    intro world
    apply Uses.ofExcept_bind admits.forgets
    intro _ _
    apply Uses.bind_pure
    exact admits.pushResolutionOp chooseEffect_common rfl
  | dealDamage targets amount =>
    apply Uses.bind admits.forgets (admits.selectEntities _ _)
    intro targets
    apply Uses.read_bind
    exact fun _ => admits.applyDamageBatch _ _
  | heal targets amount =>
    apply Uses.bind admits.forgets (admits.selectEntities _ _)
    intro targets
    apply Uses.read_bind
    exact fun _ => admits.applyHealingBatch _ _
  | modifyEventValue operation value => exact admits.modifyEventValue _ _ _ _
  | destroy targets =>
    apply Uses.bind admits.forgets (admits.selectEntities _ _)
    exact fun _ => Maintains.forM admits.forgets fun _ _ => admits.setPendingDestroy _
  | draw player count => exact admits.drawEffect _ _ _
  | drawThen player effects policy =>
    apply Uses.bind admits.forgets admits.allocateDrawResultSlot
    intro result
    apply admits.pushEventless
    · simp [ResolutionOp.Common]
    · simp [ResolutionOp.resolvedEvent]
  | move targets player zone kind => exact admits.moveEffect _ _ _ _ _
  | gainResource player amount temporary => exact gains player amount temporary rfl
  | scheduleExtraTurns player count timing => exact admits.scheduleExtraTurns _ _ _
  | replaceHero player replacement => exact admits.replaceHero _ _
  | summon player card boardIndex => exact admits.summonEffect _ _ _ _
  | attachStatModifier targets modifier duration =>
    apply Uses.bind admits.forgets (admits.selectEntities _ _)
    exact admits.attachEach admits.attachStat
  | attachKeywordModifier targets modifier duration =>
    apply Uses.bind admits.forgets (admits.selectEntities _ _)
    exact admits.attachEach admits.attachKeyword
  | attachCostModifier targets modifier duration =>
    apply Uses.bind admits.forgets (admits.selectEntities _ _)
    exact admits.attachEach admits.attachCost
  | attachContinuousEffect targets effect silenceRemovable duration =>
    apply Uses.bind admits.forgets (admits.selectEntities _ _)
    exact admits.attachEach admits.attachContinuous
  | attachTriggerEnchantment targets triggers duration silenceRemovable =>
    apply Uses.read_bind
    intro world
    apply Uses.ofExcept_bind admits.forgets
    intro _ _
    apply Uses.bind admits.forgets (admits.selectEntities _ _)
    exact admits.attachEach admits.attachTriggers
  | silence targets =>
    apply Uses.bind admits.forgets (admits.selectEntities _ _)
    exact admits.silenceEach
  | transform targets card kind =>
    apply Uses.bind admits.forgets (admits.selectEntities _ _)
    exact admits.pushEach (fun _ => trivial) fun _ => rfl
  | copy targets player zone boardIndex =>
    apply Uses.bind admits.forgets (admits.selectEntities _ _)
    intro targets
    apply Uses.read_bind
    intro world
    apply Uses.ofExcept_bind admits.forgets
    intro requests copied
    apply admits.pushEventless
    · intro operation member
      rcases copyOps_copies copied operation member with ⟨request, rfl⟩
      trivial
    · intro operation member
      rcases copyOps_copies copied operation member with ⟨request, rfl⟩
      rfl
  | native id => exact admits.nativeEffect _ _ _
  | sequence nested => exact admits.pushScopedEffects _ _ _ _

end Admits

end Admission

end HearthstoneSimulator

import BazelRepo.HearthstoneSimulator.EffectExecutor
import BazelRepo.HearthstoneSimulator.Frame

namespace HearthstoneSimulator

open Library

structure Alteration.Pliant (S : Alteration) : Prop extends Alteration.Tolerant S where
  resets : ∀ id, S.Resets id
  detaches : ∀ id, S.Detaches id
  muted : ∀ id components, S id components (Components.muted components)
  transformed : ∀ id card components, S id components (Components.transformed card components)
  cached : ∀ id category applications components,
    S id components (Components.withAuraCache category applications components)

namespace World

theorem Keeps.modify_new {S : Alteration} {world middle : World} {id : GameEntityId} (before : Keeps S world middle)
    (new : world.nextGameEntityId ≤ id) (change : Components → Components) :
    Keeps S world (middle.modify id change) := by
  refine ⟨before.work, before.ruleset, before.nativeEffectRegistry, before.defeatedHeroes, before.nextGameEntityId,
    ?_, ?_⟩
  · intro a present
    rw [entities_modify, Option.isSome_map] at present
    exact before.born a present
  · intro a components old found
    rcases before.altered a components old found with ⟨after, present, altered⟩
    have apart : a ≠ id := fun same => absurd old (same ▸ Nat.not_lt.mpr new)
    refine ⟨after, ?_, altered⟩
    rw [entities_modify, present, Option.map_some, if_neg apart]

section Operations

variable {S : Alteration} (pliant : S.Pliant)

include pliant

theorem keeps_insert (world : World) (components : Components) (playOrderCounter : Nat) :
    Keeps S world { world with
      nextGameEntityId := world.nextGameEntityId + 1
      playOrderCounter := playOrderCounter
      entities := world.entities.insert world.nextGameEntityId components } := by
  refine ⟨rfl, rfl, rfl, subset_rfl, Nat.le_succ _, ?_, ?_⟩
  · intro id present
    dsimp only at present ⊢
    rw [BTreeMap.getElem?_insert_eq] at present
    split at present
    · rename_i same
      subst same
      exact .inr ⟨le_rfl, Nat.lt_succ_self _⟩
    · exact .inl present
  · intro id found old present
    have apart : id ≠ world.nextGameEntityId := Nat.ne_of_lt old
    refine ⟨found, ?_, pliant.refl id found⟩
    dsimp only
    rw [BTreeMap.getElem?_insert_eq, if_neg apart]
    exact present

theorem keeps_spawnCardAt (world : World) (player : PlayerId) (card : Card) (zone : Zone) (position : Option Nat) :
    Keeps S world (world.spawnCardAt player card zone position).1 := by
  unfold spawnCardAt
  split
  · exact .refl pliant.toTolerant world
  · unfold spawnValidatedCard
    dsimp only
    split
    · exact .of_entities pliant.toTolerant rfl rfl rfl rfl subset_rfl (Nat.le_succ _)
    · rename_i inserted insertion
      have spawned := keeps_insert pliant world (card.spawned player) world.playOrderCounter
      exact (spawned.trans pliant.toTolerant
        (keeps_insertIntoZone pliant.toTolerant (pliant.resets _).toMoves insertion)).trans pliant.toTolerant
          (keeps_trackEntry pliant.toTolerant inserted _)

theorem keeps_spawnAttachedEnchantment {world other : World} {controller : PlayerId} {target id : GameEntityId}
    {definitionId displayName : String} {duration : EnchantmentDuration} {silenceRemovable : Bool}
    (spawned : world.spawnAttachedEnchantment controller target definitionId displayName duration silenceRemovable =
      .ok (other, id)) : Keeps S world other ∧ id = world.nextGameEntityId := by
  refine ⟨?_, (spawnAttachedEnchantment_inv spawned).1⟩
  unfold spawnAttachedEnchantment at spawned
  rcases bind_eq_ok.mp spawned with ⟨host, _, spawned⟩
  dsimp only at spawned
  split at spawned
  · rename_i inserted insertion
    cases spawned
    exact (keeps_insert pliant world _ _).trans pliant.toTolerant
      (keeps_insertIntoZone pliant.toTolerant (pliant.resets _).toMoves insertion)
  · cases spawned
    exact keeps_insert pliant world _ _

theorem keeps_attachModifier {world : World} {definitionId displayName : String} {modify : Components → Components}
    {recalculate : World → GameEntityId → World} {controller : PlayerId} {target : GameEntityId}
    {duration : EnchantmentDuration} {silenceRemovable : Bool} {attached : World × GameEntityId}
    (recalculates : ∀ world, Keeps S world (recalculate world target))
    (attaches : attachModifier definitionId displayName modify recalculate world controller target duration
      silenceRemovable = .ok attached) : Keeps S world attached.1 := by
  rcases bind_eq_ok.mp attaches with ⟨⟨spawned, id⟩, found, same⟩
  rw [← Except.ok.inj same]
  rcases keeps_spawnAttachedEnchantment pliant found with ⟨kept, new⟩
  exact (kept.modify_new (le_of_eq new.symm) modify).trans pliant.toTolerant (recalculates _)

theorem keeps_detachments (attachments : List GameEntityId) (world : World) :
    Keeps S world (attachments.foldl moveDetached world) :=
  keeps_foldl_moveDetached pliant.toTolerant (fun attachment _ => pliant.detaches attachment) world

theorem keeps_recalculation (world : World) (target : GameEntityId) : Keeps S world (world.recalculate target) :=
  keeps_recalculate pliant.toTolerant (pliant.resets target).toRecalculates world

theorem keeps_attachContinuousEffect {world : World} {controller : PlayerId} {target : GameEntityId}
    {effect : ContinuousEffectDefinition} {duration : EnchantmentDuration} {silenceRemovable : Bool}
    {attached : World × GameEntityId}
    (attaches : attachContinuousEffect world controller target effect duration silenceRemovable = .ok attached) :
    Keeps S world attached.1 := by
  rcases bind_eq_ok.mp attaches with ⟨⟨spawned, id⟩, found, same⟩
  rw [← Except.ok.inj same]
  rcases keeps_spawnAttachedEnchantment pliant found with ⟨kept, new⟩
  exact kept.modify_new (le_of_eq new.symm) _

theorem keeps_attachTriggers {world : World} {controller : PlayerId} {target : GameEntityId}
    {triggers : List TriggerDefinition} {duration : EnchantmentDuration} {silenceRemovable : Bool}
    {attached : World × GameEntityId}
    (attaches : attachTriggers world controller target triggers duration silenceRemovable = .ok attached) :
    Keeps S world attached.1 := by
  rcases bind_eq_ok.mp attaches with ⟨⟨spawned, id⟩, found, same⟩
  rw [← Except.ok.inj same]
  rcases keeps_spawnAttachedEnchantment pliant found with ⟨kept, new⟩
  exact kept.modify_new (le_of_eq new.symm) _

theorem keeps_restoreAttachment {copy : GameEntityId} {controller : PlayerId} {world other : World}
    {attachment : AttachmentCopySnapshot} (restored : restoreAttachment copy controller world attachment = .ok other) :
    Keeps S world other := by
  rcases bind_eq_ok.mp restored with ⟨⟨spawned, id⟩, found, same⟩
  rw [← Except.ok.inj same]
  rcases keeps_spawnAttachedEnchantment pliant found with ⟨kept, new⟩
  exact kept.modify_new (le_of_eq new.symm) _

theorem keeps_restoreAttachments {copy : GameEntityId} {controller : PlayerId}
    {attachments : List AttachmentCopySnapshot} {world other : World}
    (restored : attachments.foldlM (restoreAttachment copy controller) world = .ok other) : Keeps S world other := by
  induction attachments generalizing world with
  | nil =>
    cases restored
    exact .refl pliant.toTolerant other
  | cons attachment rest ih =>
    rw [List.foldlM_cons] at restored
    rcases bind_eq_ok.mp restored with ⟨middle, first, others⟩
    exact (keeps_restoreAttachment pliant first).trans pliant.toTolerant (ih others)

theorem keeps_restorePlayCopyState {world spawned other : World} {copy : GameEntityId} {controller : PlayerId}
    {playState : PlayCopySnapshot} (before : Keeps S world spawned) (new : world.nextGameEntityId ≤ copy)
    (restored : spawned.restorePlayCopyState copy controller playState = .ok other) : Keeps S world other := by
  rcases bind_eq_ok.mp restored with ⟨attached, attaches, same⟩
  rw [← Except.ok.inj same]
  have ordered : Keeps S spawned spawned.allocatePlayOrder.1 :=
    .of_entities pliant.toTolerant rfl rfl rfl rfl subset_rfl le_rfl
  have placed := (before.trans pliant.toTolerant ordered).modify_new new
    (playState.restore spawned.allocatePlayOrder.2)
  have enchanted := placed.trans pliant.toTolerant (keeps_restoreAttachments pliant attaches)
  exact (enchanted.trans pliant.toTolerant (keeps_recalculation pliant _ copy)).modify_new new _

theorem keeps_copy {world spawned other : World} {request : CopyRequest} {card : Card} {copy : GameEntityId}
    {playState : PlayCopySnapshot}
    (placed : world.spawnCardAt request.controller card request.destination request.boardIndex = (spawned, .ok copy))
    (restored : spawned.restorePlayCopyState copy request.controller playState = .ok other) : Keeps S world other := by
  have spawns := keeps_spawnCardAt pliant world request.controller card request.destination request.boardIndex
  rw [placed] at spawns
  exact keeps_restorePlayCopyState pliant spawns (le_of_eq (spawnCardAt_inv placed).1.symm) restored

theorem keeps_hero {world spawned : World} {player : PlayerId} {card : Card} {hero : GameEntityId}
    (placed : world.spawnCard player card .play = (spawned, .ok hero)) (change : Components → Components) :
    Keeps S world (spawned.allocatePlayOrder.1.modify hero change) := by
  have spawns := keeps_spawnCardAt pliant world player card .play none
  unfold spawnCard at placed
  rw [placed] at spawns
  have ordered : Keeps S spawned spawned.allocatePlayOrder.1 :=
    .of_entities pliant.toTolerant rfl rfl rfl rfl subset_rfl le_rfl
  exact (spawns.trans pliant.toTolerant ordered).modify_new (le_of_eq (spawnCardAt_inv placed).1.symm) change

theorem keeps_setCache (world : World) (category : AuraCategory) (target : GameEntityId)
    (applications : List AuraApplication) : Keeps S world (world.setCache category target applications) := by
  unfold setCache
  split
  · exact .refl pliant.toTolerant world
  · split
    · exact .refl pliant.toTolerant world
    · have updated := keeps_modify pliant.toTolerant (pliant.cached target category applications) world
      have calculated : Keeps S world
          (if category = .health ∨ category = .attack then
            (world.modify target (·.withAuraCache category applications)).recalculateStats target
          else world.modify target (·.withAuraCache category applications)) := by
        split
        · exact updated.trans pliant.toTolerant
            (keeps_recalculateStats pliant.toTolerant (pliant.resets target).toRecalculates _)
        · exact updated
      dsimp only
      split
      · exact calculated.trans pliant.toTolerant (.of_entities pliant.toTolerant rfl rfl rfl rfl subset_rfl le_rfl)
      · exact calculated

theorem keeps_defeatHero (world : World) (wounded : MortallyWounded) : Keeps S world (world.defeatHero wounded) := by
  unfold defeatHero
  split
  · exact .refl pliant.toTolerant world
  · exact .of_entities pliant.toTolerant rfl rfl rfl rfl (Finset.subset_insert _ _) le_rfl

variable [QueryOrder]

theorem keeps_move (world : World) (request : ZoneMoveRequest) : Keeps S world (world.moveEntityWithRequest request).1 :=
  keeps_moveEntityWithRequest pliant.toTolerant (pliant.resets _) (fun _ attachment _ => pliant.detaches attachment) rfl
    (.refl pliant.toTolerant world)

theorem keeps_silence {world other : World} {target : GameEntityId} (silenced : world.silenceEntity target = .ok other) :
    Keeps S world other := by
  rcases bind_eq_ok.mp silenced with ⟨_, _, same⟩
  rw [← Except.ok.inj same]
  exact ((keeps_modify pliant.toTolerant (pliant.muted target) world).trans pliant.toTolerant
    (keeps_detachments pliant _ _)).trans pliant.toTolerant (keeps_recalculation pliant _ target)

theorem keeps_detachAll (world : World) (target : GameEntityId) :
    Keeps S world (world.detachAllEnchantments target) := by
  unfold detachAllEnchantments
  split
  · exact .refl pliant.toTolerant world
  · exact (keeps_detachments pliant _ world).trans pliant.toTolerant (keeps_recalculation pliant _ target)

theorem keeps_expire (world : World) (ending next : PlayerId) :
    Keeps S world (world.expireTemporaryEffects ending next) := by
  apply keeps_foldl pliant.toTolerant
  intro world entity
  have gone := keeps_moveDetached pliant.toTolerant (pliant.detaches entity) world
  have traced : Keeps S (world.moveDetached entity)
      { world.moveDetached entity with
        canonicalTrace := (world.moveDetached entity).canonicalTrace ++ [.temporaryEffectExpired entity] } :=
    .of_entities pliant.toTolerant rfl rfl rfl rfl subset_rfl le_rfl
  unfold expireEnchantment
  dsimp only
  split
  · exact gone.trans pliant.toTolerant traced
  · exact (gone.trans pliant.toTolerant traced).trans pliant.toTolerant (keeps_recalculation pliant _ _)

theorem keeps_transform {world other : World} {target : GameEntityId} {card : Card} {kind : TransformKind}
    (transforms : world.transformEntity target card kind = .ok other) : Keeps S world other := by
  rcases bind_eq_ok.mp transforms with ⟨⟨previous, attachments⟩, _, same⟩
  rw [← Except.ok.inj same]
  exact ((keeps_detachments pliant attachments world).trans pliant.toTolerant
    (keeps_modify pliant.toTolerant (pliant.transformed target card) _)).trans pliant.toTolerant
      (.of_entities pliant.toTolerant rfl rfl rfl rfl subset_rfl le_rfl)

theorem keeps_beginEquip (world : World) (player : PlayerId) (weapon : GameEntityId) :
    Keeps S world (world.beginEquip player weapon).1 := by
  have moves : ∀ world : World, Keeps S world (world.moveEntity weapon .play none).1 := by
    intro world
    unfold moveEntity
    split
    · exact .refl pliant.toTolerant world
    · exact keeps_move pliant world _
  unfold beginEquip
  dsimp only
  split
  · exact .refl pliant.toTolerant world
  · have opened : ∀ pending, Keeps S world (world.setPending pending) :=
      fun _ => .of_entities pliant.toTolerant rfl rfl rfl rfl subset_rfl le_rfl
    have moved := (opened (world.weaponEquipment.pending.insert weapon (world.activeWeapon player))).trans
      pliant.toTolerant (moves _)
    split
    · rename_i other source _ _ result
      rw [result] at moved
      have set : Keeps S other (((other.traceMove weapon source .play).setActive player weapon).allocatePlayOrder.1) :=
        .of_entities pliant.toTolerant rfl rfl rfl rfl subset_rfl le_rfl
      exact (moved.trans pliant.toTolerant set).trans pliant.toTolerant
        (keeps_modify pliant.toTolerant (fun components => (pliant.resets weapon).ordered components _) _)
    · rename_i other _ result
      rw [result] at moved
      exact moved.trans pliant.toTolerant (.of_entities pliant.toTolerant rfl rfl rfl rfl subset_rfl le_rfl)

theorem keeps_retireWeapon (world : World) (weapon : GameEntityId) : Keeps S world (world.retireWeapon weapon).1 := by
  unfold retireWeapon
  split
  · exact .refl pliant.toTolerant world
  · rename_i controller _
    have moved := keeps_move pliant world ⟨weapon, controller, .graveyard, none, .death⟩
    dsimp only
    split
    · rename_i other source _ _ result
      rw [result] at moved
      exact moved.trans pliant.toTolerant (.of_entities pliant.toTolerant rfl rfl rfl rfl subset_rfl le_rfl)
    · rename_i result
      rw [result] at moved
      exact moved
    · rename_i result
      rw [result] at moved
      exact moved

theorem keeps_finishEquip (world : World) (weapon : GameEntityId) : Keeps S world (world.finishEquip weapon).1 := by
  unfold finishEquip
  split
  · exact .refl pliant.toTolerant world
  · have closed : Keeps S world (world.setPending (world.weaponEquipment.pending.erase weapon)) :=
      .of_entities pliant.toTolerant rfl rfl rfl rfl subset_rfl le_rfl
    dsimp only
    split
    · exact closed
    · rename_i previous _
      have retired := closed.trans pliant.toTolerant (keeps_retireWeapon pliant _ previous)
      split
      · rename_i result
        rw [result] at retired
        exact retired.trans pliant.toTolerant (keeps_recordFullZoneDeath pliant.toTolerant _ previous _)
      · rename_i result
        rw [result] at retired
        exact retired

theorem keeps_abandonEquips (world : World) : Keeps S world world.abandonEquips := by
  have opened : Keeps S world (world.setPending ∅) :=
    .of_entities pliant.toTolerant rfl rfl rfl rfl subset_rfl le_rfl
  apply opened.trans pliant.toTolerant
  apply keeps_foldl pliant.toTolerant
  intro world old
  unfold abandonEquip
  split
  · exact keeps_retireWeapon pliant world old
  · exact .refl pliant.toTolerant world

theorem keeps_replaceCategory (world : World) (category : AuraCategory) (discovered : List DiscoveredAura) :
    Keeps S world (world.replaceCategory category discovered) :=
  keeps_foldl pliant.toTolerant (fun world target => keeps_setCache pliant world category target _) _ world

theorem keeps_mergeProviderCategory (world : World) (category : AuraCategory) (provider : GameEntityId)
    (discovered : List DiscoveredAura) :
    Keeps S world (world.mergeProviderCategory category provider discovered) := by
  apply keeps_foldl pliant.toTolerant
  intro world target
  split
  · exact .refl pliant.toTolerant world
  · exact keeps_setCache pliant world category target _

theorem keeps_refreshHealthAttackAuras (world : World) : Keeps S world world.refreshHealthAttackAuras :=
  (keeps_replaceCategory pliant world .health _).trans pliant.toTolerant (keeps_replaceCategory pliant _ .attack _)

theorem keeps_refreshPostDeathAuras (world : World) : Keeps S world world.refreshPostDeathAuras :=
  (keeps_replaceCategory pliant world .attack _).trans pliant.toTolerant (keeps_replaceCategory pliant _ .other _)

theorem keeps_refreshAllAuras (world : World) : Keeps S world world.refreshAllAuras :=
  ((keeps_replaceCategory pliant world .health _).trans pliant.toTolerant
    (keeps_replaceCategory pliant _ .attack _)).trans pliant.toTolerant (keeps_replaceCategory pliant _ .other _)

theorem keeps_refreshPlayedProvider (world : World) (provider : GameEntityId) :
    Keeps S world (world.refreshPlayedProvider provider) :=
  keeps_foldl pliant.toTolerant
    (fun world category => keeps_mergeProviderCategory pliant world category provider _) _ world

theorem keeps_removeDying (turn : UInt32) (removed : World × List DeathRecord) (dying : MortallyWounded × Nat) :
    Keeps S removed.1 (removeDying turn removed dying).1 := by
  have moved := keeps_move pliant removed.1 ⟨dying.1.id, dying.1.controller, .graveyard, none, .death⟩
  unfold removeDying
  dsimp only
  split
  · rename_i result
    rw [result] at moved
    have buried := keeps_modify pliant.toTolerant (pliant.resets dying.1.id).spared
    exact (moved.trans pliant.toTolerant (buried _)).trans pliant.toTolerant
      (.of_entities pliant.toTolerant rfl rfl rfl rfl subset_rfl le_rfl)
  · rename_i result
    rw [result] at moved
    exact moved

theorem keeps_createDeaths (world : World) : Keeps S world world.createDeaths := by
  have removals : ∀ (dying : List (MortallyWounded × Nat)) (removed : World × List DeathRecord),
      Keeps S removed.1 (dying.foldl (removeDying world.gameState.turnNumber) removed).1 := by
    intro dying
    induction dying with
    | nil => exact fun removed => .refl pliant.toTolerant removed.1
    | cons first rest ih =>
      exact fun removed => (keeps_removeDying pliant _ removed first).trans pliant.toTolerant (ih _)
  have defeats := keeps_foldl pliant.toTolerant (keeps_defeatHero pliant)
    (((QueryOrder.iterEntities world).filterMap world.mortallyWounded).filter fun wounded => wounded.kind = .hero) world
  exact (defeats.trans pliant.toTolerant (removals world.dyingEntities.zipIdx (_, []))).trans pliant.toTolerant
    (.of_entities pliant.toTolerant rfl rfl rfl rfl subset_rfl le_rfl)

end Operations

end World

end HearthstoneSimulator

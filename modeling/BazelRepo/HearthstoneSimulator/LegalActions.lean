import BazelRepo.HearthstoneSimulator.ActionValidation
import BazelRepo.HearthstoneSimulator.ZoneRuns

namespace HearthstoneSimulator

open Library

def GameAction.subject : GameAction → Option GameEntityId
  | .playCard _ card .. => some card
  | .useHeroPower _ power _ => some power
  | .attack _ attacker _ => some attacker
  | .endTurn _ | .concede _ => none

namespace World

theorem mem_sortedIds {ids : List GameEntityId} {id : GameEntityId} : id ∈ sortedIds ids ↔ id ∈ ids := by
  unfold sortedIds
  rw [List.mem_dedup, List.mem_mergeSort]

theorem nodup_sortedIds (ids : List GameEntityId) : (sortedIds ids).Nodup :=
  List.nodup_dedup _

section Targets

variable {world : World} {player : PlayerId} {card : GameEntityId} {target : Option GameEntityId}

theorem nodup_some {ids : List GameEntityId} (nodup : ids.Nodup) : (ids.map some).Nodup :=
  nodup.map (Option.some_injective _)

theorem nodup_targetOptions (requirement : TargetRequirement) : (world.targetOptions player requirement).Nodup := by
  cases requirement with
  | none => exact List.nodup_singleton _
  | required filter => exact nodup_some (nodup_sortedIds _)
  | optional filter =>
    unfold targetOptions
    rw [List.nodup_cons]
    refine ⟨?_, nodup_some (nodup_sortedIds _)⟩
    intro member
    rcases List.mem_map.mp member with ⟨_, _, impossible⟩
    cases impossible
  | requiredIfAvailable filter =>
    unfold targetOptions
    dsimp only
    split
    · exact List.nodup_singleton _
    · exact nodup_some (nodup_sortedIds _)

theorem validateSuppliedTarget_eq_ok {chosen : GameEntityId} {filter : TargetFilter} :
    world.validateSuppliedTarget player card chosen filter = .ok () ↔ chosen ∈ world.eligibleTargets player filter := by
  unfold validateSuppliedTarget
  by_cases member : chosen ∈ world.eligibleTargets player filter <;> simp [member]

theorem mem_targetOptions {requirement : TargetRequirement} :
    target ∈ world.targetOptions player requirement ↔ world.validateTarget player card target requirement = .ok () := by
  cases requirement with
  | none => cases target <;> simp [targetOptions, validateTarget]
  | required filter | optional filter =>
    cases target with
    | none => simp [targetOptions, validateTarget]
    | some chosen => simp [targetOptions, validateTarget, validateSuppliedTarget_eq_ok]
  | requiredIfAvailable filter =>
    unfold targetOptions
    dsimp only
    cases target with
    | none =>
      by_cases available : (world.eligibleTargets player filter).isEmpty <;> simp [available, validateTarget]
    | some chosen =>
      by_cases available : (world.eligibleTargets player filter).isEmpty
      · have nothing : world.eligibleTargets player filter = [] := List.isEmpty_iff.mp available
        simp [nothing, validateTarget, validateSuppliedTarget_eq_ok]
      · simp [available, validateTarget, validateSuppliedTarget_eq_ok]

end Targets

section Acceptance

variable {world : World} {player : PlayerId} {card : GameEntityId} {target : Option GameEntityId} {kind : EntityKind}
  {boardIndex normal : Option ℕ} {choice : Option ChoiceId}

theorem controlledEntityInZone_eq_ok {zone : Zone} {components : Components} :
    world.controlledEntityInZone player card zone = .ok components ↔
      world.entities[card]? = some components ∧ components.controller = some player ∧ components.zone = some zone := by
  unfold controlledEntityInZone
  simp only [bind_eq_ok, okOr_eq_ok, reject_eq_ok, not_not, Except.ok.injEq]
  constructor
  · rintro ⟨found, entity, controlled, zoned, rfl⟩
    exact ⟨entity, controlled, zoned⟩
  · rintro ⟨entity, controlled, zoned⟩
    exact ⟨components, entity, controlled, zoned, rfl⟩

theorem validateBoardPosition_eq_ok :
    world.validateBoardPosition player boardIndex = .ok () ↔
      ∀ position, boardIndex = some position → position ≤ (world.boardEntities player).length := by
  unfold validateBoardPosition validatePosition
  cases boardIndex with
  | none => simp
  | some position => simp

theorem validatePlayPosition_minion (minion : kind = .minion)
    (accepted : world.validatePlayPosition player card kind boardIndex = .ok normal) :
    world.validatePlayPosition player card kind normal = .ok normal ∧
      ∃ position ∈ world.boardIndexes player, normal = some position := by
  unfold validatePlayPosition at accepted ⊢
  rw [if_pos minion] at accepted ⊢
  simp only [bind_eq_ok, mapError_eq_ok, Except.ok.injEq] at accepted ⊢
  rcases accepted with ⟨_, valid, rfl⟩
  have bounded : boardIndex.getD (world.boardEntities player).length ≤ (world.boardEntities player).length := by
    cases boardIndex with
    | none => exact le_rfl
    | some position => exact validateBoardPosition_eq_ok.mp valid position rfl
  refine ⟨⟨(), validateBoardPosition_eq_ok.mpr ?_, rfl⟩, _, ?_, rfl⟩
  · intro position same
    cases same
    exact bounded
  · exact List.mem_range.mpr (Nat.lt_succ_of_le bounded)

theorem validatePlayPosition_other (other : kind ≠ .minion)
    (accepted : world.validatePlayPosition player card kind boardIndex = .ok normal) :
    world.validatePlayPosition player card kind normal = .ok normal ∧ boardIndex = none ∧ normal = none := by
  unfold validatePlayPosition at accepted ⊢
  rw [if_neg other] at accepted ⊢
  simp only [reject_eq_ok, Except.ok.injEq] at accepted
  rcases accepted with ⟨absent, rfl⟩
  rw [Bool.not_eq_true, Option.isSome_eq_false_iff, Option.isNone_iff_eq_none] at absent
  exact ⟨rfl, absent, rfl⟩

/-- What the validation of a card asks besides its position on the board. -/
def PlaysFromHand [QueryOrder] (world : World) (player : PlayerId) (card : GameEntityId) (target : Option GameEntityId)
    (choice : Option ChoiceId) (components : Components) (kind : EntityKind) (runtime : CardRuntime) : Prop :=
  world.controlledEntityInZone player card .hand = .ok components ∧ components.kind = some kind ∧
    isPlayable kind = true ∧ ¬ (kind = .weapon ∧ isBrokenWeapon components) ∧
    ¬ (kind = .minion ∧ world.boardIsFull player) ∧ components.cardRuntime = some runtime ∧
    (∃ triggers, components.runtimeTriggers = some triggers ∧ world.validatePrograms kind runtime triggers = .ok ()) ∧
    world.validateResources player runtime = .ok () ∧ choice = none ∧
    world.validateTarget player card target runtime.targeting = .ok ()

theorem validateChoice_eq_ok : validateChoice choice = .ok () ↔ choice = none := by
  cases choice <;> simp [validateChoice]

theorem validatePlayCard_eq_ok [QueryOrder] :
    world.validatePlayCard player card target boardIndex choice = .ok normal ↔
      ∃ components kind runtime, world.PlaysFromHand player card target choice components kind runtime ∧
        world.validatePlayPosition player card kind boardIndex = .ok normal := by
  unfold validatePlayCard PlaysFromHand
  simp only [bind_eq_ok, okOr_eq_ok, reject_eq_ok, Bool.not_eq_true', Bool.not_eq_false]
  constructor
  · rintro ⟨components, found, kind, kinds, playable, sound, room, runtime, runs, triggers, triggered, _, programs, _,
      resources, _, unchosen, _, targeted, positioned⟩
    exact ⟨components, kind, runtime, ⟨found, kinds, playable, sound, room, runs, ⟨triggers, triggered, programs⟩,
      resources, validateChoice_eq_ok.mp unchosen, targeted⟩, positioned⟩
  · rintro ⟨components, kind, runtime, ⟨found, kinds, playable, sound, room, runs, ⟨triggers, triggered, programs⟩,
      resources, unchosen, targeted⟩, positioned⟩
    exact ⟨components, found, kind, kinds, playable, sound, room, runtime, runs, triggers, triggered, (), programs, (),
      resources, (), validateChoice_eq_ok.mpr unchosen, (), targeted, positioned⟩

end Acceptance

section Candidates

variable {world : World} {active player : PlayerId}

theorem Indexed.mem_zoneIndex (indexed : world.Indexed) {id : GameEntityId} {components : Components} {zone : Zone}
    (found : world.entities[id]? = some components) (controlled : components.controller = some player)
    (zoned : components.zone = some zone) : id ∈ world.zoneIndex player zone := by
  rcases indexed.entity id components zone found zoned with ⟨controller, position, named, _, stands, _⟩
  rw [controlled] at named
  cases named
  exact List.mem_of_getElem? stands

theorem get_of_found {α : Type} {id : GameEntityId} {components : Components}
    (found : world.entities[id]? = some components) (component : Components → Option α) :
    world.get id component = component components := by
  unfold World.get
  rw [found]
  rfl

theorem cardCandidates_minion {card : GameEntityId} {runtime : CardRuntime}
    (minion : world.get card (·.kind) = some .minion) (runs : world.get card (·.cardRuntime) = some runtime) :
    world.cardCandidates active card =
      (world.targetOptions active runtime.targeting).flatMap fun target =>
        (world.boardIndexes active).map fun boardIndex => .playCard active card target (some boardIndex) none := by
  unfold cardCandidates
  rw [minion, runs]

theorem cardCandidates_other {card : GameEntityId} {kind : EntityKind} {runtime : CardRuntime}
    (kinds : world.get card (·.kind) = some kind) (playable : isPlayable kind = true) (other : kind ≠ .minion)
    (runs : world.get card (·.cardRuntime) = some runtime) :
    world.cardCandidates active card =
      (world.targetOptions active runtime.targeting).map fun target => .playCard active card target none none := by
  unfold cardCandidates
  rw [kinds, runs]
  cases kind <;> simp_all [isPlayable]

theorem of_mem_cardCandidates {card : GameEntityId} {action : GameAction}
    (offered : action ∈ world.cardCandidates active card) :
    ∃ kind target boardIndex, world.get card (·.kind) = some kind ∧
      action = .playCard active card target boardIndex none ∧
      (kind = .minion ∧ boardIndex.isSome ∨ kind ≠ .minion ∧ boardIndex = none) := by
  unfold cardCandidates at offered
  split at offered
  case h_2 => cases offered
  case h_1 kind runtime kinds runs =>
    split at offered
    case h_1 =>
      rcases List.mem_flatMap.mp offered with ⟨target, _, placed⟩
      rcases List.mem_map.mp placed with ⟨position, _, rfl⟩
      exact ⟨.minion, target, some position, kinds, rfl, .inl ⟨rfl, rfl⟩⟩
    case h_2 =>
      rcases List.mem_map.mp offered with ⟨target, _, rfl⟩
      exact ⟨.spell, target, none, kinds, rfl, .inr ⟨nofun, rfl⟩⟩
    case h_3 =>
      rcases List.mem_map.mp offered with ⟨target, _, rfl⟩
      exact ⟨.weapon, target, none, kinds, rfl, .inr ⟨nofun, rfl⟩⟩
    case h_4 => cases offered

theorem nodup_cardCandidates (card : GameEntityId) : (world.cardCandidates active card).Nodup := by
  have targets : ∀ runtime : CardRuntime, ((world.targetOptions active runtime.targeting).map fun target =>
      GameAction.playCard active card target none none).Nodup := by
    intro runtime
    apply (nodup_targetOptions _).map
    intro first second same
    injection same
  unfold cardCandidates
  split
  case h_2 => exact List.nodup_nil
  case h_1 kind runtime _ _ =>
    split
    case h_1 =>
      rw [List.nodup_flatMap]
      refine ⟨?_, ?_⟩
      · intro target _
        apply List.nodup_range.map
        intro first second same
        injection same with _ _ _ positions
        exact Option.some.inj positions
      · apply (nodup_targetOptions runtime.targeting).imp
        intro first second different action inFirst inSecond
        rcases List.mem_map.mp inFirst with ⟨_, _, rfl⟩
        rcases List.mem_map.mp inSecond with ⟨_, _, same⟩
        injection same with _ _ targets
        exact different targets.symm
    case h_2 => exact targets runtime
    case h_3 => exact targets runtime
    case h_4 => exact List.nodup_nil

theorem of_mem_powerCandidates {power : GameEntityId} {action : GameAction}
    (offered : action ∈ world.powerCandidates active power) :
    ∃ target, action = .useHeroPower active power target := by
  unfold powerCandidates at offered
  split at offered
  · split at offered
    · cases offered
    · rcases List.mem_map.mp offered with ⟨target, _, rfl⟩
      exact ⟨target, rfl⟩
  · cases offered

theorem nodup_powerCandidates (power : GameEntityId) : (world.powerCandidates active power).Nodup := by
  unfold powerCandidates
  split
  · split
    · exact List.nodup_nil
    · apply (nodup_targetOptions _).map
      intro first second same
      injection same
  · exact List.nodup_nil

theorem of_mem_attackCandidates {attacker : GameEntityId} {action : GameAction}
    (offered : action ∈ world.attackCandidates active attacker) :
    ∃ defender, action = .attack active attacker defender := by
  rcases List.mem_map.mp offered with ⟨defender, _, rfl⟩
  exact ⟨defender, rfl⟩

theorem nodup_attackCandidates (attacker : GameEntityId) : (world.attackCandidates active attacker).Nodup := by
  apply (nodup_sortedIds _).map
  intro first second same
  injection same

theorem nodup_flatMap_named {ids : List GameEntityId} {candidates : GameEntityId → List GameAction}
    (names : ∀ id, ∀ action ∈ candidates id, action.subject = some id)
    (nodup : ∀ id, (candidates id).Nodup) : ((sortedIds ids).flatMap candidates).Nodup := by
  rw [List.nodup_flatMap]
  refine ⟨fun id _ => nodup id, ?_⟩
  apply (nodup_sortedIds ids).imp
  intro first second different action inFirst inSecond
  have same := (names first action inFirst).symm.trans (names second action inSecond)
  exact different (Option.some.inj same)

theorem nodup_candidateActions : (world.candidateActions active).Nodup := by
  have plays : ∀ id, ∀ action ∈ world.cardCandidates active id, action.subject = some id := by
    intro id action offered
    rcases of_mem_cardCandidates offered with ⟨_, _, _, _, rfl, _⟩
    rfl
  have attacks : ∀ id, ∀ action ∈ world.attackCandidates active id, action.subject = some id := by
    intro id action offered
    rcases of_mem_attackCandidates offered with ⟨_, rfl⟩
    rfl
  have powers : ∀ id, ∀ action ∈ world.powerCandidates active id, action.subject = some id := by
    intro id action offered
    rcases of_mem_powerCandidates offered with ⟨_, rfl⟩
    rfl
  unfold candidateActions
  simp only [List.nodup_append, List.nodup_singleton, List.mem_append, List.mem_flatMap, List.mem_singleton, true_and]
  refine ⟨⟨⟨⟨nodup_flatMap_named plays nodup_cardCandidates, ?_⟩,
    nodup_flatMap_named attacks nodup_attackCandidates, ?_⟩,
    nodup_flatMap_named powers nodup_powerCandidates, ?_⟩, ?_⟩
  · rintro _ rfl _ ⟨_, _, offered⟩ same
    rcases of_mem_cardCandidates offered with ⟨_, _, _, _, rfl, _⟩
    cases same
  · rintro _ early _ ⟨_, _, late⟩ same
    rcases of_mem_attackCandidates late with ⟨_, rfl⟩
    rcases early with rfl | ⟨_, _, offered⟩
    · cases same
    · rcases of_mem_cardCandidates offered with ⟨_, _, _, _, rfl, _⟩
      cases same
  · rintro _ early _ ⟨_, _, late⟩ same
    rcases of_mem_powerCandidates late with ⟨_, rfl⟩
    rcases early with (rfl | ⟨_, _, offered⟩) | ⟨_, _, offered⟩
    · cases same
    · rcases of_mem_cardCandidates offered with ⟨_, _, _, _, rfl, _⟩
      cases same
    · rcases of_mem_attackCandidates offered with ⟨_, rfl⟩
      cases same
  · rintro _ early _ rfl same
    rcases early with ((rfl | ⟨_, _, offered⟩) | ⟨_, _, offered⟩) | ⟨_, _, offered⟩
    · cases same
    · rcases of_mem_cardCandidates offered with ⟨_, _, _, _, rfl, _⟩
      cases same
    · rcases of_mem_attackCandidates offered with ⟨_, rfl⟩
      cases same
    · rcases of_mem_powerCandidates offered with ⟨_, rfl⟩
      cases same

end Candidates

section Legality

variable [QueryOrder] {world : World}

theorem validateAction_eq_ok {action normal : GameAction} :
    world.validateAction action = .ok normal ↔
      world.gameState.outcome = none ∧ world.gameState.status = .awaitingAction ∧
        world.gameState.activePlayer = action.player ∧ world.validateActionKind action = .ok normal := by
  unfold validateAction
  simp only [reject_eq_ok, not_not, Bool.not_eq_true, Option.isSome_eq_false_iff, Option.isNone_iff_eq_none]

theorem validateActionKind_player {action normal : GameAction} (accepted : world.validateActionKind action = .ok normal) :
    normal.player = action.player := by
  cases action with
  | endTurn | concede =>
    cases accepted
    rfl
  | playCard | useHeroPower | attack =>
    unfold validateActionKind at accepted
    rcases bind_eq_ok.mp accepted with ⟨_, _, same⟩
    cases same
    rfl

theorem playCard_offered (indexed : world.Indexed) {player : PlayerId} {card : GameEntityId}
    {target : Option GameEntityId} {boardIndex normal : Option ℕ} {choice : Option ChoiceId}
    (accepted : world.validatePlayCard player card target boardIndex choice = .ok normal) :
    world.validatePlayCard player card target normal choice = .ok normal ∧
      card ∈ world.zoneIndex player .hand ∧
      .playCard player card target normal choice ∈ world.cardCandidates player card := by
  rcases validatePlayCard_eq_ok.mp accepted with ⟨components, kind, runtime, plays, positioned⟩
  have conditions := plays
  rcases conditions with ⟨inHand, kinds, playable, _, _, runs, _, _, unchosen, targeted⟩
  rcases controlledEntityInZone_eq_ok.mp inHand with ⟨found, controlled, zoned⟩
  have hand := indexed.mem_zoneIndex found controlled zoned
  have kindHere : world.get card (·.kind) = some kind := (get_of_found found _).trans kinds
  have runtimeHere : world.get card (·.cardRuntime) = some runtime := (get_of_found found _).trans runs
  have offered : target ∈ world.targetOptions player runtime.targeting := mem_targetOptions.mpr targeted
  by_cases minion : kind = .minion
  · rcases validatePlayPosition_minion minion positioned with ⟨again, position, onBoard, rfl⟩
    refine ⟨validatePlayCard_eq_ok.mpr ⟨components, kind, runtime, plays, again⟩, hand, ?_⟩
    subst minion unchosen
    rw [cardCandidates_minion kindHere runtimeHere]
    exact List.mem_flatMap.mpr ⟨target, offered, List.mem_map.mpr ⟨position, onBoard, rfl⟩⟩
  · rcases validatePlayPosition_other minion positioned with ⟨again, _, rfl⟩
    refine ⟨validatePlayCard_eq_ok.mpr ⟨components, kind, runtime, plays, again⟩, hand, ?_⟩
    subst unchosen
    rw [cardCandidates_other kindHere playable minion runtimeHere]
    exact List.mem_map.mpr ⟨target, offered, rfl⟩

theorem heroPower_offered (indexed : world.Indexed) {player : PlayerId} {power : GameEntityId}
    {target : Option GameEntityId} (accepted : world.validateHeroPower player power target = .ok ()) :
    power ∈ world.zoneIndex player .play ∧ .useHeroPower player power target ∈ world.powerCandidates player power := by
  unfold validateHeroPower at accepted
  simp only [bind_eq_ok, okOr_eq_ok, reject_eq_ok, not_not] at accepted
  rcases accepted with ⟨components, inPlay, kind, _, _, _, runtime, runs, _, _, _, _, targeted⟩
  rcases controlledEntityInZone_eq_ok.mp inPlay with ⟨found, controlled, zoned⟩
  refine ⟨indexed.mem_zoneIndex found controlled zoned, ?_⟩
  unfold powerCandidates
  rw [get_of_found found, if_pos kind, get_of_found found, runs]
  exact List.mem_map.mpr ⟨target, mem_targetOptions.mpr targeted, rfl⟩

omit [QueryOrder] in
theorem attack_offered (indexed : world.Indexed) {player : PlayerId} {attacker defender : GameEntityId}
    (accepted : world.validateAttack player attacker defender = .ok ()) :
    attacker ∈ world.zoneIndex player .play ∧
      .attack player attacker defender ∈ world.attackCandidates player attacker := by
  unfold validateAttack at accepted
  simp only [bind_eq_ok, okOr_eq_ok, reject_eq_ok] at accepted
  rcases accepted with ⟨components, inPlay, _, state, _, _, defended⟩
  rcases controlledEntityInZone_eq_ok.mp inPlay with ⟨found, controlled, zoned⟩
  refine ⟨indexed.mem_zoneIndex found controlled zoned, ?_⟩
  unfold validateDefender at defended
  simp only [bind_eq_ok, okOr_eq_ok, reject_eq_ok, not_or, not_not] at defended
  rcases defended with ⟨other, there, ⟨enemyZone, enemy, _⟩, _⟩
  exact List.mem_map.mpr ⟨defender, mem_sortedIds.mpr (indexed.mem_zoneIndex there enemy enemyZone), rfl⟩

theorem accepted_is_offered (indexed : world.Indexed) {action normal : GameAction}
    (accepted : world.validateActionKind action = .ok normal) :
    world.validateActionKind normal = .ok normal ∧ normal ∈ world.candidateActions action.player := by
  cases action with
  | playCard player card target boardIndex choice =>
    rcases bind_eq_ok.mp accepted with ⟨position, played, same⟩
    cases same
    rcases playCard_offered indexed played with ⟨again, hand, offered⟩
    refine ⟨bind_eq_ok.mpr ⟨position, again, rfl⟩, ?_⟩
    simp only [candidateActions, List.mem_append, List.mem_flatMap]
    exact .inl (.inl (.inl (.inr ⟨card, mem_sortedIds.mpr hand, offered⟩)))
  | attack player attacker defender =>
    rcases bind_eq_ok.mp accepted with ⟨_, attacked, same⟩
    cases same
    rcases attack_offered indexed attacked with ⟨inPlay, offered⟩
    refine ⟨accepted, ?_⟩
    simp only [candidateActions, List.mem_append, List.mem_flatMap]
    exact .inl (.inl (.inr ⟨attacker, mem_sortedIds.mpr inPlay, offered⟩))
  | useHeroPower player power target =>
    rcases bind_eq_ok.mp accepted with ⟨_, used, same⟩
    cases same
    rcases heroPower_offered indexed used with ⟨inPlay, offered⟩
    refine ⟨accepted, ?_⟩
    simp only [candidateActions, List.mem_append, List.mem_flatMap]
    exact .inl (.inr ⟨power, mem_sortedIds.mpr inPlay, offered⟩)
  | endTurn player | concede player =>
    cases accepted
    refine ⟨rfl, ?_⟩
    simp [candidateActions, GameAction.player]

theorem offered_is_normal {active : PlayerId} {action normal : GameAction}
    (offered : action ∈ world.candidateActions active) (accepted : world.validateActionKind action = .ok normal) :
    normal = action := by
  cases action with
  | endTurn | concede =>
    cases accepted
    rfl
  | useHeroPower | attack =>
    rcases bind_eq_ok.mp accepted with ⟨_, _, same⟩
    cases same
    rfl
  | playCard player card target boardIndex choice =>
    rcases bind_eq_ok.mp accepted with ⟨position, played, same⟩
    cases same
    have source : ∃ id ∈ sortedIds (world.zoneIndex active .hand),
        .playCard player card target boardIndex choice ∈ world.cardCandidates active id := by
      simp only [candidateActions, List.mem_append, List.mem_flatMap, List.mem_singleton] at offered
      rcases offered with (((impossible | here) | ⟨_, _, there⟩) | ⟨_, _, there⟩) | impossible
      · cases impossible
      · exact here
      · rcases of_mem_attackCandidates there with ⟨_, impossible⟩
        cases impossible
      · rcases of_mem_powerCandidates there with ⟨_, impossible⟩
        cases impossible
      · cases impossible
    rcases source with ⟨id, _, here⟩
    rcases of_mem_cardCandidates here with ⟨kind, _, _, kinds, same, shape⟩
    cases same
    rcases validatePlayCard_eq_ok.mp played with ⟨components, found, runtime, plays, positioned⟩
    rcases controlledEntityInZone_eq_ok.mp plays.1 with ⟨entity, _, _⟩
    rw [get_of_found entity, plays.2.1] at kinds
    cases kinds
    congr 1
    rcases shape with ⟨minion, indexed⟩ | ⟨other, absent⟩
    · rcases Option.isSome_iff_exists.mp indexed with ⟨chosen, rfl⟩
      unfold validatePlayPosition at positioned
      rw [if_pos minion] at positioned
      simp only [bind_eq_ok, Except.ok.injEq] at positioned
      exact positioned.choose_spec.2.symm
    · rw [(validatePlayPosition_other other positioned).2.2, absent]

theorem mem_legalActions {action : GameAction} :
    action ∈ world.legalActions ↔ world.validateAction action = .ok action ∧
      action ∈ world.candidateActions world.gameState.activePlayer := by
  unfold legalActions
  split
  case isTrue closed =>
    simp only [List.not_mem_nil, false_iff, not_and]
    intro accepted
    rcases validateAction_eq_ok.mp accepted with ⟨outcome, status, _⟩
    rw [outcome] at closed
    rcases closed with other | decided
    · exact absurd status other
    · cases decided
  case isFalse =>
    rw [List.mem_filterMap]
    constructor
    · rintro ⟨candidate, offered, accepted⟩
      have valid : world.validateAction candidate = .ok action := by
        cases result : world.validateAction candidate with
        | error error =>
          rw [result] at accepted
          cases accepted
        | ok normal =>
          rw [result] at accepted
          cases accepted
          rfl
      have same := offered_is_normal offered (validateAction_eq_ok.mp valid).2.2.2
      subst same
      exact ⟨valid, offered⟩
    · rintro ⟨accepted, offered⟩
      refine ⟨action, offered, ?_⟩
      rw [accepted]
      rfl

theorem nodup_legalActions : world.legalActions.Nodup := by
  unfold legalActions
  split
  · exact List.nodup_nil
  · have filtered : (world.candidateActions world.gameState.activePlayer).filterMap (fun candidate =>
        (world.validateAction candidate).toOption) =
        (world.candidateActions world.gameState.activePlayer).filterMap
          (Option.guard fun candidate => (world.validateAction candidate).isOk) := by
      apply List.filterMap_congr
      intro candidate offered
      cases result : world.validateAction candidate with
      | error error => simp [Option.guard, result, Except.isOk, Except.toBool, Except.toOption]
      | ok normal =>
        have same := offered_is_normal offered (validateAction_eq_ok.mp result).2.2.2
        simp [Option.guard, result, Except.isOk, Except.toBool, Except.toOption, same]
    rw [filtered, List.filterMap_eq_filter]
    exact nodup_candidateActions.filter _

/-- The legal actions are the normal forms of the actions that the validation accepts, each once. -/
theorem legal_actions_are_the_accepted_ones (indexed : world.Indexed) :
    (∀ action normal, world.validateAction action = .ok normal → normal ∈ world.legalActions) ∧
      (∀ action ∈ world.legalActions, world.validateAction action = .ok action) ∧ world.legalActions.Nodup := by
  refine ⟨?_, ?_, nodup_legalActions⟩
  · intro action normal accepted
    rcases validateAction_eq_ok.mp accepted with ⟨outcome, status, turn, valid⟩
    rcases accepted_is_offered indexed valid with ⟨again, offered⟩
    rw [mem_legalActions, turn]
    refine ⟨validateAction_eq_ok.mpr ⟨outcome, status, ?_, again⟩, offered⟩
    rw [validateActionKind_player valid]
    exact turn
  · intro action legal
    exact (mem_legalActions.mp legal).1

end Legality

section Examples

def table : World :=
  { entities := (∅ : BTreeMap GameEntityId Components)
      |>.insert 1 { kind := some .hero, currentStats := some ⟨0, 30⟩, damage := some 0 }
      |>.insert 2 { kind := some .minion, cardRuntime := some ⟨1, 1, [], .none⟩, runtimeTriggers := some [] }
      |>.insert 3 { kind := some .player, player := some ⟨.one, 1, 0, 0, 0, 0, 0, 0⟩ }
    zoneIndex := fun _ _ => []
    ruleset := ⟨7, 10, 60, 5, 1, 1, 1, 1, 10, 100000⟩
    gameState := ⟨.one, 1, none, .awaitingAction⟩
    weaponEquipment := ⟨fun _ => none, ∅⟩
    playOrderCounter := 0
    pendingDeaths := []
    deathEventCache := []
    canonicalTrace := []
    nativeEffectRegistry := [] }

def openingTable : World :=
  [ZoneOp.insert 1 .one .play none, .spawn 2 .one .hand none, .insert 3 .one .setAside none].foldl
    (@ZoneOp.run keyOrder) table

theorem table_start : table.Start := by
  apply Start.of_cards (fun _ _ => rfl) (fun _ => rfl)
  intro id components found
  unfold table at found
  rw [BTreeMap.getElem?_insert_eq, BTreeMap.getElem?_insert_eq, BTreeMap.getElem?_insert_eq] at found
  split at found
  · cases found
    exact ⟨rfl, rfl⟩
  · split at found
    · cases found
      exact ⟨rfl, rfl⟩
    · split at found
      · cases found
        exact ⟨rfl, rfl⟩
      · simp at found

theorem openingTable_indexed : openingTable.Indexed := by
  have run : @Run keyOrder (fun _ _ => True) table openingTable := by
    apply @run_foldl keyOrder
    · exact fun _ _ _ => trivial
    · decide +kernel
  exact (@Run.sound keyOrder _ _ _ run table_start).1.indexed

end Examples

theorem legal_actions_are_the_accepted_ones_opening :
    @legalActions keyOrder openingTable =
        [.endTurn .one, .playCard .one 2 none (some 0) none, .concede .one] ∧
      (∀ action normal, @validateAction keyOrder openingTable action = .ok normal →
        normal ∈ @legalActions keyOrder openingTable) ∧
      (∀ action ∈ @legalActions keyOrder openingTable, @validateAction keyOrder openingTable action = .ok action) ∧
      (@legalActions keyOrder openingTable).Nodup :=
  ⟨by decide +kernel, @legal_actions_are_the_accepted_ones keyOrder openingTable openingTable_indexed⟩

end World

end HearthstoneSimulator

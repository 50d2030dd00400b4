import BazelRepo.HearthstoneSimulator.Attachment

namespace HearthstoneSimulator

open Library

namespace World

/-- Readiness and the attack allowance decide; a fresh minion that may only rush needs an enemy minion. -/
def canThaw (world : World) (entity : GameEntityId) : Bool :=
  match world.get entity (·.attackState) with
  | none => false
  | some state =>
    if (world.get entity (·.kind) ≠ some .hero ∧ world.get entity (·.kind) ≠ some .minion) ∨
        world.attackExhausted entity state then
      false
    else if state.readinessBlocked ∧ world.get entity (·.kind) = some .minion ∧ ¬ world.hasKeyword entity .charge then
      match world.get entity (·.controller) with
      | none => false
      | some controller => (world.zoneIndex controller.opponent .play).any fun id => world.get id (·.kind) = some .minion
    else true

def thawing (world : World) (player : PlayerId) : List GameEntityId :=
  (world.zoneIndex player .play).filter fun id =>
    world.entities[id]?.isSome && world.hasKeyword id .frozen && world.canThaw id

def removal (keyword : Keyword) : KeywordModifier := ⟨keyword, false, true⟩

def removeKeyword (keyword : Keyword) (controller : PlayerId) (world : World) (target : GameEntityId) :
    Except SimulationError World := do
  let (world, _) ← world.attachKeywordModifier controller target (removal keyword) .permanent
  .ok world

def thawCharacters (world : World) (player : PlayerId) : Except SimulationError World :=
  (world.thawing player).foldlM (removeKeyword .frozen player) world

def breakAttackStealth (world : World) (attacker : GameEntityId) : Except SimulationError World :=
  match world.entities[attacker]? with
  | none => .ok world
  | some components =>
    if ¬ world.hasKeyword attacker .stealth then .ok world
    else do
      let controller ← okOr components.controller (.entityNotFound attacker)
      removeKeyword .stealth controller world attacker

/-- A modifier that silence does not suspend gives the keyword to a silenced entity. -/
def GivenDespiteSilence (world : World) (id : GameEntityId) (keyword : Keyword) : Prop :=
  ∃ layers, world.layers id = some layers ∧ layers.silenced = true ∧ layers.Stands keyword

theorem hasKeyword_iff {world : World} {id : GameEntityId} {keyword : Keyword} (mortal : keyword ≠ .immune) :
    world.hasKeyword id keyword = true ↔
      ∃ layers keywords, world.layers id = some layers ∧ layers.keywords = some keywords ∧ keyword ∈ keywords := by
  unfold hasKeyword World.get layers
  rw [decide_eq_false mortal, Bool.false_and, Bool.or_false]
  cases world.entities[id]? with
  | none => simp
  | some components =>
    rw [Option.bind_some, Option.map_some]
    cases components.keywords with
    | none => simp
    | some keywords => simp

end World

theorem Layers.stands_removal {layers : Layers} {keyword : Keyword} :
    (layers.attach (World.removal keyword)).Stands keyword ↔ layers.silenced = true ∧ layers.Stands keyword := by
  rw [stands_attach]
  cases silenced : layers.silenced with
  | true => simp [World.removal, KeywordModifier.counts]
  | false => simp [World.removal, KeywordModifier.counts]

structure Consumed (keyword : Keyword) (before after : Layers) : Prop where
  silenced : after.silenced = before.silenced
  stands : after.Stands keyword ↔ before.silenced = true ∧ before.Stands keyword
  keywords : after.keywords = some after.resolved

theorem Consumed.once (keyword : Keyword) (layers : Layers) :
    Consumed keyword layers (layers.attach (World.removal keyword)).recalculated := by
  refine ⟨rfl, ?_, rfl⟩
  show (layers.attach (World.removal keyword)).Stands keyword ↔ _
  exact Layers.stands_removal

theorem Consumed.again {keyword : Keyword} {before middle after : Layers} (first : Consumed keyword before middle)
    (second : Consumed keyword middle after) : Consumed keyword before after := by
  refine ⟨second.silenced.trans first.silenced, ?_, second.keywords⟩
  rw [second.stands, first.stands, first.silenced]
  tauto

namespace World

theorem removeKeyword_spec {world : World} (fresh : world.Fresh) (keyword : Keyword) (controller : PlayerId)
    {target : GameEntityId} (present : (world.entities[target]?).isSome = true) :
    ∃ other, removeKeyword keyword controller world target = .ok other ∧ other.Fresh ∧
      ∀ id : GameEntityId, (world.entities[id]?).isSome = true → (other.entities[id]?).isSome = true ∧
        other.layers id = (world.layers id).map fun layers =>
          if id = target then (layers.attach (removal keyword)).recalculated else layers := by
  rcases attachKeywordModifier_spec fresh controller present (removal keyword) .permanent with
    ⟨other, attached, kept, changed⟩
  refine ⟨other, ?_, kept, changed⟩
  unfold removeKeyword
  rw [attached]
  rfl

theorem removeKeywords_spec (keyword : Keyword) (controller : PlayerId) (targets : List GameEntityId) {world : World}
    (fresh : world.Fresh) (present : ∀ id ∈ targets, (world.entities[id]?).isSome = true) :
    ∃ other, targets.foldlM (removeKeyword keyword controller) world = .ok other ∧
      ∀ (id : GameEntityId) (layers : Layers), world.layers id = some layers →
        ∃ after, other.layers id = some after ∧
          if id ∈ targets then Consumed keyword layers after else after = layers := by
  induction targets generalizing world with
  | nil =>
    refine ⟨world, rfl, ?_⟩
    intro id layers found
    exact ⟨layers, found, by simp⟩
  | cons target rest ih =>
    rcases removeKeyword_spec fresh keyword controller (present target List.mem_cons_self) with
      ⟨middle, removed, kept, changed⟩
    have remaining : ∀ id ∈ rest, (middle.entities[id]?).isSome = true :=
      fun id member => (changed id (present id (List.mem_cons_of_mem _ member))).1
    rcases ih kept remaining with ⟨other, folded, follows⟩
    refine ⟨other, ?_, ?_⟩
    · rw [List.foldlM_cons, removed]
      exact folded
    · intro id layers found
      have known : (world.entities[id]?).isSome = true := by
        unfold World.layers at found
        rw [← Option.isSome_map, found]
        rfl
      have between := (changed id known).2
      rw [found, Option.map_some] at between
      rcases follows id _ between with ⟨after, reached, rest'⟩
      refine ⟨after, reached, ?_⟩
      by_cases same : id = target
      · subst same
        rw [if_pos rfl] at rest'
        rw [if_pos List.mem_cons_self]
        split at rest'
        · exact (Consumed.once keyword layers).again rest'
        · rw [rest']
          exact Consumed.once keyword layers
      · rw [if_neg same] at rest'
        simpa only [List.mem_cons, same, false_or] using rest'

theorem hasKeyword_of_consumed {keyword : Keyword} (mortal : keyword ≠ .immune) {world other : World}
    {id : GameEntityId} {before after : Layers} (consumed : Consumed keyword before after)
    (found : world.layers id = some before) (reached : other.layers id = some after) :
    other.hasKeyword id keyword = true ↔ world.GivenDespiteSilence id keyword := by
  rw [hasKeyword_iff mortal]
  unfold GivenDespiteSilence
  rw [reached, found]
  constructor
  · rintro ⟨layers, keywords, same, kept, member⟩
    cases same
    rw [consumed.keywords] at kept
    cases kept
    have stands := consumed.stands.mp (Layers.mem_resolved.mp member)
    exact ⟨before, rfl, stands⟩
  · rintro ⟨layers, same, stands⟩
    cases same
    exact ⟨after, _, rfl, consumed.keywords, Layers.mem_resolved.mpr (consumed.stands.mpr stands)⟩

theorem hasKeyword_congr {keyword : Keyword} (mortal : keyword ≠ .immune) {world other : World} {id : GameEntityId}
    (same : other.layers id = world.layers id) : other.hasKeyword id keyword = world.hasKeyword id keyword := by
  rw [Bool.eq_iff_iff, hasKeyword_iff mortal, hasKeyword_iff mortal, same]

theorem layers_isSome (world : World) (id : GameEntityId) :
    (world.layers id).isSome = (world.entities[id]?).isSome := by
  unfold layers
  rw [Option.isSome_map]

theorem thawCharacters_spec {world : World} (fresh : world.Fresh) (player : PlayerId) :
    ∃ other, world.thawCharacters player = .ok other ∧
      ∀ id ∈ world.zoneIndex player .play, world.canThaw id = true →
        (other.hasKeyword id .frozen = true ↔
          world.hasKeyword id .frozen = true ∧ world.GivenDespiteSilence id .frozen) := by
  have present : ∀ id ∈ world.thawing player, (world.entities[id]?).isSome = true := by
    intro id member
    have eligible := (List.mem_filter.mp member).2
    rw [Bool.and_eq_true, Bool.and_eq_true] at eligible
    exact eligible.1.1
  rcases removeKeywords_spec .frozen player (world.thawing player) fresh present with ⟨other, thawed, follows⟩
  refine ⟨other, thawed, ?_⟩
  intro id member able
  cases found : world.layers id with
  | none =>
    have absent : world.entities[id]? = none := by
      rw [← Option.not_isSome_iff_eq_none, ← layers_isSome, found]
      simp
    unfold canThaw World.get at able
    rw [absent] at able
    cases able
  | some layers =>
    rcases follows id layers found with ⟨after, reached, outcome⟩
    have known : (world.entities[id]?).isSome = true := by
      rw [← layers_isSome, found]
      rfl
    by_cases frozen : world.hasKeyword id .frozen = true
    · have chosen : id ∈ world.thawing player := by
        refine List.mem_filter.mpr ⟨member, ?_⟩
        rw [known, frozen, able]
        rfl
      rw [if_pos chosen] at outcome
      rw [hasKeyword_of_consumed (by decide) outcome found reached]
      simp [frozen]
    · have left : id ∉ world.thawing player := by
        intro chosen
        have eligible := (List.mem_filter.mp chosen).2
        rw [Bool.and_eq_true, Bool.and_eq_true] at eligible
        exact frozen eligible.1.2
      rw [if_neg left] at outcome
      rw [hasKeyword_congr (by decide) (reached.trans (outcome ▸ found.symm))]
      simp [frozen]

theorem breakAttackStealth_spec {world other : World} (fresh : world.Fresh) {attacker : GameEntityId}
    (broken : world.breakAttackStealth attacker = .ok other) :
    other.hasKeyword attacker .stealth = true ↔
      world.hasKeyword attacker .stealth = true ∧ world.GivenDespiteSilence attacker .stealth := by
  unfold breakAttackStealth at broken
  by_cases hidden : world.hasKeyword attacker .stealth = true
  · cases entity : world.entities[attacker]? with
    | none =>
      unfold hasKeyword World.get at hidden
      rw [entity] at hidden
      cases hidden
    | some components =>
      rw [entity] at broken
      simp only [hidden, not_true_eq_false, if_false] at broken
      rcases bind_eq_ok.mp broken with ⟨controller, _, removed⟩
      have known : (world.entities[attacker]?).isSome = true := by
        rw [entity]
        rfl
      rcases removeKeyword_spec fresh .stealth controller known with ⟨after, same, _, changed⟩
      have result : after = other := Except.ok.inj (same.symm.trans removed)
      subst result
      rcases Option.isSome_iff_exists.mp ((layers_isSome world attacker).trans known) with ⟨layers, found⟩
      have reached := (changed attacker known).2
      rw [found, Option.map_some, if_pos rfl] at reached
      rw [hasKeyword_of_consumed (by decide) (Consumed.once .stealth layers) found reached]
      simp [hidden]
  · have unchanged : other = world := by
      cases entity : world.entities[attacker]? with
      | none =>
        rw [entity] at broken
        exact (Except.ok.inj broken).symm
      | some components =>
        rw [entity] at broken
        simp only [hidden] at broken
        exact (Except.ok.inj broken).symm
    rw [unchanged]
    simp [hidden]

/-- Thawing and breaking stealth take effect exactly where no silenced entity they are for is given the keyword
    despite its silence. -/
theorem removals_take_effect {world : World} (fresh : world.Fresh) :
    (∀ player, ∃ other, world.thawCharacters player = .ok other ∧
      ((∀ id ∈ world.zoneIndex player .play, world.canThaw id = true → other.hasKeyword id .frozen = false) ↔
        ∀ id ∈ world.zoneIndex player .play, world.canThaw id = true → world.hasKeyword id .frozen = true →
          ¬ world.GivenDespiteSilence id .frozen)) ∧
    ∀ attacker other, world.breakAttackStealth attacker = .ok other →
      (other.hasKeyword attacker .stealth = false ↔
        (world.hasKeyword attacker .stealth = true → ¬ world.GivenDespiteSilence attacker .stealth)) := by
  constructor
  · intro player
    rcases thawCharacters_spec fresh player with ⟨other, thawed, effect⟩
    refine ⟨other, thawed, ?_⟩
    constructor
    · intro gone id member able frozen given
      have kept := (effect id member able).mpr ⟨frozen, given⟩
      rw [gone id member able] at kept
      cases kept
    · intro lacking id member able
      rw [Bool.eq_false_iff]
      intro kept
      rcases (effect id member able).mp kept with ⟨frozen, given⟩
      exact lacking id member able frozen given
  · intro attacker other broken
    have effect := breakAttackStealth_spec fresh broken
    constructor
    · intro gone hidden given
      rw [effect.mpr ⟨hidden, given⟩] at gone
      cases gone
    · intro lacking
      rw [Bool.eq_false_iff]
      intro kept
      rcases effect.mp kept with ⟨hidden, given⟩
      exact lacking hidden given

section Examples

/-- A silenced minion, frozen and hidden by enchantments that silence leaves alone. -/
def camp : World :=
  { entities := (∅ : BTreeMap GameEntityId Components)
      |>.insert 1 { kind := some .minion, controller := some .one, zone := some .play, zonePosition := some 0,
                    attackState := some ⟨0, false⟩, silenced := true, baseKeywords := some ∅,
                    keywords := some {.frozen, .stealth} }
      |>.insert 2 { kind := some .enchantment, controller := some .two, zone := some .play, zonePosition := some 0,
                    playOrder := some 1, attachedTo := some 1, keywordModifier := some ⟨.frozen, true, false⟩ }
      |>.insert 3 { kind := some .enchantment, controller := some .two, zone := some .play, zonePosition := some 1,
                    playOrder := some 2, attachedTo := some 1, keywordModifier := some ⟨.stealth, true, false⟩ }
    zoneIndex := fun player zone =>
      if zone = .play then (match player with | .one => [1] | .two => [2, 3]) else []
    ruleset := ⟨7, 10, 60, 5, 1, 1, 1, 1, 10, 100000⟩
    gameState := ⟨.one, 1, none, .awaitingAction⟩
    weaponEquipment := ⟨fun _ => none, ∅⟩
    playOrderCounter := 3
    nextGameEntityId := 4
    pendingDeaths := []
    deathEventCache := []
    canonicalTrace := []
    nativeEffectRegistry := [] }

theorem camp_fresh : camp.Fresh := by
  have entities : ∀ (id : GameEntityId) (components : Components), camp.entities[id]? = some components →
      id < 4 ∧ ∀ host order modifier, components.attachment = some (host, order, modifier) → order < 3 := by
    intro id components found
    unfold camp at found
    rw [BTreeMap.getElem?_insert_eq, BTreeMap.getElem?_insert_eq, BTreeMap.getElem?_insert_eq] at found
    split at found
    · rename_i same
      cases found
      refine ⟨by rw [same]; decide, ?_⟩
      intro host order modifier attached
      cases attached
      decide
    · split at found
      · rename_i same
        cases found
        refine ⟨by rw [same]; decide, ?_⟩
        intro host order modifier attached
        cases attached
        decide
      · split at found
        · rename_i same
          cases found
          refine ⟨by rw [same]; decide, ?_⟩
          intro host order modifier attached
          cases attached
        · cases found
  constructor
  · intro id present
    rcases Option.isSome_iff_exists.mp present with ⟨components, found⟩
    exact (entities id components found).1
  · intro id host order modifier attached
    rcases Option.bind_eq_some_iff.mp attached with ⟨components, found, attachment⟩
    exact (entities id components found).2 host order modifier attachment

theorem removals_take_effect_camp :
    ∃ other, camp.thawCharacters .one = .ok other ∧
      ((∀ id ∈ camp.zoneIndex .one .play, camp.canThaw id = true → other.hasKeyword id .frozen = false) ↔
        ∀ id ∈ camp.zoneIndex .one .play, camp.canThaw id = true → camp.hasKeyword id .frozen = true →
          ¬ camp.GivenDespiteSilence id .frozen) :=
  (removals_take_effect camp_fresh).1 .one

theorem camp_given {keyword : Keyword} (either : keyword = .frozen ∨ keyword = .stealth) :
    camp.GivenDespiteSilence 1 keyword := by
  have entries : camp.modifierEntries 1 = [(1, 2, ⟨.frozen, true, false⟩), (2, 3, ⟨.stealth, true, false⟩)] := by
    decide +kernel
  have modifiers : camp.attachedModifiers 1 (·.keywordModifier) =
      [⟨.frozen, true, false⟩, ⟨.stealth, true, false⟩] := by
    rw [attachedModifiers_eq, entries, List.mergeSort_of_pairwise (by decide)]
    rfl
  have silenced : camp.entities[1]?.map (·.silenced) = some true := by decide +kernel
  rcases Option.map_eq_some_iff.mp silenced with ⟨components, found, quiet⟩
  refine ⟨_, by unfold layers; rw [found]; rfl, quiet, ?_⟩
  dsimp only
  rw [modifiers, quiet]
  rcases either with rfl | rfl
  · exact rfl
  · exact rfl

/-- Neither removal takes effect on the silenced minion. -/
theorem silenced_minion_stays_frozen :
    (∃ (world : World) (player : PlayerId) (id : GameEntityId), world.Fresh ∧ id ∈ world.zoneIndex player .play ∧
      world.canThaw id = true ∧
        ∃ other, world.thawCharacters player = .ok other ∧ other.hasKeyword id .frozen = true) ∧
    ∃ (world : World) (attacker : GameEntityId), world.Fresh ∧
      ∃ other, world.breakAttackStealth attacker = .ok other ∧ other.hasKeyword attacker .stealth = true := by
  have minion : 1 ∈ camp.zoneIndex .one .play := by decide +kernel
  have able : camp.canThaw 1 = true := by decide +kernel
  constructor
  · rcases thawCharacters_spec camp_fresh .one with ⟨other, thawed, effect⟩
    refine ⟨camp, .one, 1, camp_fresh, minion, able, other, thawed, ?_⟩
    exact (effect 1 minion able).mpr ⟨by decide +kernel, camp_given (.inl rfl)⟩
  · have broken : (camp.breakAttackStealth 1).isOk = true := by decide +kernel
    cases result : camp.breakAttackStealth 1 with
    | ok other =>
      refine ⟨camp, 1, camp_fresh, other, result, ?_⟩
      exact (breakAttackStealth_spec camp_fresh result).mpr ⟨by decide +kernel, camp_given (.inr rfl)⟩
    | error error =>
      rw [result] at broken
      cases broken

end Examples

end World

end HearthstoneSimulator

import BazelRepo.HearthstoneSimulator.Layers

namespace HearthstoneSimulator

open Library

namespace World

structure Quiet (world other : World) : Prop where
  data : ∀ id : GameEntityId,
    (other.entities[id]?).map Components.keywordData = (world.entities[id]?).map Components.keywordData
  identified : world.nextGameEntityId ≤ other.nextGameEntityId
  ordered : world.playOrderCounter ≤ other.playOrderCounter

/-- The numbers of entities and their places in the order of play are those that were handed out. -/
structure Fresh (world : World) : Prop where
  identified : ∀ id : GameEntityId, (world.entities[id]?).isSome = true → id < world.nextGameEntityId
  ordered : ∀ id host order modifier, world.get id (·.attachment) = some (host, order, modifier) →
    order < world.playOrderCounter

section Quiet

variable {world middle other : World}

theorem Quiet.refl (world : World) : Quiet world world :=
  ⟨fun _ => rfl, Nat.le_refl _, Nat.le_refl _⟩

theorem Quiet.trans (first : Quiet world middle) (second : Quiet middle other) : Quiet world other :=
  ⟨fun id => (second.data id).trans (first.data id), Nat.le_trans first.identified second.identified,
    Nat.le_trans first.ordered second.ordered⟩

theorem attachment_congr {components old : Components} (same : components.keywordData = old.keywordData) :
    components.attachment = old.attachment := by
  have placed : components.hosted = old.hosted := congrArg (·.2.1) same
  have modifies : components.keywordModifier = old.keywordModifier := congrArg (·.2.2) same
  unfold Components.attachment
  rw [placed, modifies]

theorem get_attachment_congr {id : GameEntityId}
    (same : (other.entities[id]?).map Components.keywordData = (world.entities[id]?).map Components.keywordData) :
    other.get id (·.attachment) = world.get id (·.attachment) := by
  unfold World.get
  cases after : other.entities[id]? with
  | none =>
    cases before : world.entities[id]? with
    | none => rfl
    | some components =>
      rw [after, before] at same
      cases same
  | some components =>
    cases before : world.entities[id]? with
    | none =>
      rw [after, before] at same
      cases same
    | some old =>
      rw [after, before] at same
      exact attachment_congr (Option.some.inj same)

theorem Quiet.attachment (quiet : Quiet world other) (id : GameEntityId) :
    other.get id (·.attachment) = world.get id (·.attachment) :=
  get_attachment_congr (quiet.data id)

theorem Quiet.isSome (quiet : Quiet world other) (id : GameEntityId) :
    (other.entities[id]?).isSome = (world.entities[id]?).isSome := by
  have same := congrArg Option.isSome (quiet.data id)
  rwa [Option.isSome_map, Option.isSome_map] at same

theorem layers_of_host {id : GameEntityId}
    (host : (other.entities[id]?).map (fun components => components.keywordData.1) =
      (world.entities[id]?).map fun components => components.keywordData.1) :
    other.layers id = (world.layers id).map fun layers =>
      { layers with modifiers := other.attachedModifiers id (·.keywordModifier) } := by
  unfold layers
  cases after : other.entities[id]? with
  | none =>
    cases before : world.entities[id]? with
    | none => rfl
    | some components =>
      rw [after, before] at host
      cases host
  | some components =>
    cases before : world.entities[id]? with
    | none =>
      rw [after, before] at host
      cases host
    | some old =>
      rw [after, before] at host
      have same := Option.some.inj host
      have silenced : components.silenced = old.silenced := congrArg Prod.fst same
      have printed : components.baseKeywords = old.baseKeywords := congrArg (·.2.1) same
      have keywords : components.keywords = old.keywords := congrArg (·.2.2) same
      simp only [Option.map_some, silenced, printed, keywords]

theorem layers_congr {id : GameEntityId}
    (host : (other.entities[id]?).map (fun components => components.keywordData.1) =
      (world.entities[id]?).map fun components => components.keywordData.1)
    (modifiers : other.attachedModifiers id (·.keywordModifier) = world.attachedModifiers id (·.keywordModifier)) :
    other.layers id = world.layers id := by
  rw [layers_of_host host, modifiers]
  unfold layers
  rw [Option.map_map]
  rfl

theorem Quiet.layers (quiet : Quiet world other) (id : GameEntityId) : other.layers id = world.layers id := by
  apply layers_congr
  · have same := congrArg (Option.map Prod.fst) (quiet.data id)
    rw [Option.map_map, Option.map_map] at same
    exact same
  · apply modifiers_congr
    intro a order modifier
    rw [quiet.attachment]

theorem Fresh.quiet (fresh : world.Fresh) (quiet : Quiet world other) : other.Fresh := by
  constructor
  · intro id present
    rw [quiet.isSome] at present
    exact Nat.lt_of_lt_of_le (fresh.identified id present) quiet.identified
  · intro id host order modifier found
    rw [quiet.attachment] at found
    exact Nat.lt_of_lt_of_le (fresh.ordered id host order modifier found) quiet.ordered

theorem quiet_of_entities (entities : other.entities = world.entities)
    (identified : other.nextGameEntityId = world.nextGameEntityId)
    (ordered : other.playOrderCounter = world.playOrderCounter) : Quiet world other :=
  ⟨fun id => by rw [entities], identified.ge, ordered.ge⟩

theorem quiet_modify {id : GameEntityId} {change : Components → Components}
    (kept : ∀ components, world.entities[id]? = some components → (change components).keywordData = components.keywordData) :
    Quiet world (world.modify id change) := by
  refine ⟨?_, Nat.le_refl _, Nat.le_refl _⟩
  intro a
  rw [entities_modify, Option.map_map]
  cases found : world.entities[a]? with
  | none => rfl
  | some components =>
    show some ((if a = id then change components else components).keywordData) = some components.keywordData
    by_cases same : a = id
    · subst same
      rw [if_pos rfl, kept components found]
    · rw [if_neg same]

theorem quiet_foldl_setZonePosition (entries : List (GameEntityId × Nat)) (world : World) :
    Quiet world (entries.foldl setZonePosition world) := by
  induction entries generalizing world with
  | nil => exact Quiet.refl world
  | cons entry rest ih =>
    have first : Quiet world (world.setZonePosition entry) := quiet_modify fun _ _ => rfl
    exact first.trans (ih _)

theorem quiet_refreshPositions (world : World) (player : PlayerId) (zone : Zone) :
    Quiet world (world.refreshPositions player zone) :=
  quiet_foldl_setZonePosition _ world

theorem quiet_setEntries (world : World) (player : PlayerId) (zone : Zone) (entries : List GameEntityId) :
    Quiet world (world.setEntries player zone entries) :=
  quiet_of_entities rfl rfl rfl

theorem quiet_insertIntoZoneUnchecked (world : World) (id : GameEntityId) (player : PlayerId) (zone : Zone)
    (position : Option Nat) : Quiet world (world.insertIntoZoneUnchecked id player zone position) := by
  have indexed := quiet_setEntries world player zone
    ((world.zoneIndex player zone).insertIdx (position.getD (world.zoneIndex player zone).length) id)
  refine indexed.trans (Quiet.trans ?_ (quiet_refreshPositions _ player zone))
  exact quiet_modify fun _ _ => rfl

theorem quiet_insertIntoZone {id : GameEntityId} {player : PlayerId} {zone : Zone} {position : Option Nat}
    (inserted : world.insertIntoZone id player zone position = .ok other) : Quiet world other := by
  unfold insertIntoZone at inserted
  simp only [bind_eq_ok, reject_eq_ok, Except.ok.injEq] at inserted
  rcases inserted with ⟨_, _, _, _, _, rfl⟩
  exact quiet_insertIntoZoneUnchecked world id player zone position

theorem quiet_recalculateStats (world : World) (id : GameEntityId) : Quiet world (world.recalculateStats id) := by
  unfold recalculateStats
  apply quiet_modify
  intro components _
  cases components.baseStats <;> rfl

theorem quiet_recalculateCost (world : World) (id : GameEntityId) : Quiet world (world.recalculateCost id) :=
  quiet_modify fun _ _ => rfl

end Quiet

theorem recalculateKeywords_attachment (world : World) (target id : GameEntityId) :
    (world.recalculateKeywords target).get id (·.attachment) = world.get id (·.attachment) := by
  unfold recalculateKeywords World.get
  rw [entities_modify]
  cases world.entities[id]? with
  | none => rfl
  | some components =>
    show (if id = target then _ else components : Components).attachment = components.attachment
    split <;> rfl

theorem recalculateKeywords_layers (world : World) (target id : GameEntityId) :
    (world.recalculateKeywords target).layers id =
      if id = target then (world.layers id).map Layers.recalculated else world.layers id := by
  have modifiers : (world.recalculateKeywords target).attachedModifiers id (·.keywordModifier) =
      world.attachedModifiers id (·.keywordModifier) := by
    apply modifiers_congr
    intro a order modifier
    rw [recalculateKeywords_attachment]
  by_cases same : id = target
  · subst same
    rw [if_pos rfl]
    unfold layers
    rw [modifiers]
    unfold recalculateKeywords
    rw [entities_modify]
    cases found : world.entities[id]? with
    | none => rfl
    | some components =>
      rw [Option.map_some, Option.map_some, if_pos rfl]
      rfl
  · rw [if_neg same]
    apply layers_congr _ modifiers
    unfold recalculateKeywords
    rw [entities_modify]
    simp only [if_neg same, Option.map_id']

theorem recalculateKeywords_isSome (world : World) (target id : GameEntityId) :
    ((world.recalculateKeywords target).entities[id]?).isSome = (world.entities[id]?).isSome := by
  unfold recalculateKeywords
  rw [entities_modify, Option.isSome_map]

theorem Fresh.recalculateKeywords {world : World} (fresh : world.Fresh) (target : GameEntityId) :
    (world.recalculateKeywords target).Fresh := by
  constructor
  · intro id present
    rw [recalculateKeywords_isSome] at present
    exact fresh.identified id present
  · intro id host order modifier found
    rw [recalculateKeywords_attachment] at found
    exact fresh.ordered id host order modifier found

def spawnAttachedEnchantment (world : World) (controller : PlayerId) (target : GameEntityId)
    (definitionId displayName : String) (duration : EnchantmentDuration) (silenceRemovable : Bool) :
    Except SimulationError (World × GameEntityId) := do
  let _ ← okOr world.entities[target]? (.entityNotFound target)
  let (world, id) := world.allocateGameId
  let (world, order) := world.allocatePlayOrder
  let enchantment : Components :=
    { kind := some .enchantment
      definitionId := some definitionId
      displayName := some displayName
      controller := some controller
      playOrder := some order
      duration := some duration
      attachedTo := some target
      silenceRemovable := silenceRemovable }
  let spawned := { world with entities := world.entities.insert id enchantment }
  -- enchantments fit in every Play zone
  match spawned.insertIntoZone id controller .play none with
  | .ok inserted => .ok (inserted, id)
  | .error _ => .ok (spawned, id)

/-- An enchantment of one modifier, and the calculation that depends on it. -/
def attachModifier (definitionId displayName : String) (modify : Components → Components)
    (recalculate : World → GameEntityId → World) (world : World) (controller : PlayerId) (target : GameEntityId)
    (duration : EnchantmentDuration) (silenceRemovable : Bool) : Except SimulationError (World × GameEntityId) := do
  let (world, id) ← world.spawnAttachedEnchantment controller target definitionId displayName duration silenceRemovable
  .ok (recalculate (world.modify id modify) target, id)

def attachStatModifier (world : World) (controller : PlayerId) (target : GameEntityId) (modifier : StatModifier)
    (duration : EnchantmentDuration) : Except SimulationError (World × GameEntityId) :=
  attachModifier "synthetic:stat_modifier" "Stat modifier"
    (fun components => { components with statModifier := some modifier })
    recalculateStats world controller target duration modifier.silenceRemovable

def attachKeywordModifier (world : World) (controller : PlayerId) (target : GameEntityId) (modifier : KeywordModifier)
    (duration : EnchantmentDuration) : Except SimulationError (World × GameEntityId) :=
  attachModifier "synthetic:keyword_modifier" "Keyword modifier"
    (fun components => { components with keywordModifier := some modifier })
    recalculateKeywords world controller target duration modifier.silenceRemovable

def attachCostModifier (world : World) (controller : PlayerId) (target : GameEntityId) (modifier : CostModifier)
    (duration : EnchantmentDuration) : Except SimulationError (World × GameEntityId) :=
  attachModifier "synthetic:cost_modifier" "Cost modifier"
    (fun components => { components with costModifier := some modifier })
    recalculateCost world controller target duration modifier.silenceRemovable

/-- One new enchantment, the latest of all, and nothing else that keywords depend on. -/
structure Attaches (world other : World) (target : GameEntityId) (modifier : Option KeywordModifier) : Prop where
  others : ∀ id : GameEntityId, id ≠ world.nextGameEntityId →
    (other.entities[id]?).map Components.keywordData = (world.entities[id]?).map Components.keywordData
  added : (other.entities[world.nextGameEntityId]?).map Components.keywordData =
    some ((false, none, none), some (target, world.playOrderCounter), modifier)
  identified : other.nextGameEntityId = world.nextGameEntityId + 1
  ordered : other.playOrderCounter = world.playOrderCounter + 1

theorem Attaches.quiet {world middle other : World} {target : GameEntityId} {modifier : Option KeywordModifier}
    (attaches : Attaches world middle target modifier) (quiet : Quiet middle other)
    (identified : other.nextGameEntityId = middle.nextGameEntityId)
    (ordered : other.playOrderCounter = middle.playOrderCounter) : Attaches world other target modifier :=
  ⟨fun id apart => (quiet.data id).trans (attaches.others id apart), (quiet.data _).trans attaches.added,
    identified.trans attaches.identified, ordered.trans attaches.ordered⟩

theorem insertIntoZone_counters {world other : World} {id : GameEntityId} {player : PlayerId} {zone : Zone}
    {position : Option Nat} (inserted : world.insertIntoZone id player zone position = .ok other) :
    other.nextGameEntityId = world.nextGameEntityId ∧ other.playOrderCounter = world.playOrderCounter := by
  unfold insertIntoZone at inserted
  simp only [bind_eq_ok, reject_eq_ok, Except.ok.injEq] at inserted
  rcases inserted with ⟨_, _, _, _, _, rfl⟩
  rw [insertIntoZoneUnchecked_eq]
  exact ⟨rfl, rfl⟩

theorem spawnAttachedEnchantment_of_present {world : World} {target : GameEntityId}
    (present : (world.entities[target]?).isSome = true) (controller : PlayerId)
    (definitionId displayName : String) (duration : EnchantmentDuration) (silenceRemovable : Bool) :
    ∃ spawned, world.spawnAttachedEnchantment controller target definitionId displayName duration silenceRemovable =
      .ok spawned := by
  rcases Option.isSome_iff_exists.mp present with ⟨host, entity⟩
  unfold spawnAttachedEnchantment
  rw [entity]
  dsimp only [okOr, ok_bind]
  split
  · exact ⟨_, rfl⟩
  · exact ⟨_, rfl⟩

theorem spawnAttachedEnchantment_inv {world other : World} {controller : PlayerId} {target id : GameEntityId}
    {definitionId displayName : String} {duration : EnchantmentDuration} {silenceRemovable : Bool}
    (spawned : world.spawnAttachedEnchantment controller target definitionId displayName duration silenceRemovable =
      .ok (other, id)) :
    id = world.nextGameEntityId ∧ (world.entities[target]?).isSome = true ∧ Attaches world other target none := by
  unfold spawnAttachedEnchantment at spawned
  rcases bind_eq_ok.mp spawned with ⟨host, present, spawned⟩
  rw [okOr_eq_ok] at present
  have inserted : ∀ enchantment : Components, enchantment.keywordData =
      ((false, none, none), some (target, world.playOrderCounter), none) →
      Attaches world { world with
        nextGameEntityId := world.nextGameEntityId + 1
        playOrderCounter := world.playOrderCounter + 1
        entities := world.entities.insert world.nextGameEntityId enchantment } target none := by
    intro enchantment data
    refine ⟨?_, ?_, rfl, rfl⟩
    · intro a apart
      dsimp only
      rw [BTreeMap.getElem?_insert_eq, if_neg apart]
    · dsimp only
      rw [BTreeMap.getElem?_insert_eq, if_pos rfl, Option.map_some, data]
  refine ⟨?_, by rw [present]; rfl, ?_⟩
  · dsimp only at spawned
    split at spawned
    · cases spawned
      rfl
    · cases spawned
      rfl
  · dsimp only at spawned
    split at spawned
    · rename_i moved entered
      cases spawned
      have counters := insertIntoZone_counters entered
      exact (inserted _ rfl).quiet (quiet_insertIntoZone entered) counters.1 counters.2
    · cases spawned
      exact inserted _ rfl

section Attaches

variable {world other : World} {target : GameEntityId} {modifier : Option KeywordModifier}

theorem Attaches.modify {change : Components → Components} {found : Option KeywordModifier}
    (attaches : Attaches world other target none)
    (changes : ∀ components, (change components).keywordData =
      (components.keywordData.1, components.keywordData.2.1, found)) :
    Attaches world (other.modify world.nextGameEntityId change) target found := by
  refine ⟨?_, ?_, attaches.identified, attaches.ordered⟩
  · intro id apart
    rw [entities_modify]
    simp only [if_neg apart, Option.map_id']
    exact attaches.others id apart
  · have added := attaches.added
    rw [entities_modify]
    cases entity : other.entities[world.nextGameEntityId]? with
    | none =>
      rw [entity] at added
      cases added
    | some components =>
      rw [entity, Option.map_some, Option.some.injEq] at added
      rw [Option.map_some, Option.map_some, if_pos rfl, changes, added]

theorem Attaches.attachment (fresh : world.Fresh) (attaches : Attaches world other target modifier)
    (id : GameEntityId) (found : GameEntityId × Nat × KeywordModifier) :
    other.get id (·.attachment) = some found ↔
      (id = world.nextGameEntityId ∧ ∃ added, modifier = some added ∧
        found = (target, world.playOrderCounter, added)) ∨
      world.get id (·.attachment) = some found := by
  have unknown : world.entities[world.nextGameEntityId]? = none := by
    cases entity : world.entities[world.nextGameEntityId]? with
    | none => rfl
    | some components => exact absurd (fresh.identified _ (by rw [entity]; rfl)) (Nat.lt_irrefl _)
  by_cases same : id = world.nextGameEntityId
  · subst same
    have added := attaches.added
    unfold World.get
    rw [unknown]
    cases entity : other.entities[world.nextGameEntityId]? with
    | none =>
      rw [entity] at added
      cases added
    | some components =>
      rw [entity, Option.map_some, Option.some.injEq] at added
      have placed : components.hosted = some (target, world.playOrderCounter) := congrArg (·.2.1) added
      have modifies : components.keywordModifier = modifier := congrArg (·.2.2) added
      show components.attachment = some found ↔ _
      unfold Components.attachment
      rw [placed, modifies, Option.bind_some, Option.map_eq_some_iff]
      constructor
      · rintro ⟨granted, rfl, rfl⟩
        exact .inl ⟨rfl, granted, rfl, rfl⟩
      · rintro (⟨_, granted, rfl, rfl⟩ | old)
        · exact ⟨granted, rfl, rfl⟩
        · cases old
  · have kept := get_attachment_congr (attaches.others id same)
    rw [kept]
    constructor
    · exact .inr
    · rintro (⟨equal, _⟩ | old)
      · exact absurd equal same
      · exact old

theorem Attaches.layers (fresh : world.Fresh) (attaches : Attaches world other target modifier) {id : GameEntityId}
    (known : (world.entities[id]?).isSome = true) :
    other.layers id = (world.layers id).map fun layers =>
      if id = target then modifier.elim layers layers.attach else layers := by
  have apart : id ≠ world.nextGameEntityId := (fresh.identified id known).ne
  have host := congrArg (Option.map Prod.fst) (attaches.others id apart)
  rw [Option.map_map, Option.map_map] at host
  have attachments := attaches.attachment fresh
  by_cases same : id = target
  · subst same
    simp only [if_true]
    cases modifier with
    | none =>
      simp only [Option.elim, Option.map_id']
      apply layers_congr host
      apply modifiers_congr
      intro a order found
      rw [attachments]
      simp
    | some granted =>
      have unknown : world.get world.nextGameEntityId (·.attachment) = none := by
        cases found : world.get world.nextGameEntityId (·.attachment) with
        | none => rfl
        | some attachment =>
          unfold World.get at found
          rcases Option.bind_eq_some_iff.mp found with ⟨components, entity, _⟩
          exact absurd (fresh.identified _ (by rw [entity]; rfl)) (Nat.lt_irrefl _)
      have attached : ∀ a found, other.get a (·.attachment) = some found ↔
          a = world.nextGameEntityId ∧ found = (id, world.playOrderCounter, granted) ∨
            world.get a (·.attachment) = some found := by
        intro a found
        rw [attachments]
        simp
      rw [layers_of_host host, modifiers_attach (fun a => fresh.ordered a id) unknown attached]
      unfold World.layers
      rw [Option.map_map, Option.map_map]
      rfl
  · simp only [if_neg same, Option.map_id']
    apply layers_congr host
    apply modifiers_congr
    intro a order found
    rw [attachments]
    constructor
    · rintro (⟨_, added, _, equal⟩ | old)
      · cases equal
        exact absurd rfl same
      · exact old
    · exact .inr

theorem Attaches.present (attaches : Attaches world other target modifier) {id : GameEntityId}
    (known : (world.entities[id]?).isSome = true) : (other.entities[id]?).isSome = true := by
  by_cases same : id = world.nextGameEntityId
  · subst same
    have added := congrArg Option.isSome attaches.added
    rwa [Option.isSome_map] at added
  · have kept := congrArg Option.isSome (attaches.others id same)
    rw [Option.isSome_map, Option.isSome_map, known] at kept
    exact kept

theorem Attaches.fresh (fresh : world.Fresh) (attaches : Attaches world other target modifier) : other.Fresh := by
  constructor
  · intro id present
    rw [attaches.identified]
    by_cases same : id = world.nextGameEntityId
    · rw [same]
      exact Nat.lt_succ_self _
    · have kept := congrArg Option.isSome (attaches.others id same)
      rw [Option.isSome_map, Option.isSome_map, present] at kept
      exact Nat.lt_succ_of_lt (fresh.identified id kept.symm)
  · intro id host order found attached
    rw [attaches.ordered]
    rcases (attaches.attachment fresh id _).mp attached with ⟨_, added, _, same⟩ | old
    · cases same
      exact Nat.lt_succ_self _
    · exact Nat.lt_succ_of_lt (fresh.ordered id host order found old)

end Attaches

/-- What attaching a keyword modifier does to the layers: its target has it on top and its keywords recalculated. -/
theorem attachKeywordModifier_spec {world : World} (fresh : world.Fresh) (controller : PlayerId) {target : GameEntityId}
    (present : (world.entities[target]?).isSome = true) (modifier : KeywordModifier) (duration : EnchantmentDuration) :
    ∃ other, world.attachKeywordModifier controller target modifier duration = .ok (other, world.nextGameEntityId) ∧
      other.Fresh ∧ (∀ id : GameEntityId, (world.entities[id]?).isSome = true →
        (other.entities[id]?).isSome = true ∧
        other.layers id = (world.layers id).map fun layers =>
          if id = target then (layers.attach modifier).recalculated else layers) := by
  rcases spawnAttachedEnchantment_of_present present controller "synthetic:keyword_modifier" "Keyword modifier" duration
    modifier.silenceRemovable with ⟨⟨middle, id⟩, spawned⟩
  rcases spawnAttachedEnchantment_inv spawned with ⟨rfl, _, attaches⟩
  have attached : Attaches world (middle.modify world.nextGameEntityId fun components =>
      { components with keywordModifier := some modifier }) target (some modifier) := attaches.modify fun _ => rfl
  refine ⟨_, by rw [attachKeywordModifier, attachModifier, spawned]; rfl,
    (attached.fresh fresh).recalculateKeywords target, ?_⟩
  intro id known
  constructor
  · rw [recalculateKeywords_isSome]
    exact attached.present known
  · rw [recalculateKeywords_layers, attached.layers fresh known]
    by_cases same : id = target
    · rw [if_pos same, Option.map_map]
      simp only [if_pos same]
      rfl
    · rw [if_neg same]
      simp only [if_neg same]

end World

end HearthstoneSimulator

import BazelRepo.HearthstoneSimulator.ActionValidation

namespace HearthstoneSimulator

open Library

/-- What an entity holds of its keywords: the printed ones, the modifiers attached to it in order of play, and the
result of the last calculation. -/
structure Layers where
  silenced : Bool
  printed : Finset Keyword
  modifiers : List KeywordModifier
  keywords : Option (Finset Keyword)

def KeywordModifier.counts (modifier : KeywordModifier) (silenced : Bool) : Bool :=
  !(silenced && modifier.silenceRemovable)

namespace Layers

def deciding (layers : Layers) (keyword : Keyword) : Option KeywordModifier :=
  (layers.modifiers.filter fun modifier => modifier.keyword = keyword && modifier.counts layers.silenced).getLast?

/-- The layers give the keyword: the last modifier of it grants it, or it is printed and nothing removes it. -/
def Stands (layers : Layers) (keyword : Keyword) : Prop :=
  match layers.deciding keyword with
  | some modifier => modifier.granted = true
  | none => layers.silenced = false ∧ keyword ∈ layers.printed

def resolved (layers : Layers) : Finset Keyword :=
  layers.modifiers.foldl (World.applyKeyword layers.silenced) (if layers.silenced then ∅ else layers.printed)

def recalculated (layers : Layers) : Layers := { layers with keywords := some layers.resolved }

def attach (layers : Layers) (modifier : KeywordModifier) : Layers :=
  { layers with modifiers := layers.modifiers ++ [modifier] }

theorem deciding_attach (layers : Layers) (modifier : KeywordModifier) (keyword : Keyword) :
    (layers.attach modifier).deciding keyword =
      if modifier.keyword = keyword ∧ modifier.counts layers.silenced then some modifier
      else layers.deciding keyword := by
  unfold deciding attach
  dsimp only
  rw [List.filter_append]
  by_cases applies : modifier.keyword = keyword ∧ modifier.counts layers.silenced = true
  · rw [if_pos applies, List.filter_cons_of_pos (by simpa using applies), List.filter_nil, List.getLast?_concat]
  · rw [if_neg applies, List.filter_cons_of_neg (by simpa using applies), List.filter_nil, List.append_nil]

theorem mem_applyKeyword {silenced : Bool} {keywords : Finset Keyword} {modifier : KeywordModifier}
    {keyword : Keyword} :
    keyword ∈ World.applyKeyword silenced keywords modifier ↔
      if modifier.keyword = keyword ∧ modifier.counts silenced then modifier.granted = true
      else keyword ∈ keywords := by
  unfold World.applyKeyword KeywordModifier.counts
  cases suspended : silenced && modifier.silenceRemovable with
  | true =>
    have both : silenced = true ∧ modifier.silenceRemovable = true := by simpa using suspended
    simp [both]
  | false =>
    have apart : ¬ (silenced = true ∧ modifier.silenceRemovable = true) := by
      rintro ⟨rfl, removable⟩
      rw [removable] at suspended
      cases suspended
    rw [if_neg apart]
    cases modifier.granted with
    | true | false =>
      by_cases same : modifier.keyword = keyword
      · simp [same]
      · simp [same, Ne.symm same]

theorem mem_resolved {layers : Layers} {keyword : Keyword} :
    keyword ∈ layers.resolved ↔ layers.Stands keyword := by
  rcases layers with ⟨silenced, printed, modifiers, keywords⟩
  induction modifiers using List.reverseRecOn with
  | nil =>
    show keyword ∈ (if silenced = true then ∅ else printed) ↔ silenced = false ∧ keyword ∈ printed
    cases silenced <;> simp
  | append_singleton rest last ih =>
    have split := deciding_attach ⟨silenced, printed, rest, keywords⟩ last keyword
    have given : keyword ∈ (attach ⟨silenced, printed, rest, keywords⟩ last).resolved ↔
        keyword ∈ World.applyKeyword silenced (resolved ⟨silenced, printed, rest, keywords⟩) last := by
      unfold resolved attach
      rw [List.foldl_append]
      rfl
    show keyword ∈ (attach ⟨silenced, printed, rest, keywords⟩ last).resolved ↔
      (attach ⟨silenced, printed, rest, keywords⟩ last).Stands keyword
    rw [given, mem_applyKeyword]
    unfold Stands at ih ⊢
    rw [split]
    by_cases applies : last.keyword = keyword ∧ last.counts silenced = true
    · rw [if_pos applies, if_pos applies]
    · rw [if_neg applies, if_neg applies]
      exact ih

theorem stands_attach {layers : Layers} {modifier : KeywordModifier} {keyword : Keyword} :
    (layers.attach modifier).Stands keyword ↔
      if modifier.keyword = keyword ∧ modifier.counts layers.silenced then modifier.granted = true
      else layers.Stands keyword := by
  unfold Stands
  rw [deciding_attach]
  by_cases applies : modifier.keyword = keyword ∧ modifier.counts layers.silenced = true
  · rw [if_pos applies, if_pos applies]
  · rw [if_neg applies, if_neg applies]
    rfl

instance (layers : Layers) (keyword : Keyword) : Decidable (layers.Stands keyword) :=
  decidable_of_iff _ mem_resolved

end Layers

/-- The host of an enchantment, and the enchantment's place in the order of play. -/
def Components.hosted (components : Components) : Option (GameEntityId × Nat) :=
  components.attachedTo.map fun host => (host, World.orderOfPlay components)

/-- An attached keyword modifier: its host, its place in the order of play and what it does. -/
def Components.attachment (components : Components) : Option (GameEntityId × Nat × KeywordModifier) :=
  components.hosted.bind fun hosted =>
    components.keywordModifier.map fun modifier => (hosted.1, hosted.2, modifier)

/-- Everything about an entity that its own keywords or those of its host depend on. -/
def Components.keywordData (components : Components) :
    (Bool × Option (Finset Keyword) × Option (Finset Keyword)) ×
      Option (GameEntityId × Nat) × Option KeywordModifier :=
  ((components.silenced, components.baseKeywords, components.keywords), components.hosted,
    components.keywordModifier)

namespace World

def layers (world : World) (id : GameEntityId) : Option Layers :=
  world.entities[id]?.map fun components =>
    { silenced := components.silenced
      printed := components.baseKeywords.getD ∅
      modifiers := world.attachedModifiers id (·.keywordModifier)
      keywords := components.keywords }

def modifierEntries (world : World) (target : GameEntityId) : List (Nat × GameEntityId × KeywordModifier) :=
  (world.attachedEnchantments target).filterMap fun entry =>
    entry.2.keywordModifier.map fun modifier => (orderOfPlay entry.2, entry.1, modifier)

def earlier (a b : Nat × GameEntityId × KeywordModifier) : Bool := a.1 < b.1 ∨ a.1 = b.1 ∧ a.2.1 ≤ b.2.1

theorem attachedModifiers_eq (world : World) (target : GameEntityId) :
    world.attachedModifiers target (·.keywordModifier) =
      ((world.modifierEntries target).mergeSort earlier).map (·.2.2) := rfl

theorem mem_modifierEntries {world : World} {target id : GameEntityId} {order : Nat} {modifier : KeywordModifier} :
    (order, id, modifier) ∈ world.modifierEntries target ↔
      world.get id (·.attachment) = some (target, order, modifier) := by
  unfold modifierEntries attachedEnchantments
  rw [List.mem_filterMap]
  constructor
  · rintro ⟨⟨a, components⟩, member, found⟩
    rcases List.mem_filter.mp member with ⟨inside, attached⟩
    rcases Option.map_eq_some_iff.mp found with ⟨granted, modifies, same⟩
    cases same
    have entity : world.entities[a]? = some components := BTreeMap.mem_toList.mp inside
    have host : components.attachedTo = some target := by simpa using attached
    unfold World.get Components.attachment Components.hosted
    rw [entity, Option.bind_some, host, Option.map_some, Option.bind_some, modifies, Option.map_some]
  · intro found
    unfold World.get at found
    rcases Option.bind_eq_some_iff.mp found with ⟨components, entity, attachment⟩
    unfold Components.attachment Components.hosted at attachment
    rcases Option.bind_eq_some_iff.mp attachment with ⟨hosted, placed, rest⟩
    rcases Option.map_eq_some_iff.mp placed with ⟨host, attached, rfl⟩
    rcases Option.map_eq_some_iff.mp rest with ⟨granted, modifies, same⟩
    cases same
    refine ⟨(id, components), List.mem_filter.mpr ⟨BTreeMap.mem_toList.mpr entity, by simpa using attached⟩, ?_⟩
    dsimp only
    rw [modifies, Option.map_some]

theorem modifierEntries_distinct (world : World) (target : GameEntityId) :
    ((world.modifierEntries target).map (·.2.1)).Nodup := by
  unfold modifierEntries attachedEnchantments
  rw [List.nodup_iff_pairwise_ne, List.pairwise_map, List.pairwise_filterMap]
  have keys := BTreeMap.nodup_keys world.entities
  rw [List.nodup_iff_pairwise_ne, List.pairwise_map] at keys
  refine (keys.filter _).imp ?_
  intro a b apart c found d found'
  rcases Option.map_eq_some_iff.mp found with ⟨_, _, rfl⟩
  rcases Option.map_eq_some_iff.mp found' with ⟨_, _, rfl⟩
  exact apart

section Order

theorem lexicographic_trans {a b c x y z : Nat} (first : a < b ∨ a = b ∧ x ≤ y) (second : b < c ∨ b = c ∧ y ≤ z) :
    a < c ∨ a = c ∧ x ≤ z := by
  omega

theorem lexicographic_total (a b x y : Nat) : (a < b ∨ a = b ∧ x ≤ y) ∨ (b < a ∨ b = a ∧ y ≤ x) := by
  omega

theorem lexicographic_antisymm {a b x y : Nat} (first : a < b ∨ a = b ∧ x ≤ y) (second : b < a ∨ b = a ∧ y ≤ x) :
    x = y := by
  omega

theorem earlier_iff {a b : Nat × GameEntityId × KeywordModifier} :
    earlier a b = true ↔ a.1 < b.1 ∨ a.1 = b.1 ∧ a.2.1 ≤ b.2.1 :=
  decide_eq_true_iff

theorem pairwise_sorted (entries : List (Nat × GameEntityId × KeywordModifier)) :
    (entries.mergeSort earlier).Pairwise fun a b => earlier a b = true := by
  apply List.pairwise_mergeSort
  · intro a b c first second
    exact earlier_iff.mpr (lexicographic_trans (earlier_iff.mp first) (earlier_iff.mp second))
  · intro a b
    rw [Bool.or_eq_true, earlier_iff, earlier_iff]
    exact lexicographic_total _ _ _ _

theorem eq_of_ordered {entries others : List (Nat × GameEntityId × KeywordModifier)}
    (distinct : (entries.map (·.2.1)).Nodup) (perm : entries.Perm others)
    (ordered : entries.Pairwise fun a b => earlier a b = true)
    (ordered' : others.Pairwise fun a b => earlier a b = true) : entries = others := by
  refine List.Perm.eq_of_pairwise ?_ ordered ordered' perm
  intro a b member member' below above
  have level := lexicographic_antisymm (earlier_iff.mp below) (earlier_iff.mp above)
  exact List.inj_on_of_nodup_map distinct member (perm.mem_iff.mpr member') level

end Order

theorem modifiers_congr {world other : World} {target : GameEntityId}
    (same : ∀ id order modifier, other.get id (·.attachment) = some (target, order, modifier) ↔
      world.get id (·.attachment) = some (target, order, modifier)) :
    other.attachedModifiers target (·.keywordModifier) = world.attachedModifiers target (·.keywordModifier) := by
  rw [attachedModifiers_eq, attachedModifiers_eq]
  congr 1
  have perm : (other.modifierEntries target).Perm (world.modifierEntries target) := by
    rw [List.perm_ext_iff_of_nodup (modifierEntries_distinct other target).of_map
      (modifierEntries_distinct world target).of_map]
    rintro ⟨order, id, modifier⟩
    rw [mem_modifierEntries, mem_modifierEntries]
    exact same id order modifier
  have sorted := (List.mergeSort_perm (other.modifierEntries target) earlier).map (·.2.1)
  apply eq_of_ordered (sorted.nodup_iff.mpr (modifierEntries_distinct other target)) _
    (pairwise_sorted _) (pairwise_sorted _)
  exact (List.mergeSort_perm _ _).trans (perm.trans (List.mergeSort_perm _ _).symm)

theorem modifiers_attach {world other : World} {target added : GameEntityId} {order : Nat} {modifier : KeywordModifier}
    (latest : ∀ id earlierOrder m, world.get id (·.attachment) = some (target, earlierOrder, m) →
      earlierOrder < order)
    (fresh : world.get added (·.attachment) = none)
    (attached : ∀ id found, other.get id (·.attachment) = some found ↔
      id = added ∧ found = (target, order, modifier) ∨ world.get id (·.attachment) = some found) :
    other.attachedModifiers target (·.keywordModifier) =
      world.attachedModifiers target (·.keywordModifier) ++ [modifier] := by
  rw [attachedModifiers_eq, attachedModifiers_eq]
  have perm : (other.modifierEntries target).Perm
      ((world.modifierEntries target).mergeSort earlier ++ [(order, added, modifier)]) := by
    have sorted := List.mergeSort_perm (world.modifierEntries target) earlier
    refine List.Perm.trans ?_ ((sorted.symm.append_right _))
    rw [List.perm_ext_iff_of_nodup (modifierEntries_distinct other target).of_map]
    · rintro ⟨o, id, m⟩
      rw [mem_modifierEntries, attached, List.mem_append, mem_modifierEntries, List.mem_singleton]
      constructor
      · rintro (⟨rfl, same⟩ | old)
        · cases same
          exact .inr rfl
        · exact .inl old
      · rintro (old | same)
        · exact .inr old
        · cases same
          exact .inl ⟨rfl, rfl⟩
    · rw [List.nodup_append]
      refine ⟨(modifierEntries_distinct world target).of_map, List.nodup_singleton _, ?_⟩
      rintro ⟨o, id, m⟩ member b single same
      rw [List.mem_singleton.mp single] at same
      cases same
      rw [mem_modifierEntries, fresh] at member
      cases member
  have last : ((world.modifierEntries target).mergeSort earlier ++ [(order, added, modifier)]).Pairwise
      fun a b => earlier a b = true := by
    rw [List.pairwise_append]
    refine ⟨pairwise_sorted _, List.pairwise_singleton _ _, ?_⟩
    rintro ⟨o, id, m⟩ member b single
    rw [List.mem_singleton.mp single, earlier_iff]
    exact .inl (latest id o m (mem_modifierEntries.mp ((List.mergeSort_perm _ _).mem_iff.mp member)))
  have sorted := (List.mergeSort_perm (other.modifierEntries target) earlier)
  have same := eq_of_ordered ((sorted.map (·.2.1)).nodup_iff.mpr (modifierEntries_distinct other target))
    (sorted.trans perm) (pairwise_sorted _) last
  rw [same, List.map_append, List.map_singleton]

end World

end HearthstoneSimulator

import BazelRepo.HearthstoneSimulator.StatRecalculation

namespace HearthstoneSimulator

open Library

namespace World

structure SameAuras (world other : World) : Prop where
  providers : ∀ id, other.get id (·.provides id) = world.get id (·.provides id)
  recipients : ∀ id, other.get id (·.receives id) = world.get id (·.receives id)
  present : ∀ id : GameEntityId, (other.entities[id]?).isSome = (world.entities[id]?).isSome

theorem SameAuras.refl (world : World) : SameAuras world world :=
  ⟨fun _ => rfl, fun _ => rfl, fun _ => rfl⟩

theorem SameAuras.trans {first second third : World} (early : SameAuras first second) (late : SameAuras second third) :
    SameAuras first third := by
  refine ⟨?_, ?_, ?_⟩
  · intro id
    rw [late.providers, early.providers]
  · intro id
    rw [late.recipients, early.recipients]
  · intro id
    rw [late.present, early.present]

section Discovery

variable {q r : QueryOrder} {world other : World}

end Discovery

section Caches

def cached (world : World) (category : AuraCategory) (id : GameEntityId) : List AuraApplication :=
  (world.get id (·.auraCache category)).getD []

theorem setCache_changed {world : World} {category : AuraCategory} {target : GameEntityId}
    {applications : List AuraApplication} {components : Components} (found : world.entities[target]? = some components)
    (changed : (components.auraCache category).getD [] ≠ applications) :
    ∃ updated, (updated = world.modify target (·.withAuraCache category applications) ∨
        updated = (world.modify target (·.withAuraCache category applications)).recalculateStats target) ∧
      ((world.setCache category target applications) = updated ∨ (world.setCache category target applications) =
        { updated with canonicalTrace := updated.canonicalTrace ++ [.auraUpdated target category applications] }) := by
  unfold setCache
  rw [found]
  dsimp only
  rw [if_neg changed]
  refine ⟨if category = .health ∨ category = .attack then
    (world.modify target (·.withAuraCache category applications)).recalculateStats target
    else world.modify target (·.withAuraCache category applications), ?_, ?_⟩
  · split
    · exact .inr rfl
    · exact .inl rfl
  · by_cases traced : ((components.auraCache category).isSome || !applications.isEmpty) = true
    · rw [if_pos traced]
      exact .inr rfl
    · rw [if_neg traced]
      exact .inl rfl

theorem setCache_of_same {world : World} {category : AuraCategory} {target : GameEntityId}
    {applications : List AuraApplication}
    (same : (world.entities[target]?).isSome = true → world.cached category target = applications) :
    world.setCache category target applications = world := by
  unfold setCache
  cases found : world.entities[target]? with
  | none => rfl
  | some components =>
    unfold cached World.get at same
    rw [found] at same
    have there : (components.auraCache category).getD [] = applications := same rfl
    dsimp only
    rw [if_pos there]

def setCaches (world : World) (category : AuraCategory) (applications : GameEntityId → List AuraApplication)
    (targets : List GameEntityId) : World :=
  targets.foldl (fun world target => world.setCache category target (applications target)) world

end Caches

section Refresh

variable [QueryOrder]

end Refresh

section Visits

variable {q r : QueryOrder}

end Visits

def DamageNonnegative (world : World) : Prop :=
  ∀ id damage, world.get id (·.damage) = some damage → 0 ≤ damage.toInt

structure Recalculated (before after : Components) : Prop where
  lowered : ∀ old new oldDamage newDamage, before.currentStats = some old → after.currentStats = some new →
    before.damage = some oldDamage → after.damage = some newDamage → new.maximumHealth < old.maximumHealth →
    new.health newDamage = min (old.health oldDamage) new.maximumHealth.toInt ∧ 0 ≤ newDamage.toInt
  raised : ∀ old new, before.currentStats = some old → after.currentStats = some new →
    old.maximumHealth ≤ new.maximumHealth → after.damage = before.damage
  nonneg : (∀ damage, before.damage = some damage → 0 ≤ damage.toInt) →
    ∀ damage, after.damage = some damage → 0 ≤ damage.toInt

theorem recalculated_restated (modifiers : List StatModifier) (components : Components) :
    Recalculated components (restated modifiers components) := by
  cases based : components.baseStats with
  | none =>
    rw [restated_of_none based]
    refine ⟨?_, fun _ _ _ _ _ => rfl, fun nonneg => nonneg⟩
    intro old new _ _ before after _ _ less
    rw [before] at after
    cases after
    exact (Int32.lt_irrefl less).elim
  | some base =>
    rw [restated_of_base based]
    have valid : 0 ≤ (max (healthTotal base modifiers (components.healthAuraCache.getD [])) 0).toInt := by
      rw [toInt_max]
      exact le_max_right _ _
    generalize max (healthTotal base modifiers (components.healthAuraCache.getD [])) 0 = maximumHealth at valid
    refine ⟨?_, ?_, ?_⟩
    · intro old new oldDamage newDamage before after damaged damages less
      cases after
      dsimp only at damages less
      rw [before, damaged] at damages
      rcases adjustedDamage_of_lowered valid less with ⟨adjusted, same, nonneg, health⟩
      rw [same] at damages
      cases damages
      exact ⟨health, nonneg⟩
    · intro old new before after more
      cases after
      dsimp only at more ⊢
      rw [before]
      exact adjustedDamage_of_not_lowered more
    · intro nonneg damage damages
      exact adjustedDamage_nonneg valid nonneg damages

theorem DamageNonnegative.recalculateStats {world : World} (nonneg : world.DamageNonnegative) (target : GameEntityId) :
    (world.recalculateStats target).DamageNonnegative := by
  intro id damage damaged
  unfold World.get at damaged
  rw [recalculateStats_eq, entities_modify] at damaged
  cases found : world.entities[id]? with
  | none =>
    rw [found] at damaged
    cases damaged
  | some components =>
    rw [found] at damaged
    have there : Components.damage (if id = target then
      restated (world.attachedModifiers target (·.statModifier)) components else components) = some damage := damaged
    have before : ∀ damage, components.damage = some damage → 0 ≤ damage.toInt := by
      intro damage damaged
      apply nonneg id damage
      unfold World.get
      rw [found]
      exact damaged
    split at there
    · exact (recalculated_restated _ components).nonneg before damage there
    · exact before damage there

theorem DamageNonnegative.congr {world other : World} (nonneg : world.DamageNonnegative)
    (same : ∀ id, other.get id (·.damage) = world.get id (·.damage)) : other.DamageNonnegative := by
  intro id damage damaged
  rw [same] at damaged
  exact nonneg id damage damaged

theorem DamageNonnegative.setCache {world : World} (nonneg : world.DamageNonnegative) (category : AuraCategory)
    (target : GameEntityId) (applications : List AuraApplication) :
    (world.setCache category target applications).DamageNonnegative := by
  have stored : (world.modify target (·.withAuraCache category applications)).DamageNonnegative := by
    apply nonneg.congr
    intro id
    unfold World.get
    rw [entities_modify, Option.bind_map]
    congr 1
    funext components
    show Components.damage (if id = target then components.withAuraCache category applications else components) = _
    cases category <;> split <;> rfl
  cases found : world.entities[target]? with
  | none =>
    rw [setCache_of_same]
    · exact nonneg
    · rw [found]
      exact nofun
  | some components =>
    by_cases same : (components.auraCache category).getD [] = applications
    · rw [setCache_of_same]
      · exact nonneg
      · intro _
        unfold cached World.get
        rw [found]
        exact same
    · rcases setCache_changed found same with ⟨updated, updates, sets⟩
      have kept : updated.DamageNonnegative := by
        rcases updates with rfl | rfl
        · exact stored
        · exact stored.recalculateStats target
      rcases sets with same | same
      · rw [same]
        exact kept
      · rw [same]
        exact kept

theorem DamageNonnegative.setCaches {category : AuraCategory} {applications : GameEntityId → List AuraApplication}
    (targets : List GameEntityId) {world : World} (nonneg : world.DamageNonnegative) :
    (world.setCaches category applications targets).DamageNonnegative := by
  induction targets generalizing world with
  | nil => exact nonneg
  | cons target rest ih => exact ih (nonneg.setCache category target _)

theorem DamageNonnegative.refreshAllAuras [QueryOrder] {world : World} (nonneg : world.DamageNonnegative) :
    world.refreshAllAuras.DamageNonnegative :=
  ((nonneg.setCaches _).setCaches _).setCaches _

end World

end HearthstoneSimulator

import BazelRepo.HearthstoneSimulator.Aura

namespace HearthstoneSimulator

open Library

def CurrentStats.health (stats : CurrentStats) (damage : Int32) : ℤ :=
  stats.maximumHealth.toInt - damage.toInt

namespace World

section Arithmetic

theorem toInt_bounds (a : Int32) : -2147483648 ≤ a.toInt ∧ a.toInt ≤ 2147483647 := by
  have low := Int32.le_toInt a
  have high := Int32.toInt_lt a
  omega

theorem toInt_ofIntClamp (i : ℤ) : (Int32.ofIntClamp i).toInt = max (-2147483648) (min 2147483647 i) := by
  have low : Int32.minValue.toInt = -2147483648 := by decide
  have high : Int32.maxValue.toInt = 2147483647 := by decide
  by_cases below : Int32.minValue.toInt ≤ i
  · by_cases above : i ≤ Int32.maxValue.toInt
    · rw [Int32.toInt_ofIntClamp below above]
      omega
    · unfold Int32.ofIntClamp
      rw [dif_pos below, dif_neg above]
      omega
  · unfold Int32.ofIntClamp
    rw [dif_neg below]
    omega

theorem toInt_saturatingSub (a b : Int32) :
    (saturatingSub a b).toInt = max (-2147483648) (min 2147483647 (a.toInt - b.toInt)) :=
  toInt_ofIntClamp _

theorem toInt_max (a b : Int32) : (max a b).toInt = max a.toInt b.toInt := by
  show (if a ≤ b then b else a).toInt = _
  by_cases below : a ≤ b
  · rw [if_pos below]
    have ints := Int32.le_iff_toInt_le.mp below
    omega
  · rw [if_neg below]
    have ints := Int32.not_le.mp below
    rw [Int32.lt_iff_toInt_lt] at ints
    omega

theorem adjustedDamage_of_lowered {maximumHealth : Int32} {stats : CurrentStats} {damage : Int32}
    (valid : 0 ≤ maximumHealth.toInt) (lowered : maximumHealth < stats.maximumHealth) :
    ∃ adjusted, adjustedDamage maximumHealth (some stats) (some damage) = some adjusted ∧ 0 ≤ adjusted.toInt ∧
      maximumHealth.toInt - adjusted.toInt = min (stats.health damage) maximumHealth.toInt := by
  unfold adjustedDamage
  dsimp only
  rw [if_pos lowered]
  refine ⟨_, rfl, ?_⟩
  have less := Int32.lt_iff_toInt_lt.mp lowered
  have maximumBounds := toInt_bounds maximumHealth
  have previousBounds := toInt_bounds stats.maximumHealth
  have damageBounds := toInt_bounds damage
  have zero : (0 : Int32).toInt = 0 := by decide
  unfold CurrentStats.health
  rw [toInt_max, toInt_saturatingSub, toInt_saturatingSub, zero]
  omega

theorem adjustedDamage_of_not_lowered {maximumHealth : Int32} {stats : CurrentStats} {damage : Option Int32}
    (raised : stats.maximumHealth ≤ maximumHealth) : adjustedDamage maximumHealth (some stats) damage = damage := by
  unfold adjustedDamage
  cases damage with
  | none => rfl
  | some damage =>
    dsimp only
    rw [if_neg]
    intro lowered
    exact Int32.not_lt.mpr raised lowered

theorem adjustedDamage_nonneg {maximumHealth adjusted : Int32} {stats : Option CurrentStats} {damage : Option Int32}
    (valid : 0 ≤ maximumHealth.toInt) (nonneg : ∀ before, damage = some before → 0 ≤ before.toInt)
    (adjusts : adjustedDamage maximumHealth stats damage = some adjusted) : 0 ≤ adjusted.toInt := by
  cases stats with
  | none => exact nonneg adjusted adjusts
  | some stats =>
    by_cases lowered : maximumHealth < stats.maximumHealth
    · cases damage with
      | none => cases adjusts
      | some before =>
        rcases adjustedDamage_of_lowered valid lowered with ⟨found, same, positive, _⟩
        rw [same] at adjusts
        cases adjusts
        exact positive
    · rw [adjustedDamage_of_not_lowered (Int32.not_lt.mp lowered)] at adjusts
      exact nonneg adjusted adjusts

end Arithmetic

section Components

def attackTotal (base : BaseStats) (modifiers : List StatModifier) (auras : List AuraApplication) : Int32 :=
  auras.foldl (fun attack aura => attack + attackBonus aura)
    (modifiers.foldl (fun attack modifier => attack + modifier.attack) base.attack)

def healthTotal (base : BaseStats) (modifiers : List StatModifier) (auras : List AuraApplication) : Int32 :=
  auras.foldl (fun health aura => health + healthBonus aura)
    (modifiers.foldl (fun health modifier => health + modifier.health) base.health)

def restated (modifiers : List StatModifier) (components : Components) : Components :=
  match components.baseStats with
  | none => components
  | some base =>
    let maximumHealth := max (healthTotal base modifiers (components.healthAuraCache.getD [])) 0
    { components with
      currentStats := some ⟨attackTotal base modifiers (components.attackAuraCache.getD []), maximumHealth⟩
      damage := adjustedDamage maximumHealth components.currentStats components.damage }

theorem recalculateStats_eq (world : World) (target : GameEntityId) :
    world.recalculateStats target = world.modify target (restated (world.attachedModifiers target (·.statModifier))) :=
  rfl

theorem restated_of_base {modifiers : List StatModifier} {components : Components} {base : BaseStats}
    (based : components.baseStats = some base) :
    restated modifiers components =
      { components with
        currentStats := some ⟨attackTotal base modifiers (components.attackAuraCache.getD []),
          max (healthTotal base modifiers (components.healthAuraCache.getD [])) 0⟩
        damage := adjustedDamage (max (healthTotal base modifiers (components.healthAuraCache.getD [])) 0)
          components.currentStats components.damage } := by
  unfold restated
  rw [based]

theorem restated_of_none {modifiers : List StatModifier} {components : Components}
    (unbased : components.baseStats = none) : restated modifiers components = components := by
  unfold restated
  rw [unbased]

end Components

section Modifiers

end Modifiers

end World

end HearthstoneSimulator

import BazelRepo.Library.Checked
import Mathlib.Algebra.BigOperators.Group.List.Basic
import Mathlib.Algebra.Order.BigOperators.Group.List
import Mathlib.Algebra.Order.Group.Int
import Mathlib.Data.List.Nodup
import Mathlib.Tactic.Linarith
import Mathlib.Tactic.Ring

namespace Library

variable {α : Type*}

def floorShare (pool whole : Int) (weight : α → Int) (x : α) : Int :=
  pool * weight x / whole

theorem sum_floorShare_add_remainders (pool whole : Int) (weight : α → Int) (xs : List α) :
    whole * (xs.map (floorShare pool whole weight)).sum + (xs.map fun x => pool * weight x % whole).sum =
      pool * (xs.map weight).sum := by
  induction xs with
  | nil => simp
  | cons x rest ih =>
    simp only [List.map_cons, List.sum_cons, mul_add]
    have division := Int.mul_ediv_add_emod (pool * weight x) whole
    simp only [floorShare] at ih ⊢
    linarith

theorem sum_floorShare_le {pool : Int} {weight : α → Int} {xs : List α} (positive : 0 < (xs.map weight).sum) :
    (xs.map (floorShare pool (xs.map weight).sum weight)).sum ≤ pool := by
  have split := sum_floorShare_add_remainders pool (xs.map weight).sum weight xs
  have remainders : 0 ≤ (xs.map fun x => pool * weight x % (xs.map weight).sum).sum := by
    refine List.sum_nonneg ?_
    intro r member
    obtain ⟨x, _, rfl⟩ := List.mem_map.mp member
    exact Int.emod_nonneg _ positive.ne'
  have scaled : (xs.map weight).sum * (xs.map (floorShare pool (xs.map weight).sum weight)).sum ≤
      (xs.map weight).sum * pool := by linarith
  exact le_of_mul_le_mul_left scaled positive

/-- Fewer units are left over than there are shares, so a unit each is enough. -/
theorem leftover_le_length {pool : Int} {weight : α → Int} {xs : List α} (positive : 0 < (xs.map weight).sum) :
    pool - (xs.map (floorShare pool (xs.map weight).sum weight)).sum ≤ xs.length := by
  have split := sum_floorShare_add_remainders pool (xs.map weight).sum weight xs
  have remainders : (xs.map fun x => pool * weight x % (xs.map weight).sum).sum ≤
      xs.length * (xs.map weight).sum := by
    have bounded := List.sum_le_card_nsmul (xs.map fun x => pool * weight x % (xs.map weight).sum)
      (xs.map weight).sum (by
        intro r member
        obtain ⟨x, _, rfl⟩ := List.mem_map.mp member
        exact (Int.emod_lt_of_pos _ positive).le)
    simpa using bounded
  have scaled : (xs.map weight).sum * (pool - (xs.map (floorShare pool (xs.map weight).sum weight)).sum) ≤
      (xs.map weight).sum * xs.length := by linarith [mul_comm (xs.map weight).sum (xs.length : Int)]
  exact le_of_mul_le_mul_left scaled positive

theorem leftover_lt_length {pool : Int} {weight : α → Int} {xs : List α} (positive : 0 < (xs.map weight).sum)
    (some_share : xs ≠ []) : pool - (xs.map (floorShare pool (xs.map weight).sum weight)).sum < xs.length := by
  have split := sum_floorShare_add_remainders pool (xs.map weight).sum weight xs
  have remainders : (xs.map fun x => pool * weight x % (xs.map weight).sum).sum <
      (xs.map fun _ => (xs.map weight).sum).sum := by
    apply List.sum_lt_sum_of_ne_nil some_share
    intro x _
    exact Int.emod_lt_of_pos _ positive
  have scaled : (xs.map weight).sum * (pool - (xs.map (floorShare pool (xs.map weight).sum weight)).sum) <
      (xs.map weight).sum * xs.length := by
    rw [List.map_const', List.sum_replicate, nsmul_eq_mul] at remainders
    linarith [mul_comm (xs.map weight).sum (xs.length : Int)]
  exact lt_of_mul_lt_mul_left scaled positive.le

theorem floorShare_nonneg {pool whole : Int} {weight : α → Int} {x : α} (pool_nonneg : 0 ≤ pool)
    (weight_nonneg : 0 ≤ weight x) (positive : 0 < whole) : 0 ≤ floorShare pool whole weight x :=
  Int.ediv_nonneg (mul_nonneg pool_nonneg weight_nonneg) positive.le

theorem weight_le_floorShare {pool whole : Int} (weight : α → Int) {x : α} (covered : whole ≤ pool)
    (weight_nonneg : 0 ≤ weight x) (positive : 0 < whole) : weight x ≤ floorShare pool whole weight x := by
  unfold floorShare
  rw [Int.le_ediv_iff_mul_le positive, mul_comm]
  exact mul_le_mul_of_nonneg_right covered weight_nonneg

theorem floorShare_le_sum {pool whole : Int} {weight : α → Int} {xs : List α} {x : α}
    (nonneg : ∀ x ∈ xs, 0 ≤ floorShare pool whole weight x) (member : x ∈ xs) :
    floorShare pool whole weight x ≤ (xs.map (floorShare pool whole weight)).sum := by
  refine List.single_le_sum ?_ _ (List.mem_map_of_mem member)
  intro share shared
  obtain ⟨y, present, rfl⟩ := List.mem_map.mp shared
  exact nonneg y present

theorem foldl_add_toInt {amounts : List Int64} : ∀ {start : Int64}, (∀ a ∈ amounts, 0 ≤ a.toInt) → 0 ≤ start.toInt →
    start.toInt + (amounts.map Int64.toInt).sum < 2^63 →
      (amounts.foldl (· + ·) start).toInt = start.toInt + (amounts.map Int64.toInt).sum := by
  induction amounts with
  | nil =>
    intro start _ _ _
    simp
  | cons a rest ih =>
    intro start gains nonneg bound
    have gain := gains a List.mem_cons_self
    have others : ∀ b ∈ rest, 0 ≤ b.toInt := fun b member => gains b (List.mem_cons_of_mem _ member)
    have remaining : 0 ≤ (rest.map Int64.toInt).sum := by
      apply List.sum_nonneg
      intro gained member
      rcases List.mem_map.mp member with ⟨b, present, rfl⟩
      exact others b present
    rw [List.map_cons, List.sum_cons] at bound ⊢
    have added : (start + a).toInt = start.toInt + a.toInt := toInt_add_of_bounds (by omega) (by omega)
    rw [List.foldl_cons, ih others (by omega) (by omega), added]
    ring

theorem sum_filter_le {xs : List α} {f : α → Int} (chosen : α → Bool) (nonneg : ∀ x ∈ xs, 0 ≤ f x) :
    ((xs.filter chosen).map f).sum ≤ (xs.map f).sum := by
  apply List.Sublist.sum_le_sum (List.filter_sublist.map f)
  intro amount member
  rcases List.mem_map.mp member with ⟨x, present, rfl⟩
  exact nonneg x present

def nearestShare (scale whole weight : Int) : Int :=
  (weight * scale + whole / 2) / whole

theorem nearestShare_error (scale weight : Int) {whole : Int} (positive : 0 < whole) :
    2 * (whole * nearestShare scale whole weight) ≤ 2 * (weight * scale) + whole ∧
      2 * (weight * scale) ≤ 2 * (whole * nearestShare scale whole weight) + whole := by
  have division := Int.mul_ediv_add_emod (weight * scale + whole / 2) whole
  have nonneg := Int.emod_nonneg (weight * scale + whole / 2) positive.ne'
  have below := Int.emod_lt_of_pos (weight * scale + whole / 2) positive
  unfold nearestShare
  constructor <;> omega

theorem nearestShare_nonneg {scale whole weight : Int} (positive : 0 < whole) (nonneg : 0 ≤ weight) (scaled : 0 ≤ scale) :
    0 ≤ nearestShare scale whole weight := by
  apply Int.ediv_nonneg _ positive.le
  have product := mul_nonneg nonneg scaled
  omega

theorem nearestShare_le {scale whole weight : Int} (positive : 0 < whole) (part : weight ≤ whole) (scaled : 0 ≤ scale) :
    nearestShare scale whole weight ≤ scale := by
  have product : weight * scale ≤ whole * scale := mul_le_mul_of_nonneg_right part scaled
  have half : weight * scale + whole / 2 < (scale + 1) * whole := by
    rw [add_mul, one_mul, mul_comm scale whole]
    omega
  have quotient := Int.ediv_lt_of_lt_mul positive half
  unfold nearestShare
  omega

/-- Every rounded share is off by half a unit at most, so their sum is by half a unit for each. -/
theorem sum_nearestShare (scale : Int) (weights : List Int) {whole : Int} (positive : 0 < whole) :
    2 * (whole * (weights.map (nearestShare scale whole)).sum) ≤ 2 * (weights.sum * scale) + weights.length * whole ∧
      2 * (weights.sum * scale) ≤
        2 * (whole * (weights.map (nearestShare scale whole)).sum) + weights.length * whole := by
  induction weights with
  | nil => simp
  | cons weight rest ih =>
    rcases ih with ⟨upper, lower⟩
    rcases nearestShare_error scale weight positive with ⟨above, below⟩
    simp only [List.map_cons, List.sum_cons, List.length_cons, Nat.cast_add, Nat.cast_one, mul_add, add_mul, one_mul]
    constructor <;> linarith

theorem sum_nearestShare_near (scale : Int) {whole : Int} {weights : List Int} (positive : 0 < whole)
    (exhausted : weights.sum = whole) :
    2 * |(weights.map (nearestShare scale whole)).sum - scale| ≤ weights.length := by
  rcases sum_nearestShare scale weights positive with ⟨upper, lower⟩
  rw [exhausted] at upper lower
  have above : 2 * ((weights.map (nearestShare scale whole)).sum - scale) ≤ weights.length := by
    apply le_of_mul_le_mul_left _ positive
    linarith
  have below : 2 * (scale - (weights.map (nearestShare scale whole)).sum) ≤ weights.length := by
    apply le_of_mul_le_mul_left _ positive
    linarith
  rcases abs_cases ((weights.map (nearestShare scale whole)).sum - scale) with ⟨same, _⟩ | ⟨same, _⟩ <;> omega

theorem sum_classes {κ : Type*} [DecidableEq κ] {keys : List κ} (distinct : keys.Nodup) (key : α → κ) (f : α → Int)
    {xs : List α} (listed : ∀ x ∈ xs, key x ∈ keys) :
    (keys.map fun k => ((xs.filter (fun x => key x = k)).map f).sum).sum = (xs.map f).sum := by
  induction xs with
  | nil => simp
  | cons x rest ih =>
    have later := ih fun y member => listed y (List.mem_cons_of_mem _ member)
    have split : ∀ k, (((x :: rest).filter (fun x => key x = k)).map f).sum =
        (if k = key x then f x else 0) + ((rest.filter (fun x => key x = k)).map f).sum := by
      intro k
      by_cases same : key x = k
      · simp [same]
      · simp [same, Ne.symm same]
    rw [List.map_congr_left fun k _ => split k, List.sum_map_add, later, List.map_cons, List.sum_cons]
    simp [List.sum_map_ite_eq, List.count_eq_one_of_mem distinct (listed x List.mem_cons_self)]

theorem foldlM_checked_sum {σ : Type*} {step : σ → α → Option σ} {value : σ → Int} {gain : α → Int} {limit : Int}
    (adds : ∀ s a, 0 ≤ value s → 0 ≤ gain a → value s + gain a ≤ limit →
      ∃ next, step s a = some next ∧ value next = value s + gain a) {xs : List α} :
    ∀ {start : σ}, 0 ≤ value start → (∀ a ∈ xs, 0 ≤ gain a) → value start + (xs.map gain).sum ≤ limit →
      ∃ total, xs.foldlM step start = some total ∧ value total = value start + (xs.map gain).sum := by
  induction xs with
  | nil =>
    intro start _ _ _
    exact ⟨start, rfl, by simp⟩
  | cons a rest ih =>
    intro start held nonneg bound
    have gained := nonneg a List.mem_cons_self
    have others : ∀ b ∈ rest, 0 ≤ gain b := fun b member => nonneg b (List.mem_cons_of_mem _ member)
    have remaining : 0 ≤ (rest.map gain).sum := by
      apply List.sum_nonneg
      intro g member
      rcases List.mem_map.mp member with ⟨b, present, rfl⟩
      exact others b present
    rw [List.map_cons, List.sum_cons] at bound ⊢
    rcases adds start a held gained (by omega) with ⟨next, stepped, same⟩
    rcases ih (by omega : 0 ≤ value next) others (by omega) with ⟨total, run, final⟩
    refine ⟨total, ?_, by omega⟩
    rw [List.foldlM_cons, stepped]
    exact run

end Library

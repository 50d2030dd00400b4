import Mathlib.Data.Int.ModEq
import Mathlib.Tactic.Linarith
import Mathlib.Tactic.Ring

namespace Library

/-- How many boundaries of a periodic schedule have come by now, the first of them at `next`. -/
def boundaries (interval next now : Int) : Int :=
  if now < next then 0 else (now - next) / interval + 1

variable {interval next s t : Int}

theorem boundaries_early (early : t < next) : boundaries interval next t = 0 := if_pos early

theorem boundaries_due (due : next ≤ t) : boundaries interval next t = (t - next) / interval + 1 :=
  if_neg (not_lt.mpr due)

theorem boundaries_pos (positive : 0 < interval) (due : next ≤ t) : 0 < boundaries interval next t := by
  rw [boundaries_due due]
  have quotient : 0 ≤ (t - next) / interval := Int.ediv_nonneg (by omega) (by omega)
  omega

theorem boundaries_nonneg (positive : 0 < interval) : 0 ≤ boundaries interval next t := by
  by_cases early : t < next
  · rw [boundaries_early early]
  · exact Int.le_of_lt (boundaries_pos positive (by omega))

theorem boundaries_bounds (positive : 0 < interval) (due : next ≤ t) :
    next + interval * boundaries interval next t - interval ≤ t ∧
      t < next + interval * boundaries interval next t := by
  rw [boundaries_due due]
  have lower := Int.mul_ediv_self_le (x := t - next) (k := interval) (by omega)
  have upper := Int.lt_mul_ediv_self_add (x := t - next) positive
  constructor <;> linarith

theorem boundaries_add (positive : 0 < interval) (ordered : s ≤ t) :
    boundaries interval next t =
      boundaries interval next s + boundaries interval (next + interval * boundaries interval next s) t := by
  by_cases early : s < next
  · rw [boundaries_early early, Int.mul_zero, Int.add_zero, Int.zero_add]
  · have due : next ≤ s := by omega
    have after := boundaries_bounds positive due
    have later : boundaries interval next t = (t - next) / interval + 1 := boundaries_due (by omega)
    by_cases reached : t < next + interval * boundaries interval next s
    · rw [boundaries_early reached, later, Int.add_zero]
      have count : boundaries interval next s = (s - next) / interval + 1 := boundaries_due due
      rw [count] at after reached ⊢
      congr 1
      apply Int.le_antisymm
      · apply Int.lt_add_one_iff.mp
        apply Int.ediv_lt_of_lt_mul positive
        linarith
      · exact Int.ediv_le_ediv positive (by omega)
    · rw [boundaries_due (not_lt.mp reached), later]
      have rest : t - (next + interval * boundaries interval next s) =
          t - next + interval * -boundaries interval next s := by ring
      rw [rest, Int.add_mul_ediv_left _ _ (by omega)]
      ring

end Library

import Std.Data.ExtTreeMap
import Mathlib.Algebra.BigOperators.Group.List.Basic
import Mathlib.Algebra.Order.BigOperators.Group.List
import Mathlib.Data.List.Perm.Basic
import Mathlib.Data.List.Perm.Subperm
import Mathlib.Data.List.Nodup
import Mathlib.Tactic.Abel
import Mathlib.Algebra.Order.Group.Int

namespace Library

/-- An ordered map compared by its entries; the standard library's balanced tree up to shape. -/
abbrev BTreeMap (κ ν : Type*) [Ord κ] := Std.ExtTreeMap κ ν compare

theorem lawfulEqCmp_compareOn {α β : Type*} [Ord β] [Std.LawfulEqOrd β] {f : α → β}
    (injective : ∀ a b, f a = f b → a = b) : Std.LawfulEqCmp (compareOn f) where
  compare_self := by
    intro a
    exact Std.LawfulEqOrd.compare_eq_iff_eq.mpr rfl
  eq_of_compare := by
    intro a b equal
    exact injective a b (Std.LawfulEqOrd.eq_of_compare equal)

variable {κ ν M : Type*} [Ord κ] [Std.TransOrd κ] [Std.LawfulEqOrd κ]

namespace BTreeMap

theorem nodup_keys (m : BTreeMap κ ν) : (m.toList.map Prod.fst).Nodup := by
  have distinct := Std.ExtTreeMap.distinct_keys_toList (t := m)
  rw [List.nodup_iff_pairwise_ne, List.pairwise_map]
  refine distinct.imp ?_
  intro a b different same
  exact different (by rw [same]; exact Std.ReflCmp.compare_self)

theorem nodup_toList (m : BTreeMap κ ν) : m.toList.Nodup :=
  (nodup_keys m).of_map _

theorem mem_toList {m : BTreeMap κ ν} {k : κ} {v : ν} : (k, v) ∈ m.toList ↔ m[k]? = some v :=
  Std.ExtTreeMap.mem_toList_iff_getElem?_eq_some

theorem getElem?_insert_eq [DecidableEq κ] (m : BTreeMap κ ν) (k a : κ) (v : ν) :
    (m.insert k v)[a]? = if a = k then some v else m[a]? := by
  rw [Std.ExtTreeMap.getElem?_insert]
  by_cases same : a = k
  · subst same
    simp
  · have different : ¬ compare k a = .eq := by
      intro equal
      exact same (Std.LawfulEqOrd.compare_eq_iff_eq.mp equal).symm
    simp [different, same]

theorem getElem?_erase_eq [DecidableEq κ] (m : BTreeMap κ ν) (k a : κ) :
    (m.erase k)[a]? = if a = k then none else m[a]? := by
  rw [Std.ExtTreeMap.getElem?_erase]
  by_cases same : a = k
  · subst same
    simp
  · rw [if_neg same, if_neg]
    intro compared
    exact same (Std.LawfulEqOrd.compare_eq_iff_eq.mp compared).symm

theorem toList_insert_perm [DecidableEq κ] (m : BTreeMap κ ν) (k : κ) (v : ν) :
    (m.insert k v).toList.Perm ((k, v) :: m.toList.filter (fun entry => entry.1 ≠ k)) := by
  rw [List.perm_ext_iff_of_nodup (nodup_toList _)]
  · rintro ⟨a, w⟩
    rw [mem_toList, getElem?_insert_eq]
    by_cases same : a = k
    · subst same
      simp [eq_comm]
    · simp [same]
  · rw [List.nodup_cons]
    exact ⟨by simp, (nodup_toList m).filter _⟩

def total [AddCommMonoid M] (f : κ → ν → M) (m : BTreeMap κ ν) : M :=
  (m.toList.map (fun entry => f entry.1 entry.2)).sum

omit [Std.LawfulEqOrd κ] in
@[simp] theorem total_empty [AddCommMonoid M] (f : κ → ν → M) : total f (∅ : BTreeMap κ ν) = 0 := by
  have entries : (∅ : BTreeMap κ ν).toList = [] := by simp
  rw [total, entries]
  rfl

omit [Ord κ] [Std.TransOrd κ] [Std.LawfulEqOrd κ] in
theorem filter_key_split [DecidableEq κ] (k : κ) :
    ∀ {entries : List (κ × ν)}, (entries.map Prod.fst).Nodup → ∀ {v : ν}, (k, v) ∈ entries →
      entries.Perm ((k, v) :: entries.filter (fun entry => entry.1 ≠ k)) := by
  intro entries nodup v member
  have nodupEntries : entries.Nodup := nodup.of_map _
  rw [List.perm_ext_iff_of_nodup nodupEntries]
  · rintro ⟨a, w⟩
    simp only [List.mem_cons, List.mem_filter, Prod.mk.injEq, ne_eq, decide_not, Bool.not_eq_eq_eq_not,
      Bool.not_true, decide_eq_false_iff_not]
    constructor
    · intro present
      by_cases same : a = k
      · subst same
        exact .inl ⟨rfl, congrArg Prod.snd (List.inj_on_of_nodup_map nodup present member rfl)⟩
      · exact .inr ⟨present, same⟩
    · rintro (⟨rfl, rfl⟩ | ⟨present, _⟩)
      · exact member
      · exact present
  · rw [List.nodup_cons]
    exact ⟨by simp, nodupEntries.filter _⟩

theorem total_insert [DecidableEq κ] [AddCommMonoid M] (f : κ → ν → M) (m : BTreeMap κ ν) (k : κ) (v : ν) :
    total f (m.insert k v) + m[k]?.elim 0 (f k) = total f m + f k v := by
  unfold total
  rw [((toList_insert_perm m k v).map _).sum_eq]
  cases found : m[k]? with
  | none =>
    have untouched : m.toList.filter (fun entry => entry.1 ≠ k) = m.toList := by
      rw [List.filter_eq_self]
      rintro ⟨a, w⟩ member
      rw [mem_toList] at member
      simp only [ne_eq, decide_not, Bool.not_eq_eq_eq_not, Bool.not_true, decide_eq_false_iff_not]
      rintro rfl
      rw [found] at member
      cases member
    rw [untouched]
    simp [add_comm]
  | some w =>
    have split := filter_key_split k (nodup_keys m) (mem_toList.mpr found)
    rw [(split.map (fun entry => f entry.1 entry.2)).sum_eq]
    simp only [List.map_cons, List.sum_cons, Option.elim_some]
    abel

theorem total_insert_new [DecidableEq κ] [AddCommMonoid M] {f : κ → ν → M} {m : BTreeMap κ ν} {k : κ} {v : ν}
    (fresh : m[k]? = none) : total f (m.insert k v) = total f m + f k v := by
  have balance := total_insert f m k v
  rw [fresh] at balance
  simpa using balance

theorem le_total {f : κ → ν → Int} {m : BTreeMap κ ν} {k : κ} {v : ν}
    (nonneg : ∀ k v, m[k]? = some v → 0 ≤ f k v) (found : m[k]? = some v) : f k v ≤ total f m := by
  refine List.single_le_sum ?_ _ (List.mem_map.mpr ⟨(k, v), mem_toList.mpr found, rfl⟩)
  intro x member
  obtain ⟨⟨a, w⟩, present, rfl⟩ := List.mem_map.mp member
  exact nonneg a w (mem_toList.mp present)

theorem mem_keys {m : BTreeMap κ ν} {k : κ} : k ∈ m.toList.map Prod.fst ↔ ∃ v, m[k]? = some v := by
  rw [List.mem_map]
  constructor
  · rintro ⟨⟨a, v⟩, member, rfl⟩
    exact ⟨v, mem_toList.mp member⟩
  · rintro ⟨v, found⟩
    exact ⟨(k, v), mem_toList.mpr found, rfl⟩

theorem size_eq_of_keys {m n : BTreeMap κ ν} (same : ∀ k : κ, (∃ v : ν, m[k]? = some v) ↔ ∃ v : ν, n[k]? = some v) :
    m.size = n.size := by
  have perm : (m.toList.map Prod.fst).Perm (n.toList.map Prod.fst) := by
    rw [List.perm_ext_iff_of_nodup (nodup_keys m) (nodup_keys n)]
    intro k
    rw [mem_keys, mem_keys, same]
  have lengths := perm.length_eq
  rw [List.length_map, List.length_map] at lengths
  simpa using lengths

theorem keys_of_size_le {m n : BTreeMap κ ν} (covers : ∀ (k : κ) (v : ν), m[k]? = some v → ∃ w : ν, n[k]? = some w)
    (small : n.size ≤ m.size) {k : κ} {v : ν} (found : n[k]? = some v) : ∃ w, m[k]? = some w := by
  have part : m.toList.map Prod.fst ⊆ n.toList.map Prod.fst := by
    intro a member
    rcases mem_keys.mp member with ⟨w, present⟩
    exact mem_keys.mpr (covers a w present)
  have perm : (m.toList.map Prod.fst).Perm (n.toList.map Prod.fst) := by
    apply (List.subperm_of_subset (nodup_keys m) part).perm_of_length_le
    simpa using small
  exact mem_keys.mp (perm.mem_iff.mpr (mem_keys.mpr ⟨v, found⟩))
theorem toList_erase_perm [DecidableEq κ] (m : BTreeMap κ ν) (k : κ) :
    (m.erase k).toList.Perm (m.toList.filter (fun entry => entry.1 ≠ k)) := by
  rw [List.perm_ext_iff_of_nodup (nodup_toList _) ((nodup_toList m).filter _)]
  rintro ⟨a, w⟩
  rw [mem_toList, getElem?_erase_eq, List.mem_filter, mem_toList]
  by_cases same : a = k
  · simp [same]
  · simp [same]

theorem filterMap_insert_subperm [DecidableEq κ] {α : Type*} (g : κ × ν → Option α) (m : BTreeMap κ ν) (k : κ) (v : ν) :
    ((m.insert k v).toList.filterMap g).Subperm ((g (k, v)).toList ++ m.toList.filterMap g) := by
  apply ((toList_insert_perm m k v).filterMap g).subperm.trans
  have rest := List.filter_sublist (p := fun entry => decide (entry.1 ≠ k)) (l := m.toList)
  rw [List.filterMap_cons]
  cases g (k, v) with
  | none => exact (rest.filterMap g).subperm
  | some a => exact ((rest.filterMap g).cons_cons a).subperm

theorem filterMap_erase_perm [DecidableEq κ] {α : Type*} (g : κ × ν → Option α) (m : BTreeMap κ ν) (k : κ) :
    ((m[k]?.bind fun v => g (k, v)).toList ++ (m.erase k).toList.filterMap g).Perm (m.toList.filterMap g) := by
  have erased := (toList_erase_perm m k).filterMap g
  cases found : m[k]? with
  | none =>
    have kept : m.toList.filter (fun entry => entry.1 ≠ k) = m.toList := by
      rw [List.filter_eq_self]
      rintro ⟨a, w⟩ member
      rw [mem_toList] at member
      rw [decide_eq_true_eq]
      rintro rfl
      rw [found] at member
      cases member
    rw [kept] at erased
    exact erased
  | some v =>
    have split := (filter_key_split k (nodup_keys m) (mem_toList.mpr found)).filterMap g
    rw [List.filterMap_cons] at split
    rw [Option.bind_some]
    cases yields : g (k, v) with
    | none =>
      rw [yields] at split
      exact erased.trans split.symm
    | some a =>
      rw [yields] at split
      exact (erased.cons a).trans split.symm

theorem toList_insert_last [DecidableEq κ] {m : BTreeMap κ ν} {k : κ} (v : ν)
    (above : ∀ (a : κ) (w : ν), m[a]? = some w → compare a k = .lt) :
    (m.insert k v).toList = m.toList ++ [(k, v)] := by
  have different : ∀ entry ∈ m.toList, entry.1 ≠ k := by
    rintro ⟨a, w⟩ member rfl
    have smaller := above a w (mem_toList.mp member)
    have equal : compare a a = .eq := Std.ReflCmp.compare_self
    rw [equal] at smaller
    cases smaller
  refine List.Perm.eq_of_pairwise ?_ (Std.ExtTreeMap.ordered_keys_toList) ?_ ?_
  · intro a b _ _ below reversed
    have both := Std.OrientedCmp.not_lt_of_lt below
    exact absurd reversed both
  · rw [List.pairwise_append]
    refine ⟨Std.ExtTreeMap.ordered_keys_toList, List.pairwise_singleton _ _, ?_⟩
    rintro ⟨a, w⟩ member b single
    rw [List.mem_singleton.mp single]
    exact above a w (mem_toList.mp member)
  · have kept : m.toList.filter (fun entry => entry.1 ≠ k) = m.toList := by
      rw [List.filter_eq_self]
      intro entry member
      simpa using different entry member
    have perm := toList_insert_perm m k v
    rw [kept] at perm
    exact perm.trans (List.perm_append_singleton (k, v) m.toList).symm

end BTreeMap

end Library

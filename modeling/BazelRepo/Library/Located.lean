import Mathlib.Data.List.InsertIdx
import Mathlib.Data.List.Nodup
import Mathlib.Data.List.Perm.Basic
import Mathlib.Logic.Function.Basic

namespace Library

variable {σ ι : Type*}

/-- The items of each slot, in order, and the slot and number that each item records for itself agree. -/
def Located (index : σ → List ι) (place : ι → Option (σ × ℕ)) : Prop :=
  ∀ s n i, (index s)[n]? = some i ↔ place i = some (s, n)

section Located

variable {index : σ → List ι} {place : ι → Option (σ × ℕ)}

theorem Located.mem_iff (located : Located index place) {s : σ} {i : ι} :
    i ∈ index s ↔ ∃ n, place i = some (s, n) := by
  rw [List.mem_iff_getElem?]
  apply exists_congr
  intro n
  exact located s n i

theorem Located.slot_eq (located : Located index place) {s t : σ} {i : ι} (inS : i ∈ index s) (inT : i ∈ index t) :
    s = t := by
  rcases located.mem_iff.mp inS with ⟨n, first⟩
  rcases located.mem_iff.mp inT with ⟨m, second⟩
  rw [first] at second
  exact congrArg Prod.fst (Option.some.inj second)

theorem Located.nodup (located : Located index place) (s : σ) : (index s).Nodup := by
  rw [List.nodup_iff_getElem?_ne_getElem?]
  intro n m less bound same
  have found : (index s)[n]? = some (index s)[n] := List.getElem?_eq_getElem (by omega)
  have first := (located s n _).mp found
  have second := (located s m _).mp (same.symm.trans found)
  rw [first] at second
  have equal : n = m := congrArg Prod.snd (Option.some.inj second)
  omega

theorem Located.mem_eraseIdx (located : Located index place) {s : σ} {n : ℕ} {i j : ι}
    (here : place i = some (s, n)) : j ∈ (index s).eraseIdx n ↔ j ≠ i ∧ j ∈ index s := by
  have found := (located s n i).mpr here
  rw [List.mem_eraseIdx_iff_getElem?]
  constructor
  · rintro ⟨m, different, there⟩
    refine ⟨?_, List.mem_of_getElem? there⟩
    rintro rfl
    have placed := (located s m j).mp there
    rw [here] at placed
    exact different (congrArg Prod.snd (Option.some.inj placed)).symm
  · rintro ⟨different, member⟩
    rcases List.mem_iff_getElem?.mp member with ⟨m, there⟩
    refine ⟨m, ?_, there⟩
    rintro rfl
    rw [found] at there
    exact different (Option.some.inj there).symm

variable [DecidableEq ι]

theorem Located.idxOf_eq (located : Located index place) {s : σ} {n : ℕ} {i : ι} (here : place i = some (s, n)) :
    (index s).idxOf i = n := by
  have found := (located s n i).mpr here
  rcases List.getElem?_eq_some_iff.mp found with ⟨bound, rfl⟩
  exact (located.nodup s).idxOf_getElem n bound

theorem Located.idxOf?_eq (located : Located index place) {s : σ} {n : ℕ} {i : ι} (here : place i = some (s, n)) :
    (index s).idxOf? i = some n := by
  have member : i ∈ index s := located.mem_iff.mpr ⟨n, here⟩
  rcases Option.isSome_iff_exists.mp (List.isSome_idxOf?.mpr member) with ⟨m, found⟩
  have first := List.idxOf_eq_getD_idxOf? i (index s)
  rw [found, located.idxOf_eq here] at first
  rw [found, first]
  rfl

def renumbered (entries : List ι) (s : σ) (place : ι → Option (σ × ℕ)) (i : ι) : Option (σ × ℕ) :=
  if i ∈ entries then some (s, entries.idxOf i) else place i

theorem getElem?_eq_some_iff_idxOf {entries : List ι} (nodup : entries.Nodup) {n : ℕ} {i : ι} :
    entries[n]? = some i ↔ i ∈ entries ∧ entries.idxOf i = n := by
  constructor
  · intro found
    rcases List.getElem?_eq_some_iff.mp found with ⟨bound, rfl⟩
    exact ⟨List.getElem_mem bound, nodup.idxOf_getElem n bound⟩
  · rintro ⟨member, rfl⟩
    exact List.getElem?_idxOf member

variable [DecidableEq σ]

theorem located_renumbered {s : σ} {entries : List ι} (nodup : entries.Nodup)
    (others : ∀ t ≠ s, ∀ n i, (index t)[n]? = some i ↔ place i = some (t, n))
    (apart : ∀ i ∈ entries, ∀ t ≠ s, ∀ n, place i ≠ some (t, n))
    (listed : ∀ i n, place i = some (s, n) → i ∈ entries) :
    Located (Function.update index s entries) (renumbered entries s place) := by
  intro t n i
  unfold renumbered
  by_cases here : t = s
  · subst here
    rw [Function.update_self, getElem?_eq_some_iff_idxOf nodup]
    split
    case isTrue member =>
      simp [member]
    case isFalse missing =>
      constructor
      · intro found
        exact absurd found.1 missing
      · intro placed
        exact absurd (listed i n placed) missing
  · rw [Function.update_of_ne here, others t here n i]
    split
    case isTrue member =>
      have elsewhere := apart i member t here n
      have different : ¬ s = t := fun same => here same.symm
      simp [elsewhere, different]
    case isFalse => rfl

theorem Located.insert (located : Located index place) {s : σ} {n : ℕ} {i : ι} (absent : place i = none)
    (fits : n ≤ (index s).length) :
    Located (Function.update index s ((index s).insertIdx n i)) (renumbered ((index s).insertIdx n i) s place) := by
  have missing : ∀ t, i ∉ index t := by
    intro t member
    rcases located.mem_iff.mp member with ⟨m, placed⟩
    rw [absent] at placed
    cases placed
  apply located_renumbered
  · rw [(List.perm_insertIdx i (index s) fits).nodup_iff]
    exact List.nodup_cons.mpr ⟨missing s, located.nodup s⟩
  · intro t _
    exact located t
  · intro j member t apart m placed
    rcases (List.mem_insertIdx fits).mp member with rfl | old
    · rw [absent] at placed
      cases placed
    · exact apart (located.slot_eq (located.mem_iff.mpr ⟨m, placed⟩) old)
  · intro j m placed
    exact (List.mem_insertIdx fits).mpr (.inr (located.mem_iff.mpr ⟨m, placed⟩))

theorem Located.erase (located : Located index place) {s : σ} {n : ℕ} {i : ι} (here : place i = some (s, n)) :
    Located (Function.update index s ((index s).eraseIdx n))
      (renumbered ((index s).eraseIdx n) s (Function.update place i none)) := by
  have member : i ∈ index s := located.mem_iff.mpr ⟨n, here⟩
  apply located_renumbered
  · exact (located.nodup s).sublist (List.eraseIdx_sublist _ _)
  · intro t apart m j
    rw [located t m j]
    by_cases same : j = i
    · subst same
      rw [Function.update_self, here]
      have different : ¬ s = t := fun same => apart same.symm
      simp [different]
    · rw [Function.update_of_ne same]
  · intro j kept t apart m placed
    rcases (located.mem_eraseIdx here).mp kept with ⟨different, old⟩
    rw [Function.update_of_ne different] at placed
    exact apart (located.slot_eq (located.mem_iff.mpr ⟨m, placed⟩) old)
  · intro j m placed
    by_cases same : j = i
    · subst same
      rw [Function.update_self] at placed
      cases placed
    · rw [Function.update_of_ne same] at placed
      exact (located.mem_eraseIdx here).mpr ⟨same, located.mem_iff.mpr ⟨m, placed⟩⟩

end Located

end Library

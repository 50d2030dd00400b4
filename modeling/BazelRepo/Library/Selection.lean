import Mathlib.Data.List.InsertIdx
import Mathlib.Data.List.Nodup
import Mathlib.Data.List.Perm.Subperm
import Mathlib.Tactic.Common

namespace Library

section Insertion

variable {α : Type*} {precedes : α → α → Prop} {xs : List α} {candidate : α} {lo hi : Nat}

/-- An interval of a list in which a candidate belongs: what is left of it precedes the candidate, and
the candidate precedes what is right of it. -/
structure Brackets (precedes : α → α → Prop) (xs : List α) (candidate : α) (lo hi : Nat) : Prop where
  left : ∀ x ∈ xs.take lo, precedes x candidate
  right : ∀ x ∈ xs.drop hi, precedes candidate x

theorem Brackets.whole (precedes : α → α → Prop) (xs : List α) (candidate : α) :
    Brackets precedes xs candidate 0 xs.length := by
  refine ⟨?_, ?_⟩
  · intro x member
    cases member
  · intro x member
    rw [List.drop_length] at member
    cases member

theorem mem_take_of_getElem? {x : α} {j k : Nat} (found : xs[j]? = some x) (bound : j < k) : x ∈ xs.take k := by
  apply List.mem_of_getElem? (i := j)
  rw [List.getElem?_take_of_lt bound]
  exact found

theorem mem_drop_of_getElem? {x : α} {j k : Nat} (found : xs[j]? = some x) (bound : k ≤ j) : x ∈ xs.drop k := by
  apply List.mem_of_getElem? (i := j - k)
  rw [List.getElem?_drop, Nat.add_sub_cancel' bound]
  exact found

theorem insertIdx_eq_take_append_drop (xs : List α) (candidate : α) {k : Nat} (bound : k ≤ xs.length) :
    xs.insertIdx k candidate = xs.take k ++ candidate :: xs.drop k := by
  induction xs generalizing k with
  | nil =>
    cases Nat.le_zero.mp bound
    rfl
  | cons x rest ih =>
    cases k with
    | zero => rfl
    | succ k =>
      rw [List.insertIdx_succ_cons, ih (Nat.le_of_succ_le_succ bound)]
      rfl

theorem Brackets.above (brackets : Brackets precedes xs candidate lo hi)
    (transitive : ∀ a b c, precedes a b → precedes b c → precedes a c) (sorted : xs.Pairwise precedes) {x : α}
    {j : Nat} (found : xs[j]? = some x) (below : precedes x candidate) :
    Brackets precedes xs candidate (j + 1) hi := by
  refine ⟨?_, brackets.right⟩
  intro y member
  rw [List.take_add_one, found] at member
  rcases List.mem_append.mp member with before | last
  · have pairs : (xs.take j ++ xs.drop j).Pairwise precedes := by
      rw [List.take_append_drop]
      exact sorted
    exact transitive y x candidate
      ((List.pairwise_append.mp pairs).2.2 y before x (mem_drop_of_getElem? found (Nat.le_refl j))) below
  · cases List.mem_singleton.mp last
    exact below

theorem Brackets.below (brackets : Brackets precedes xs candidate lo hi)
    (transitive : ∀ a b c, precedes a b → precedes b c → precedes a c) (sorted : xs.Pairwise precedes) {x : α}
    {j : Nat} (found : xs[j]? = some x) (above : precedes candidate x) :
    Brackets precedes xs candidate lo j := by
  refine ⟨brackets.left, ?_⟩
  intro y member
  have bound : j < xs.length := (List.getElem?_eq_some_iff.mp found).1
  have split : xs.drop j = x :: xs.drop (j + 1) := by
    rw [List.drop_eq_getElem_cons bound, (List.getElem?_eq_some_iff.mp found).2]
  rw [split] at member
  rcases List.mem_cons.mp member with rfl | after
  · exact above
  · have pairs : (xs.drop j).Pairwise precedes := sorted.sublist (List.drop_sublist j xs)
    rw [split] at pairs
    exact transitive candidate x y above (List.rel_of_pairwise_cons pairs after)

theorem Brackets.insert {k : Nat} (brackets : Brackets precedes xs candidate k k)
    (sorted : xs.Pairwise precedes) (bound : k ≤ xs.length) : (xs.insertIdx k candidate).Pairwise precedes := by
  rw [insertIdx_eq_take_append_drop xs candidate bound, List.pairwise_append, List.pairwise_cons]
  have pairs : (xs.take k ++ xs.drop k).Pairwise precedes := by
    rw [List.take_append_drop]
    exact sorted
  rw [List.pairwise_append] at pairs
  refine ⟨pairs.1, ⟨brackets.right, pairs.2.1⟩, ?_⟩
  intro x before y member
  rcases List.mem_cons.mp member with rfl | after
  · exact brackets.left x before
  · exact pairs.2.2 x before y after

theorem nodup_insertIdx {k : Nat} (bound : k ≤ xs.length) (distinct : xs.Nodup) (fresh : candidate ∉ xs) :
    (xs.insertIdx k candidate).Nodup := by
  rw [(List.perm_insertIdx candidate xs bound).nodup_iff, List.nodup_cons]
  exact ⟨fresh, distinct⟩

theorem sublist_insertIdx_of_mem_take {k : Nat} (bound : k ≤ xs.length) {x : α} (member : x ∈ xs.take k) :
    [x, candidate].Sublist (xs.insertIdx k candidate) := by
  rw [insertIdx_eq_take_append_drop xs candidate bound]
  exact (List.singleton_sublist.mpr member).append (List.singleton_sublist.mpr List.mem_cons_self)

theorem sublist_insertIdx_of_mem_drop {k : Nat} (bound : k ≤ xs.length) {x : α} (member : x ∈ xs.drop k) :
    [candidate, x].Sublist (xs.insertIdx k candidate) := by
  rw [insertIdx_eq_take_append_drop xs candidate bound]
  exact (List.cons_sublist_cons.mpr (List.singleton_sublist.mpr member)).trans (List.sublist_append_right _ _)

end Insertion

section Selection

variable {α : Type*} {selects : α → Bool} {xs ys : List α} {x : α} {k n position start : ℕ}

def selectedPositions (selects : α → Bool) (xs : List α) (start : ℕ) : List ℕ :=
  (xs.zipIdx start).filterMap fun entry => if selects entry.1 then some entry.2 else none

theorem selectedPositions_cons (selects : α → Bool) (x : α) (xs : List α) (start : ℕ) :
    selectedPositions selects (x :: xs) start =
      if selects x then start :: selectedPositions selects xs (start + 1) else selectedPositions selects xs (start + 1) := by
  unfold selectedPositions
  rw [List.zipIdx_cons]
  by_cases selected : selects x = true
  · simp [selected]
  · simp [selected]

theorem length_selectedPositions (selects : α → Bool) (xs : List α) (start : ℕ) :
    (selectedPositions selects xs start).length = xs.countP selects := by
  induction xs generalizing start with
  | nil => rfl
  | cons x rest ih =>
    rw [selectedPositions_cons, List.countP_cons]
    split
    · rw [List.length_cons, ih]
    · rw [ih, Nat.add_zero]

theorem countP_take_of_selectedPositions (found : (selectedPositions selects xs start)[n]? = some position) :
    ∃ k, position = start + k ∧ (xs.take k).countP selects = n ∧ ∃ x, xs[k]? = some x ∧ selects x = true := by
  induction xs generalizing start n with
  | nil => cases found
  | cons x rest ih =>
    rw [selectedPositions_cons] at found
    by_cases selected : selects x = true
    · rw [if_pos selected] at found
      cases n with
      | zero =>
        cases found
        exact ⟨0, rfl, rfl, x, rfl, selected⟩
      | succ n =>
        rcases ih found with ⟨k, same, counted, later⟩
        refine ⟨k + 1, ?_, ?_, later⟩
        · omega
        · rw [List.take_succ_cons, List.countP_cons, counted, if_pos selected]
    · rw [if_neg selected] at found
      rcases ih found with ⟨k, same, counted, later⟩
      refine ⟨k + 1, ?_, ?_, later⟩
      · omega
      · rw [List.take_succ_cons, List.countP_cons, counted, if_neg selected, Nat.add_zero]

/-- The position of the selected element with a number; past the last one, the position after it. -/
def selectedPosition (selects : α → Bool) (xs : List α) (n : ℕ) : ℕ :=
  match (selectedPositions selects xs 0)[n]? with
  | some position => position
  | none => ((selectedPositions selects xs 0).getLast?.map (· + 1)).getD xs.length

theorem countP_take_selectedPosition (bound : n ≤ xs.countP selects) :
    (xs.take (selectedPosition selects xs n)).countP selects = n := by
  have length := length_selectedPositions selects xs 0
  unfold selectedPosition
  cases found : (selectedPositions selects xs 0)[n]? with
  | some position =>
    rcases countP_take_of_selectedPositions found with ⟨k, same, counted, _⟩
    rw [Nat.zero_add] at same
    rw [same]
    exact counted
  | none =>
    have last : n = (selectedPositions selects xs 0).length := by
      have past := List.getElem?_eq_none_iff.mp found
      omega
    cases ending : (selectedPositions selects xs 0).getLast? with
    | none =>
      have empty := List.getLast?_eq_none_iff.mp ending
      rw [empty] at length last
      show (xs.take xs.length).countP selects = n
      rw [List.take_length, ← length, last]
    | some position =>
      rw [List.getLast?_eq_getElem?] at ending
      rcases countP_take_of_selectedPositions ending with ⟨k, same, counted, x, there, selected⟩
      rw [Nat.zero_add] at same
      show (xs.take (position + 1)).countP selects = n
      have some : 0 < (selectedPositions selects xs 0).length := by
        rcases List.getElem?_eq_some_iff.mp ending with ⟨inside, _⟩
        omega
      rw [same, List.take_add_one, there, List.countP_append, counted]
      show _ + List.countP selects [x] = n
      rw [List.countP_cons, List.countP_nil, if_pos selected]
      omega

theorem idxOf?_filter_insertIdx [BEq α] [LawfulBEq α] (bound : k ≤ xs.length) (fresh : x ∉ xs)
    (selected : selects x = true) :
    ((xs.insertIdx k x).filter selects).idxOf? x = some ((xs.take k).countP selects) := by
  have before : x ∉ (xs.take k).filter selects := fun member =>
    fresh (List.mem_of_mem_take (List.mem_filter.mp member).1)
  rw [insertIdx_eq_take_append_drop xs x bound, List.filter_append, List.filter_cons_of_pos selected,
    List.idxOf?_eq_some_iff]
  refine ⟨?_, ?_, ?_⟩
  · rw [List.length_append, List.length_cons, ← List.countP_eq_length_filter]
    omega
  · simp [List.countP_eq_length_filter]
  · intro j earlier same
    rw [List.countP_eq_length_filter] at earlier
    rw [List.getElem_append_left earlier] at same
    exact before (same ▸ List.getElem_mem earlier)

theorem erase_insertIdx [BEq α] [LawfulBEq α] (bound : k ≤ xs.length) (fresh : x ∉ xs) :
    (xs.insertIdx k x).erase x = xs := by
  have before : x ∉ xs.take k := fun member => fresh (List.mem_of_mem_take member)
  rw [insertIdx_eq_take_append_drop xs x bound, List.erase_append_right _ before, List.erase_cons_head,
    List.take_append_drop]

theorem filter_eq_of_sublist (sublist : ys.Sublist xs) (distinct : xs.Nodup)
    (kept : ∀ x ∈ xs, selects x = true → x ∈ ys) : ys.filter selects = xs.filter selects := by
  have fewer : (ys.filter selects).Sublist (xs.filter selects) := sublist.filter selects
  apply fewer.eq_of_length_le
  apply List.Subperm.length_le
  apply List.subperm_of_subset (distinct.filter selects)
  intro x member
  rcases List.mem_filter.mp member with ⟨listed, selected⟩
  exact List.mem_filter.mpr ⟨kept x listed selected, selected⟩

end Selection

end Library

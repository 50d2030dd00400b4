import BazelRepo.Library.Checked
import BazelRepo.Library.Decimal
import Mathlib.Algebra.BigOperators.Group.List.Basic
import Mathlib.Algebra.Order.BigOperators.Group.List
import Mathlib.Data.List.Induction
import Mathlib.Data.Nat.Cast.Basic

namespace Library

def utf16Units (c : Char) : Nat :=
  if c.toNat < 0x10000 then 1 else 2

def utf16Len (text : String) : Nat :=
  (text.toList.map utf16Units).sum

theorem utf16Units_le (c : Char) : utf16Units c ≤ 2 := by
  unfold utf16Units
  split <;> omega

@[simp] theorem utf16Len_empty : utf16Len "" = 0 := rfl

@[simp] theorem utf16Len_append (a b : String) : utf16Len (a ++ b) = utf16Len a + utf16Len b := by
  unfold utf16Len
  rw [String.toList_append, List.map_append, List.sum_append]

theorem utf16Len_ofList (characters : List Char) :
    utf16Len (String.ofList characters) = (characters.map utf16Units).sum := by
  unfold utf16Len
  rw [String.toList_ofList]

theorem utf16Len_join (texts : List String) : utf16Len (String.join texts) = (texts.map utf16Len).sum := by
  induction texts with
  | nil => rfl
  | cons text rest ih => rw [String.join_cons, utf16Len_append, ih, List.map_cons, List.sum_cons]

theorem sum_utf16Units {characters : List Char} (plain : ∀ c ∈ characters, c.toNat < 0x10000) :
    (characters.map utf16Units).sum = characters.length := by
  induction characters with
  | nil => rfl
  | cons c rest ih =>
    have first := plain c List.mem_cons_self
    have later := ih fun d member => plain d (List.mem_cons_of_mem _ member)
    rw [List.map_cons, List.sum_cons, later, List.length_cons, utf16Units, if_pos first]
    omega

theorem utf16Len_repr {n k : Nat} (positive : 0 < k) (bound : n < 10 ^ k) : utf16Len (toString n) ≤ k := by
  have digits : (toString n).toList = Nat.toDigits 10 n := Nat.toList_repr
  unfold utf16Len
  rw [digits, sum_utf16Units]
  · exact (Nat.length_toDigits_le_iff (by decide) positive).mpr bound
  · intro c member
    have digit := isAsciiDigit_of_mem_toDigits member
    simp only [isAsciiDigit, Bool.and_eq_true, decide_eq_true_eq] at digit
    omega

theorem utf16Len_u64 (n : UInt64) : utf16Len (toString n) ≤ 20 :=
  utf16Len_repr (by decide) (toNat_lt_pow n)

theorem utf16Len_i64 (n : Int64) : utf16Len (toString n) ≤ 20 := by
  have above := n.le_toInt
  have below := n.toInt_lt
  change utf16Len (toString n.toInt) ≤ 20
  cases sign : n.toInt with
  | ofNat m =>
    rw [sign] at below
    exact utf16Len_repr (by decide) (by simp only [Int.ofNat_eq_natCast] at below; omega)
  | negSucc m =>
    rw [sign] at above
    have digits : utf16Len (toString (m + 1)) ≤ 19 := utf16Len_repr (by decide) (by omega)
    change utf16Len ("-" ++ toString (m + 1)) ≤ 20
    rw [utf16Len_append]
    have dash : utf16Len "-" = 1 := by decide
    omega

theorem utf16Len_le (text : String) : utf16Len text ≤ text.length * 2 := by
  unfold utf16Len
  have total := List.sum_le_card_nsmul (text.toList.map utf16Units) 2 (by
    intro units member
    rcases List.mem_map.mp member with ⟨c, _, rfl⟩
    exact utf16Units_le c)
  rwa [List.length_map, String.length_toList, nsmul_eq_mul, Nat.cast_id] at total

theorem utf16Len_lines {lines : List String} {bound : Nat} (short : ∀ line ∈ lines, utf16Len line ≤ bound) :
    utf16Len (String.join lines) ≤ lines.length * bound := by
  rw [utf16Len_join]
  have total := List.sum_le_card_nsmul (lines.map utf16Len) bound (by
    intro size member
    rcases List.mem_map.mp member with ⟨line, present, rfl⟩
    exact short line present)
  simpa using total

theorem utf16Len_intercalate {separator : String} {bound : Nat} {lines : List String}
    (short : ∀ line ∈ lines, utf16Len line + utf16Len separator ≤ bound) :
    utf16Len (separator.intercalate lines) ≤ lines.length * bound := by
  induction lines with
  | nil => simp
  | cons line rest ih =>
    have first := short line List.mem_cons_self
    have later := ih fun other member => short other (List.mem_cons_of_mem _ member)
    rw [List.length_cons, Nat.add_mul, Nat.one_mul]
    cases rest with
    | nil =>
      rw [String.intercalate_singleton]
      omega
    | cons next others =>
      rw [String.intercalate_cons_cons, utf16Len_append, utf16Len_append]
      omega

section

variable {α : Type*}

def fitting (size : α → Nat) (budget : Nat) : Nat → List α → List α
  | _, [] => []
  | used, x :: rest => if budget < used + size x then [] else x :: fitting size budget (used + size x) rest

theorem isPrefix_fitting {size : α → Nat} {budget : Nat} {xs : List α} : ∀ {used : Nat}, fitting size budget used xs <+: xs := by
  induction xs with
  | nil => exact List.nil_prefix
  | cons x rest ih =>
    intro used
    unfold fitting
    split
    · exact List.nil_prefix
    · exact List.cons_prefix_cons.mpr ⟨rfl, ih⟩

theorem sum_fitting {size : α → Nat} {budget : Nat} {xs : List α} : ∀ {used : Nat}, used ≤ budget →
    used + ((fitting size budget used xs).map size).sum ≤ budget := by
  induction xs with
  | nil =>
    intro used within
    simpa [fitting] using within
  | cons x rest ih =>
    intro used within
    unfold fitting
    by_cases full : budget < used + size x
    · rw [if_pos full]
      simpa using within
    · rw [if_neg full, List.map_cons, List.sum_cons, ← Nat.add_assoc]
      exact ih (Nat.le_of_not_lt full)

/-- Pages filled one after the other: those that are closed, and the one under way with its size. -/
structure Packing (α : Type*) where
  closed : List (List α)
  last : List α
  units : Nat

def Packing.empty : Packing α := ⟨[], [], 0⟩

/-- An item goes on a new page when it does not fit on the one under way. -/
def Packing.add (size : α → Nat) (budget : Nat) (packing : Packing α) (x : α) : Packing α :=
  if budget < packing.units + size x then
    { closed := packing.closed ++ [packing.last], last := [x], units := size x }
  else { packing with last := packing.last ++ [x], units := packing.units + size x }

def Packing.pages (packing : Packing α) : List (List α) := packing.closed ++ [packing.last]

def pack (size : α → Nat) (budget : Nat) (xs : List α) : List (List α) :=
  (xs.foldl (Packing.add size budget) Packing.empty).pages

structure Packing.Holds (size : α → Nat) (budget : Nat) (packing : Packing α) (xs : List α) : Prop where
  items : packing.pages.flatten = xs
  counted : packing.units = (packing.last.map size).sum
  fits : ∀ page ∈ packing.pages, (page.map size).sum ≤ budget
  pages : packing.pages.length ≤ xs.length + 1

theorem Packing.Holds.add {size : α → Nat} {budget : Nat} {packing : Packing α} {xs : List α} {x : α}
    (holds : packing.Holds size budget xs) (small : size x ≤ budget) :
    (packing.add size budget x).Holds size budget (xs ++ [x]) := by
  rcases holds with ⟨items, counted, fits, pages⟩
  unfold Packing.add
  by_cases full : budget < packing.units + size x
  · rw [if_pos full]
    constructor
    · rw [← items]
      simp [Packing.pages]
    · simp
    · intro page member
      rcases List.mem_append.mp member with earlier | latest
      · exact fits page earlier
      · cases List.mem_singleton.mp latest
        simpa using small
    · simpa [Packing.pages] using pages
  · rw [if_neg full]
    constructor
    · rw [← items]
      simp [Packing.pages]
    · simp [counted]
    · intro page member
      rcases List.mem_append.mp member with earlier | latest
      · exact fits page (List.mem_append_left _ earlier)
      · cases List.mem_singleton.mp latest
        simp only [List.map_append, List.sum_append, List.map_cons, List.map_nil, List.sum_singleton]
        omega
    · simp only [Packing.pages, List.length_append, List.length_singleton] at pages ⊢
      omega

theorem pack_holds {size : α → Nat} {budget : Nat} (xs : List α) (small : ∀ x ∈ xs, size x ≤ budget) :
    (xs.foldl (Packing.add size budget) Packing.empty).Holds size budget xs := by
  induction xs using List.reverseRecOn with
  | nil => exact ⟨rfl, rfl, by simp [Packing.pages, Packing.empty], by simp [Packing.pages, Packing.empty]⟩
  | append_singleton earlier x ih =>
    rw [List.foldl_append]
    exact (ih fun y member => small y (List.mem_append_left _ member)).add (small x (by simp))

end

end Library

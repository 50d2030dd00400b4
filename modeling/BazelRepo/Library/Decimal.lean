import BazelRepo.Library.Text
import Mathlib.Data.Nat.ModEq
import Mathlib.Data.String.Basic
import Std.Data.String.ToNat

namespace Library

def parseDecimal (characters : List Char) : Option Nat :=
  if characters = [] ∨ characters.any (fun c => !isAsciiDigit c) then none
  else some (Nat.ofDigitChars 10 characters 0)

def stripPlus (characters : List Char) : List Char :=
  if characters.head? = some '+' then characters.tail else characters

/-- The 64-bit parser: an optional plus sign, digits, and a value in range. -/
def parseU64 (text : String) : Option UInt64 :=
  (parseDecimal (stripPlus text.toList)).bind fun n =>
    if n < 2^64 then some (UInt64.ofNat n) else none

theorem isAsciiDigit_of_isDigit {c : Char} (digit : c.isDigit = true) : isAsciiDigit c = true := by
  simp only [Char.isDigit, Bool.and_eq_true, decide_eq_true_eq, UInt32.le_iff_toNat_le] at digit
  simp only [isAsciiDigit, Bool.and_eq_true, decide_eq_true_eq]
  exact digit

theorem isAsciiDigit_of_mem_toDigits {n : Nat} {c : Char} (member : c ∈ Nat.toDigits 10 n) :
    isAsciiDigit c = true :=
  isAsciiDigit_of_isDigit (Nat.isDigit_of_mem_toDigits (by decide) (by decide) member)

theorem parseDecimal_toDigits (n : Nat) : parseDecimal (Nat.toDigits 10 n) = some n := by
  have digits : (Nat.toDigits 10 n).any (fun c => !isAsciiDigit c) = false := by
    rw [List.any_eq_false]
    intro c member
    simp [isAsciiDigit_of_mem_toDigits member]
  simp [parseDecimal, digits, Nat.toDigits_ne_nil]

theorem toList_toString_u64 (n : UInt64) : (toString n).toList = Nat.toDigits 10 n.toNat :=
  Nat.toList_repr

theorem stripPlus_toDigits (n : Nat) : stripPlus (Nat.toDigits 10 n) = Nat.toDigits 10 n := by
  refine if_neg ?_
  intro first
  have plus : isAsciiDigit '+' = true := isAsciiDigit_of_mem_toDigits (List.mem_of_head? first)
  exact absurd plus (by decide)

theorem parseU64_toString (n : UInt64) : parseU64 (toString n) = some n := by
  have bound := n.toNat_lt
  rw [parseU64, toList_toString_u64, stripPlus_toDigits, parseDecimal_toDigits]
  simp [bound]

def isControl (c : Char) : Bool :=
  c.toNat ≤ 0x1F || (0x7F ≤ c.toNat && c.toNat ≤ 0x9F)

/-- The digits of a number, most significant first, filled with zeros to a width. -/
def fixedDigits (base : Nat) : Nat → Nat → List Char
  | 0, _ => []
  | width + 1, n => fixedDigits base width (n / base) ++ [Nat.digitChar (n % base)]

theorem length_fixedDigits (base width n : Nat) : (fixedDigits base width n).length = width := by
  induction width generalizing n with
  | zero => rfl
  | succ width ih => rw [fixedDigits, List.length_append, ih, List.length_singleton]

theorem mem_fixedDigits {base width n : Nat} (positive : 0 < base) {c : Char}
    (member : c ∈ fixedDigits base width n) : ∃ digit < base, c = Nat.digitChar digit := by
  induction width generalizing n with
  | zero => cases member
  | succ width ih =>
    rcases List.mem_append.mp member with before | last
    · exact ih before
    · cases List.mem_singleton.mp last
      exact ⟨n % base, Nat.mod_lt n positive, rfl⟩

theorem foldl_fixedDigits {base : Nat} {value : Char → Nat} (positive : 0 < base)
    (correct : ∀ digit < base, value (Nat.digitChar digit) = digit) (width start n : Nat) :
    (fixedDigits base width n).foldl (fun sofar c => base * sofar + value c) start =
      base ^ width * start + n % base ^ width := by
  induction width generalizing n with
  | zero => simp [fixedDigits, Nat.mod_one]
  | succ width ih =>
    rw [fixedDigits, List.foldl_append, ih]
    simp only [List.foldl_cons, List.foldl_nil]
    rw [correct _ (Nat.mod_lt n positive), Nat.pow_succ', Nat.mod_mul, Nat.mul_add, Nat.mul_assoc]
    omega

theorem append_lt_append {left right : List Char} (same : left.length = right.length) (less : left < right)
    (tail tail' : List Char) : left ++ tail < right ++ tail' := by
  induction less with
  | nil => simp at same
  | rel first => exact List.Lex.rel first
  | cons rest ih => exact List.Lex.cons (ih (Nat.succ.inj same))

theorem digitChar_lt {a b : Nat} (less : a < b) (bound : b < 16) : Nat.digitChar a < Nat.digitChar b := by
  have cases : ∀ b < 16, ∀ a < b, Nat.digitChar a < Nat.digitChar b := by decide
  exact cases b bound a less

theorem fixedDigits_lt {base : Nat} (small : base ≤ 16) (width : Nat) {a b : Nat} (less : a < b)
    (bound : b < base ^ width) : fixedDigits base width a < fixedDigits base width b := by
  induction width generalizing a b with
  | zero =>
    rw [Nat.pow_zero] at bound
    omega
  | succ width ih =>
    have positive : 0 < base := by
      by_contra zero
      have none : base = 0 := by omega
      rw [none, Nat.zero_pow (Nat.succ_pos width)] at bound
      omega
    have quotient : b / base < base ^ width := by
      rw [Nat.div_lt_iff_lt_mul positive, ← Nat.pow_succ]
      exact bound
    rw [fixedDigits, fixedDigits]
    rcases Nat.lt_or_ge (a / base) (b / base) with apart | close
    · apply append_lt_append _ (ih apart quotient)
      rw [length_fixedDigits, length_fixedDigits]
    · have equal : a / base = b / base := Nat.le_antisymm (Nat.div_le_div_right (Nat.le_of_lt less)) close
      have last : a % base < b % base := by
        have first := Nat.div_add_mod a base
        have second := Nat.div_add_mod b base
        rw [equal] at first
        omega
      rw [equal]
      apply List.append_left_lt
      exact List.Lex.rel (digitChar_lt last (Nat.lt_of_lt_of_le (Nat.mod_lt b positive) small))

def padded (n : UInt64) : String := String.ofList (fixedDigits 10 20 n.toNat)

theorem one_ne_zero_u64 : (1 : UInt64) ≠ 0 := by decide

theorem toNat_lt_pow (n : UInt64) : n.toNat < 10 ^ 20 := Nat.lt_of_lt_of_le n.toNat_lt (by decide)

theorem isAsciiDigit_digitChar {digit : Nat} (bound : digit < 10) : isAsciiDigit (Nat.digitChar digit) = true := by
  have cases : ∀ digit < 10, isAsciiDigit (Nat.digitChar digit) = true := by decide
  exact cases digit bound

theorem isAsciiDigit_fixedDigits {width n : Nat} {c : Char} (member : c ∈ fixedDigits 10 width n) :
    isAsciiDigit c = true := by
  rcases mem_fixedDigits (by decide) member with ⟨digit, bound, rfl⟩
  exact isAsciiDigit_digitChar bound

theorem toList_padded (n : UInt64) : (padded n).toList = fixedDigits 10 20 n.toNat := String.toList_ofList

theorem parseU64_padded (n : UInt64) : parseU64 (padded n) = some n := by
  have length := length_fixedDigits 10 20 n.toNat
  have unsigned : stripPlus (fixedDigits 10 20 n.toNat) = fixedDigits 10 20 n.toNat := by
    refine if_neg ?_
    intro first
    have plus : isAsciiDigit '+' = true := isAsciiDigit_fixedDigits (List.mem_of_head? first)
    exact absurd plus (by decide)
  have digits : (fixedDigits 10 20 n.toNat).any (fun c => !isAsciiDigit c) = false := by
    rw [List.any_eq_false]
    intro c member
    simp [isAsciiDigit_fixedDigits member]
  have filled : fixedDigits 10 20 n.toNat ≠ [] := by
    intro empty
    rw [empty] at length
    cases length
  have correct : ∀ digit < 10, (fun c : Char => c.toNat - '0'.toNat) (Nat.digitChar digit) = digit := by decide
  have value : Nat.ofDigitChars 10 (fixedDigits 10 20 n.toNat) 0 = n.toNat := by
    rw [Nat.ofDigitChars, foldl_fixedDigits (by decide) correct, Nat.mod_eq_of_lt (toNat_lt_pow n), Nat.mul_zero,
      Nat.zero_add]
  have bound := n.toNat_lt
  rw [parseU64, toList_padded, unsigned, parseDecimal, if_neg (by simp [filled, digits]), value, Option.bind_some,
    if_pos bound, UInt64.ofNat_toNat]

theorem padded_lt {a b : UInt64} (less : a.toNat < b.toNat) : compare (padded a) (padded b) = .lt := by
  rw [compare_lt_iff_lt, String.lt_iff_toList_lt, toList_padded, toList_padded]
  exact fixedDigits_lt (by decide) 20 less (toNat_lt_pow b)

end Library

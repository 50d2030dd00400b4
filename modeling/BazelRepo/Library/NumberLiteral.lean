import BazelRepo.Library.Checked
import BazelRepo.Library.Decimal
import Mathlib.Algebra.Order.Field.Rat
import Mathlib.Data.List.DropRight
import Mathlib.Data.Nat.Digits.Lemmas
import Mathlib.Tactic.FieldSimp
import Mathlib.Tactic.Ring

namespace Library

def digitsValue (digits : List Char) : Nat := Nat.ofDigitChars 10 digits 0

@[simp] theorem digitsValue_nil : digitsValue [] = 0 := rfl

theorem digitsValue_append (left right : List Char) :
    digitsValue (left ++ right) = digitsValue left * 10 ^ right.length + digitsValue right := by
  unfold digitsValue
  rw [Nat.ofDigitChars_append, Nat.ofDigitChars_eq_ofDigitChars_zero, Nat.mul_comm]

@[simp] theorem digitsValue_zeros (n : Nat) : digitsValue (List.replicate n '0') = 0 := by
  simp [digitsValue]

theorem digitsValue_singleton (c : Char) : digitsValue [c] = c.toNat - 48 := by
  simp [digitsValue, Nat.ofDigitChars_cons]

theorem digitsValue_padded (before : Nat) (digits : List Char) (behind : Nat) :
    digitsValue (List.replicate before '0' ++ (digits ++ List.replicate behind '0')) =
      digitsValue digits * 10 ^ behind := by
  rw [digitsValue_append, digitsValue_append]
  simp

theorem digitsValue_eq_ofDigits (digits : List Char) :
    digitsValue digits = Nat.ofDigits 10 (digits.map fun c => c.toNat - 48).reverse := by
  induction digits with
  | nil => simp
  | cons c rest ih =>
    rw [← List.singleton_append, digitsValue_append, digitsValue_singleton, ih]
    simp [Nat.ofDigits_append]
    ring

theorem digit_bounds {c : Char} (digit : isAsciiDigit c = true) : 48 ≤ c.toNat ∧ c.toNat ≤ 57 := by
  simpa [isAsciiDigit] using digit

theorem digit_toNat_inj {c d : Char} (left : isAsciiDigit c = true) (right : isAsciiDigit d = true)
    (same : c.toNat - 48 = d.toNat - 48) : c = d := by
  have lower := digit_bounds left
  have upper := digit_bounds right
  apply Char.toNat_inj.mp
  omega

theorem digit_ne_zero {c : Char} (digit : isAsciiDigit c = true) (nonzero : c ≠ '0') : 0 < c.toNat - 48 := by
  have bounds := digit_bounds digit
  have apart : c.toNat ≠ 48 := fun same => nonzero (Char.toNat_inj.mp same)
  omega

theorem map_digits_inj {left right : List Char} (digits : ∀ c ∈ left, isAsciiDigit c = true)
    (digits' : ∀ c ∈ right, isAsciiDigit c = true)
    (same : left.map (fun c => c.toNat - 48) = right.map fun c => c.toNat - 48) : left = right := by
  induction left generalizing right with
  | nil => exact (List.map_eq_nil_iff.mp same.symm).symm
  | cons c rest ih =>
    cases right with
    | nil => cases same
    | cons d others =>
      rw [List.map_cons, List.map_cons, List.cons.injEq] at same
      rw [digit_toNat_inj (digits c List.mem_cons_self) (digits' d List.mem_cons_self) same.1,
        ih (fun c member => digits c (List.mem_cons_of_mem _ member))
          (fun c member => digits' c (List.mem_cons_of_mem _ member)) same.2]

structure Trimmed (digits : List Char) : Prop where
  ascii : ∀ c ∈ digits, isAsciiDigit c = true
  nonempty : digits ≠ []
  first : digits.head? ≠ some '0'
  last : digits.getLast? ≠ some '0'

theorem Trimmed.not_dvd {digits : List Char} (trimmed : Trimmed digits) : ¬ 10 ∣ digitsValue digits := by
  rcases List.eq_nil_or_concat' digits with empty | ⟨rest, c, rfl⟩
  · exact absurd empty trimmed.nonempty
  · have digit : isAsciiDigit c = true := trimmed.ascii c (by simp)
    have nonzero : c ≠ '0' := by
      intro zero
      exact trimmed.last (by simp [zero])
    have positive := digit_ne_zero digit nonzero
    have bounds := digit_bounds digit
    rw [digitsValue_append, digitsValue_singleton, List.length_singleton]
    omega

theorem Trimmed.pos {digits : List Char} (trimmed : Trimmed digits) : 0 < digitsValue digits := by
  apply Nat.pos_of_ne_zero
  intro zero
  exact trimmed.not_dvd (zero ▸ dvd_zero 10)

theorem Trimmed.inj {left right : List Char} (first : Trimmed left) (second : Trimmed right)
    (same : digitsValue left = digitsValue right) : left = right := by
  have canonical : ∀ {digits : List Char}, Trimmed digits →
      Nat.digits 10 (digitsValue digits) = (digits.map fun c => c.toNat - 48).reverse := by
    intro digits trimmed
    rw [digitsValue_eq_ofDigits]
    apply Nat.digits_ofDigits 10 (by decide)
    · intro d member
      rcases List.mem_map.mp (List.mem_reverse.mp member) with ⟨c, inside, rfl⟩
      have bounds := digit_bounds (trimmed.ascii c inside)
      omega
    · intro _
      cases digits with
      | nil => exact absurd rfl trimmed.nonempty
      | cons c rest =>
        have nonzero : c ≠ '0' := by
          intro zero
          exact trimmed.first (by simp [zero])
        have positive := digit_ne_zero (trimmed.ascii c List.mem_cons_self) nonzero
        simp
        omega
  apply map_digits_inj first.ascii second.ascii
  apply List.reverse_injective
  rw [← canonical first, ← canonical second, same]

theorem scientific_inj {m n : Nat} {e f : Int} (left : ¬ 10 ∣ m) (right : ¬ 10 ∣ n)
    (same : (m : ℚ) * 10 ^ e = n * 10 ^ f) : m = n ∧ e = f := by
  have shifted : ∀ {m n : Nat} {e f : Int}, e ≤ f → (m : ℚ) * 10 ^ e = n * 10 ^ f →
      m = n * 10 ^ (f - e).toNat := by
    intro m n e f le same
    have split : (10 : ℚ) ^ f = 10 ^ e * 10 ^ (f - e).toNat := by
      rw [← zpow_natCast, ← zpow_add₀ (by norm_num), Int.toNat_of_nonneg (by omega)]
      congr 1
      omega
    have cancelled : (m : ℚ) * 10 ^ e = (n * 10 ^ (f - e).toNat) * 10 ^ e := by
      rw [same, split]
      ring
    have power : (10 : ℚ) ^ e ≠ 0 := zpow_ne_zero _ (by norm_num)
    exact_mod_cast mul_right_cancel₀ power cancelled
  have level : ∀ {m n : Nat} {e f : Int}, ¬ 10 ∣ m → e ≤ f → m = n * 10 ^ (f - e).toNat → e = f := by
    intro m n e f indivisible le multiple
    by_contra apart
    apply indivisible
    rw [multiple, show (f - e).toNat = (f - e).toNat - 1 + 1 by omega, pow_succ]
    exact ⟨n * 10 ^ ((f - e).toNat - 1), by ring⟩
  rcases le_total e f with le | le
  · have multiple := shifted le same
    have equal := level left le multiple
    subst equal
    refine ⟨?_, rfl⟩
    simpa using multiple
  · have multiple := shifted le same.symm
    have equal := level right le multiple
    subst equal
    refine ⟨?_, rfl⟩
    simpa using multiple.symm

structure Digits where
  characters : List Char
  nonempty : characters ≠ []
  ascii : ∀ c ∈ characters, isAsciiDigit c = true
  deriving DecidableEq

inductive ExponentSign where
  | absent
  | plus
  | minus
  deriving DecidableEq

structure Exponent where
  capital : Bool
  sign : ExponentSign
  digits : Digits
  deriving DecidableEq

structure NumberLiteral where
  negative : Bool
  whole : Digits
  unpadded : whole.characters.head? = some '0' → whole.characters = ['0']
  fraction : Option Digits
  exponent : Option Exponent
  deriving DecidableEq

def ExponentSign.characters : ExponentSign → List Char
  | .absent => []
  | .plus => ['+']
  | .minus => ['-']

def Exponent.value (exponent : Exponent) : Int :=
  match exponent.sign with
  | .minus => -digitsValue exponent.digits.characters
  | _ => digitsValue exponent.digits.characters

namespace NumberLiteral

def fractionDigits (literal : NumberLiteral) : List Char := literal.fraction.elim [] Digits.characters

def digits (literal : NumberLiteral) : List Char := literal.whole.characters ++ literal.fractionDigits

def mantissa (literal : NumberLiteral) : List Char :=
  (if literal.negative then ['-'] else []) ++ literal.whole.characters ++
    literal.fraction.elim [] fun digits => '.' :: digits.characters

def exponentText (literal : NumberLiteral) : List Char :=
  literal.exponent.elim ['0'] fun exponent => exponent.sign.characters ++ exponent.digits.characters

def text (literal : NumberLiteral) : String :=
  String.ofList (literal.mantissa ++ literal.exponent.elim [] fun exponent =>
    (if exponent.capital then 'E' else 'e') :: (exponent.sign.characters ++ exponent.digits.characters))

def power (literal : NumberLiteral) : Int :=
  literal.exponent.elim 0 Exponent.value - literal.fractionDigits.length

def value (literal : NumberLiteral) : ℚ :=
  (if literal.negative then -1 else 1) * digitsValue literal.digits * 10 ^ literal.power

end NumberLiteral

theorem head_toDigits {n : Nat} (positive : 0 < n) : (Nat.toDigits 10 n).head? ≠ some '0' := by
  induction n using Nat.strongRecOn with
  | ind n ih =>
    by_cases small : n < 10
    · rw [Nat.toDigits_of_lt_base small, List.head?_cons, Ne, Option.some.injEq]
      have digit : ∀ d < 10, 0 < d → Nat.digitChar d ≠ '0' := by decide
      exact digit n small positive
    · rw [Nat.toDigits_of_base_le (by decide) (by omega), List.head?_append_of_ne_nil _ Nat.toDigits_ne_nil]
      exact ih (n / 10) (by omega) (by omega)

def NumberLiteral.ofInt (value : Int) : NumberLiteral where
  negative := decide (value < 0)
  whole := ⟨Nat.toDigits 10 value.natAbs, Nat.toDigits_ne_nil, fun _ member => isAsciiDigit_of_mem_toDigits member⟩
  unpadded := by
    intro first
    by_cases zero : value.natAbs = 0
    · show Nat.toDigits 10 value.natAbs = ['0']
      rw [zero, Nat.toDigits_zero]
    · exact absurd first (head_toDigits (by omega))
  fraction := none
  exponent := none

namespace NumberLiteral

theorem text_ofInt (value : Int) : (ofInt value).text = toString value := by
  apply String.toList_inj.mp
  unfold text mantissa ofInt
  rw [String.toList_ofList]
  cases value with
  | ofNat n =>
    show Nat.toDigits 10 n ++ [] ++ [] = (toString n).toList
    rw [List.append_nil, List.append_nil]
    exact Nat.toList_repr.symm
  | negSucc n =>
    have negative : decide (Int.negSucc n < 0) = true := decide_eq_true (Int.negSucc_lt_zero n)
    simp only [negative, if_true, Option.elim, List.append_nil]
    show '-' :: Nat.toDigits 10 (n + 1) = ("-" ++ Nat.repr (n + 1)).toList
    rw [String.toList_append, Nat.toList_repr]
    rfl

end NumberLiteral
/-- The signed 64-bit parser: an optional sign, digits, and a value in range. -/
def parseI64 (characters : List Char) : Option Int64 :=
  if characters.head? = some '-' then
    (parseDecimal characters.tail).bind fun n => tryFrom (-(n : Int))
  else (parseDecimal (stripPlus characters)).bind fun n => tryFrom n

end Library

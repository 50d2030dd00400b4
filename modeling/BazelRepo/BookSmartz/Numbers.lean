import BazelRepo.Library.NumberLiteral
import Mathlib.Tactic.Linarith

namespace BookSmartz

open Library

def byteLength (characters : List Char) : Nat := (characters.map Char.utf8Size).sum

/-- A number's sign, its digits with no zeros around them and the power of ten that scales them. -/
def normalizedNumber (text : String) : Option (Bool × String × Int64) := do
  let (mantissa, exponent) :=
    (splitAtFirst (fun c => c == 'e' || c == 'E') text.toList).getD (text.toList, ['0'])
  let fraction := (splitAtFirst (· == '.') mantissa).elim 0 fun parts => byteLength parts.2
  let digits := (mantissa.dropWhile (· == '-')).filter (· != '.')
  let significant := digits.dropWhile (· == '0')
  if significant.isEmpty then some (false, "0", 0)
  else do
    let trimmed := significant.rdropWhile (· == '0')
    let exponent ← parseI64 exponent
    let fraction ← tryFrom fraction
    let exponent ← checkedSub exponent fraction
    let trailing ← tryFrom (byteLength significant - byteLength trimmed)
    let exponent ← checkedAdd exponent trailing
    some (mantissa.head? == some '-', String.ofList trimmed, exponent)

theorem byteLength_digits {digits : List Char} (ascii : ∀ c ∈ digits, isAsciiDigit c = true) :
    byteLength digits = digits.length := by
  induction digits with
  | nil => rfl
  | cons c rest ih =>
    have bounds := digit_bounds (ascii c List.mem_cons_self)
    have size : c.utf8Size = 1 := by
      apply Char.utf8Size_eq_one_iff.mpr
      rw [UInt32.le_iff_toNat_le]
      have same : c.val.toNat = c.toNat := rfl
      have limit : (127 : UInt32).toNat = 127 := rfl
      omega
    have tail := ih fun d member => ascii d (List.mem_cons_of_mem _ member)
    unfold byteLength at tail ⊢
    rw [List.map_cons, List.sum_cons, size, tail, List.length_cons]
    omega

section Literal

variable (literal : NumberLiteral)

theorem ascii_digits : ∀ c ∈ literal.digits, isAsciiDigit c = true := by
  intro c member
  unfold NumberLiteral.digits NumberLiteral.fractionDigits at member
  rcases List.mem_append.mp member with inside | inside
  · exact literal.whole.ascii c inside
  · cases fraction : literal.fraction with
    | none =>
      rw [fraction] at inside
      cases inside
    | some digits =>
      rw [fraction] at inside
      exact digits.ascii c inside

theorem digit_ne {c d : Char} (digit : isAsciiDigit c = true) (other : isAsciiDigit d = false) : c ≠ d := by
  intro same
  rw [same, other] at digit
  cases digit

theorem mem_mantissa {c : Char} (member : c ∈ literal.mantissa) : c = '-' ∨ c = '.' ∨ isAsciiDigit c = true := by
  unfold NumberLiteral.mantissa at member
  rcases List.mem_append.mp member with inside | inside
  · rcases List.mem_append.mp inside with inside | inside
    · split at inside
      · left
        simpa using inside
      · cases inside
    · exact .inr (.inr (literal.whole.ascii c inside))
  · right
    cases fraction : literal.fraction with
    | none =>
      rw [fraction] at inside
      cases inside
    | some digits =>
      rw [fraction] at inside
      rcases List.mem_cons.mp inside with point | inside
      · exact .inl point
      · exact .inr (digits.ascii c inside)

theorem mantissa_unmarked : ∀ c ∈ literal.mantissa, (c == 'e' || c == 'E') = false := by
  intro c member
  rcases mem_mantissa literal member with minus | point | digit
  · subst minus; decide
  · subst point; decide
  · simp [digit_ne digit (show isAsciiDigit 'e' = false by decide),
      digit_ne digit (show isAsciiDigit 'E' = false by decide)]

theorem split_text :
    (splitAtFirst (fun c => c == 'e' || c == 'E') literal.text.toList).getD (literal.text.toList, ['0']) =
      (literal.mantissa, literal.exponentText) := by
  unfold NumberLiteral.text NumberLiteral.exponentText
  rw [String.toList_ofList]
  cases literal.exponent with
  | none =>
    simp only [Option.elim, List.append_nil]
    rw [splitAtFirst_eq_none (mantissa_unmarked literal)]
    rfl
  | some exponent =>
    simp only [Option.elim]
    rw [splitAtFirst_append (mantissa_unmarked literal) (by cases exponent.capital <;> rfl)]
    rfl

theorem pointless {digits : List Char} (ascii : ∀ c ∈ digits, isAsciiDigit c = true) :
    ∀ c ∈ digits, (c == '.') = false := by
  intro c member
  simp [digit_ne (ascii c member) (show isAsciiDigit '.' = false by decide)]

theorem fraction_length :
    ((splitAtFirst (· == '.') literal.mantissa).elim 0 fun parts => byteLength parts.2) =
      literal.fractionDigits.length := by
  have front : ∀ c ∈ (if literal.negative then ['-'] else []) ++ literal.whole.characters, (c == '.') = false := by
    intro c member
    rcases List.mem_append.mp member with inside | inside
    · split at inside
      · rw [List.mem_singleton.mp inside]
        rfl
      · cases inside
    · exact pointless literal.whole.ascii c inside
  unfold NumberLiteral.mantissa NumberLiteral.fractionDigits
  cases literal.fraction with
  | none =>
    simp only [Option.elim, List.append_nil]
    rw [splitAtFirst_eq_none front]
    rfl
  | some digits =>
    simp only [Option.elim]
    rw [splitAtFirst_append front rfl]
    exact byteLength_digits digits.ascii

theorem unsigned_mantissa :
    (literal.mantissa.dropWhile (· == '-')).filter (· != '.') = literal.digits := by
  have signless : ∀ rest : List Char,
      (literal.whole.characters ++ rest).dropWhile (· == '-') = literal.whole.characters ++ rest := by
    intro rest
    cases characters : literal.whole.characters with
    | nil => exact absurd characters literal.whole.nonempty
    | cons c others =>
      have digit := literal.whole.ascii c (characters ▸ List.mem_cons_self)
      simp [digit_ne digit (show isAsciiDigit '-' = false by decide)]
  have kept : ∀ digits : List Char, (∀ c ∈ digits, isAsciiDigit c = true) →
      digits.filter (· != '.') = digits := by
    intro digits ascii
    apply List.filter_eq_self.mpr
    intro c member
    simp [bne, pointless ascii c member]
  have unsigned : literal.mantissa.dropWhile (· == '-') =
      literal.whole.characters ++ literal.fraction.elim [] fun digits => '.' :: digits.characters := by
    unfold NumberLiteral.mantissa
    rw [List.append_assoc]
    cases literal.negative with
    | true => exact signless _
    | false => exact signless _
  rw [unsigned, List.filter_append, kept _ literal.whole.ascii]
  unfold NumberLiteral.digits NumberLiteral.fractionDigits
  congr 1
  cases literal.fraction with
  | none => rfl
  | some digits =>
    show ('.' :: digits.characters).filter (· != '.') = digits.characters
    rw [List.filter_cons_of_neg (by decide), kept _ digits.ascii]

theorem starts_minus : (literal.mantissa.head? == some '-') = literal.negative := by
  unfold NumberLiteral.mantissa
  cases literal.negative with
  | true => rfl
  | false =>
    cases characters : literal.whole.characters with
    | nil => exact absurd characters literal.whole.nonempty
    | cons c others =>
      have digit := literal.whole.ascii c (characters ▸ List.mem_cons_self)
      simp [digit_ne digit (show isAsciiDigit '-' = false by decide)]

theorem parseDecimal_digits (digits : Digits) :
    parseDecimal digits.characters = some (digitsValue digits.characters) := by
  unfold parseDecimal
  rw [if_neg]
  · rfl
  · rintro (empty | foreign)
    · exact digits.nonempty empty
    · rcases List.any_eq_true.mp foreign with ⟨c, member, other⟩
      rw [digits.ascii c member] at other
      cases other

theorem parseI64_minus (digits : Digits) :
    parseI64 ('-' :: digits.characters) = tryFrom (-(digitsValue digits.characters : Int)) := by
  unfold parseI64
  rw [if_pos List.head?_cons, List.tail_cons, parseDecimal_digits, Option.bind_some]

theorem parseI64_plus (digits : Digits) :
    parseI64 ('+' :: digits.characters) = tryFrom (digitsValue digits.characters) := by
  unfold parseI64 stripPlus
  rw [if_neg (by simp), if_pos List.head?_cons, List.tail_cons, parseDecimal_digits, Option.bind_some]

theorem parseI64_unsigned (digits : Digits) :
    parseI64 digits.characters = tryFrom (digitsValue digits.characters) := by
  have plain : ∀ c : Char, isAsciiDigit c = false → digits.characters.head? ≠ some c := by
    intro c other first
    exact digit_ne (digits.ascii c (List.mem_of_head? first)) other rfl
  unfold parseI64 stripPlus
  rw [if_neg (plain '-' (by decide)), if_neg (plain '+' (by decide)), parseDecimal_digits, Option.bind_some]

theorem parseI64_exponentText {exponent : Int64} (read : parseI64 literal.exponentText = some exponent) :
    exponent.toInt = literal.exponent.elim 0 Exponent.value := by
  unfold NumberLiteral.exponentText at read
  cases spelled : literal.exponent with
  | none =>
    rw [spelled] at read
    have zero : parseI64 ['0'] = some 0 := by decide
    have same : (0 : Int64) = exponent := Option.some.inj (zero.symm.trans read)
    subst same
    rfl
  | some written =>
    rw [spelled] at read
    rcases written with ⟨capital, sign, digits⟩
    cases sign with
    | absent => exact tryFrom_eq_some.mp ((parseI64_unsigned digits).symm.trans read)
    | plus => exact tryFrom_eq_some.mp ((parseI64_plus digits).symm.trans read)
    | minus => exact tryFrom_eq_some.mp ((parseI64_minus digits).symm.trans read)

end Literal

theorem takeWhile_zeros (digits : List Char) :
    digits.takeWhile (· == '0') = List.replicate (digits.takeWhile (· == '0')).length '0' := by
  apply List.eq_replicate_of_mem
  intro c member
  simpa using List.mem_takeWhile_imp member

theorem rtakeWhile_zeros (digits : List Char) :
    digits.rtakeWhile (· == '0') = List.replicate (digits.rtakeWhile (· == '0')).length '0' := by
  apply List.eq_replicate_of_mem
  intro c member
  simpa using List.mem_rtakeWhile_imp member

theorem trimmed_digits {digits : List Char} (ascii : ∀ c ∈ digits, isAsciiDigit c = true)
    (nonzero : digits.dropWhile (· == '0') ≠ []) :
    Trimmed ((digits.dropWhile (· == '0')).rdropWhile (· == '0')) := by
  have kept : ∀ c ∈ (digits.dropWhile (· == '0')).rdropWhile (· == '0'), isAsciiDigit c = true := by
    intro c member
    have inside := (List.rdropWhile_prefix _ _).subset member
    exact ascii c ((List.dropWhile_sublist _).subset inside)
  have first := List.head_dropWhile_not (· == '0') nonzero
  have nonempty : (digits.dropWhile (· == '0')).rdropWhile (· == '0') ≠ [] := by
    intro empty
    have zero := List.rdropWhile_eq_nil_iff.mp empty _ (List.head_mem nonzero)
    rw [first] at zero
    cases zero
  refine ⟨kept, nonempty, ?_, ?_⟩
  · intro zero
    rcases List.rdropWhile_prefix (· == '0') (digits.dropWhile (· == '0')) with ⟨rest, whole⟩
    have same : (digits.dropWhile (· == '0')).head? = some '0' := by
      rw [← whole, List.head?_append, zero]
      rfl
    rw [List.head?_eq_some_head nonzero, Option.some.injEq] at same
    rw [same] at first
    cases first
  · intro zero
    have last := List.rdropWhile_last_not (· == '0') _ nonempty
    rw [List.getLast?_eq_some_getLast nonempty, Option.some.injEq] at zero
    rw [zero] at last
    exact last rfl

/-- Either all digits are zeros, or the result is the sign, the trimmed digits and the power that scales them. -/
theorem normalizedNumber_inv {literal : NumberLiteral} {result : Bool × String × Int64}
    (normalized : normalizedNumber literal.text = some result) :
    (result = (false, "0", 0) ∧ digitsValue literal.digits = 0) ∨
      ∃ digits before behind exponent, result = (literal.negative, String.ofList digits, exponent) ∧
        Trimmed digits ∧
        literal.digits = List.replicate before '0' ++ (digits ++ List.replicate behind '0') ∧
        exponent.toInt = literal.power + behind := by
  unfold normalizedNumber at normalized
  rw [split_text] at normalized
  simp only [fraction_length, unsigned_mantissa, starts_minus] at normalized
  have ascii := ascii_digits literal
  have zeros := List.takeWhile_append_dropWhile (p := (· == '0')) (l := literal.digits)
  rw [takeWhile_zeros] at zeros
  by_cases nonzero : literal.digits.dropWhile (· == '0') = []
  · left
    rw [nonzero] at normalized zeros
    rw [List.isEmpty_nil, if_pos rfl] at normalized
    refine ⟨(Option.some.inj normalized).symm, ?_⟩
    rw [← zeros, List.append_nil, digitsValue_zeros]
  · right
    have trimmed := trimmed_digits ascii nonzero
    have significant : ∀ c ∈ literal.digits.dropWhile (· == '0'), isAsciiDigit c = true :=
      fun c member => ascii c ((List.dropWhile_sublist _).subset member)
    have whole := @List.rdropWhile_append_rtakeWhile _ (· == '0') (literal.digits.dropWhile (· == '0'))
    have length := congrArg List.length whole
    rw [rtakeWhile_zeros] at whole
    rw [List.length_append] at length
    rw [if_neg (by simpa using nonzero)] at normalized
    simp only [Option.bind_eq_bind, Option.bind_eq_some_iff, Option.some.injEq] at normalized
    rcases normalized with ⟨written, read, count, counted, shifted, subtracted, trailing, measured, exponent,
      added, rfl⟩
    refine ⟨_, (literal.digits.takeWhile (· == '0')).length,
      ((literal.digits.dropWhile (· == '0')).rtakeWhile (· == '0')).length, exponent, rfl, trimmed, ?_, ?_⟩
    · rw [whole]
      exact zeros.symm
    · have written := parseI64_exponentText literal read
      have counted := tryFrom_eq_some.mp counted
      have subtracted := checkedSub_eq_some.mp subtracted
      have measured := tryFrom_eq_some.mp measured
      have added := checkedAdd_eq_some.mp added
      rw [byteLength_digits significant, byteLength_digits trimmed.ascii] at measured
      unfold NumberLiteral.power
      omega

def normalValue (result : Bool × String × Int64) : ℚ :=
  (if result.1 then -1 else 1) * digitsValue result.2.1.toList * 10 ^ result.2.2.toInt

def IsNormal (result : Bool × String × Int64) : Prop :=
  result = (false, "0", 0) ∨ Trimmed result.2.1.toList

theorem normalizedNumber_value {literal : NumberLiteral} {result : Bool × String × Int64}
    (normalized : normalizedNumber literal.text = some result) :
    IsNormal result ∧ normalValue result = literal.value := by
  rcases normalizedNumber_inv normalized with ⟨rfl, zero⟩ | ⟨digits, before, behind, exponent, rfl, trimmed, spelled, scale⟩
  · refine ⟨.inl rfl, ?_⟩
    unfold normalValue NumberLiteral.value
    rw [zero]
    simp [show digitsValue ['0'] = 0 by decide]
  · refine ⟨.inr (by rwa [String.toList_ofList]), ?_⟩
    unfold normalValue NumberLiteral.value
    rw [spelled, digitsValue_padded, String.toList_ofList, scale, zpow_add₀ (by norm_num), zpow_natCast]
    push_cast
    ring

theorem normalValue_zero : normalValue (false, "0", 0) = 0 := by
  simp [normalValue, show digitsValue ['0'] = 0 by decide]

theorem scaled_pos {digits : List Char} (trimmed : Trimmed digits) (exponent : Int) :
    (0 : ℚ) < digitsValue digits * 10 ^ exponent :=
  mul_pos (Nat.cast_pos.mpr trimmed.pos) (zpow_pos (by norm_num) _)

theorem normalValue_ne_zero {result : Bool × String × Int64} (trimmed : Trimmed result.2.1.toList) :
    normalValue result ≠ 0 := by
  have positive := scaled_pos trimmed result.2.2.toInt
  unfold normalValue
  rw [mul_assoc]
  apply mul_ne_zero _ positive.ne'
  split <;> norm_num

theorem normalValue_inj {left right : Bool × String × Int64} (first : IsNormal left) (second : IsNormal right)
    (same : normalValue left = normalValue right) : left = right := by
  rcases first with rfl | first
  · rcases second with rfl | second
    · rfl
    · rw [normalValue_zero] at same
      exact absurd same.symm (normalValue_ne_zero second)
  · rcases second with rfl | second
    · rw [normalValue_zero] at same
      exact absurd same (normalValue_ne_zero first)
    · have positive := scaled_pos first left.2.2.toInt
      have positive' := scaled_pos second right.2.2.toInt
      rcases left with ⟨sign, digits, exponent⟩
      rcases right with ⟨sign', digits', exponent'⟩
      unfold normalValue at same
      simp only [mul_assoc] at same positive positive'
      -- the sign of the value is that of the form
      have signs : sign = sign' := by
        cases sign <;> cases sign' <;> simp at same ⊢ <;> linarith
      subst signs
      have magnitudes : (digitsValue digits.toList : ℚ) * 10 ^ exponent.toInt =
          digitsValue digits'.toList * 10 ^ exponent'.toInt := by
        apply mul_left_cancel₀ _ same
        split <;> norm_num
      rcases scientific_inj first.not_dvd second.not_dvd magnitudes with ⟨significands, powers⟩
      have spellings : digits = digits' := String.toList_inj.mp (first.inj second significands)
      have exponents := Int64.toInt_inj.mp powers
      rw [spellings, exponents]

theorem normalizedNumber_eq_iff {left right : NumberLiteral} {first second : Bool × String × Int64}
    (normalized : normalizedNumber left.text = some first) (normalized' : normalizedNumber right.text = some second) :
    first = second ↔ left.value = right.value := by
  have one := normalizedNumber_value normalized
  have other := normalizedNumber_value normalized'
  rw [← one.2, ← other.2]
  exact ⟨congrArg normalValue, normalValue_inj one.1 other.1⟩

example : normalizedNumber "-0.0500e+3" = some (true, "5", 1) := by decide +kernel

end BookSmartz

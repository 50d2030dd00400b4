import BazelRepo.Coverage.Lcov
import BazelRepo.Library.JsonSyntax

namespace Coverage

open Library

structure Grouped (digits : List Char) (groups : List (List Char)) : Prop where
  nonempty : groups ≠ []
  filled : ∀ group ∈ groups, group ≠ []
  ascii : ∀ group ∈ groups, ∀ c ∈ group, isAsciiDigit c = true
  joined : ['_'].intercalate groups = digits

/-- The number that a text denotes: a sign, which may be left out, and grouped digits. -/
def Denotes (text : List Char) (number : Int) : Prop :=
  ∃ (sign : ExponentSign) (digits : List Char) (groups : List (List Char)), text = sign.characters ++ digits ∧
    Grouped digits groups ∧ number = (if sign = .minus then -1 else 1) * (digitsValue groups.flatten : Int)

namespace Natural

def Separated (digits : List Char) : Prop :=
  ∀ before c after, digits = before ++ c :: after → isAsciiDigit c = true ∨
    (c = '_' ∧ before.getLast?.any isAsciiDigit = true ∧ after.head?.any isAsciiDigit = true)

theorem separated_at {before after : List Char} {c : Char} :
    (isAsciiDigit c || (c = '_' && 0 < before.length && before.length + 1 < (before ++ c :: after).length &&
      ((before ++ c :: after)[before.length - 1]?.any isAsciiDigit) &&
      ((before ++ c :: after)[before.length + 1]?.any isAsciiDigit))) = true ↔
    isAsciiDigit c = true ∨ (c = '_' ∧ before.getLast?.any isAsciiDigit = true ∧ after.head?.any isAsciiDigit = true) := by
  have next : (before ++ c :: after)[before.length + 1]? = after.head? := by
    rw [List.getElem?_append_right (by omega), Nat.add_sub_cancel_left, List.getElem?_cons_succ, List.head?_eq_getElem?]
  have room : after.head?.any isAsciiDigit = true → before.length + 1 < (before ++ c :: after).length := by
    intro there
    cases after with
    | nil => cases there
    | cons d rest => simp
  have last : 0 < before.length → (before ++ c :: after)[before.length - 1]? = before.getLast? := by
    intro positive
    rw [List.getElem?_append_left (by omega), List.getLast?_eq_getElem?]
  have positive : before.getLast?.any isAsciiDigit = true → 0 < before.length := by
    intro there
    cases before with
    | nil => cases there
    | cons d rest => simp
  simp only [Bool.or_eq_true, Bool.and_eq_true, decide_eq_true_eq, next]
  apply or_congr Iff.rfl
  constructor
  · rintro ⟨⟨⟨⟨same, some_before⟩, _⟩, left⟩, right⟩
    rw [last some_before] at left
    exact ⟨same, left, right⟩
  · rintro ⟨same, left, right⟩
    have some_before := positive left
    rw [last some_before]
    exact ⟨⟨⟨⟨same, some_before⟩, room right⟩, left⟩, right⟩

theorem validDigits_iff {digits : List Char} : validDigits digits = true ↔ digits ≠ [] ∧ Separated digits := by
  unfold validDigits
  rw [Bool.and_eq_true, decide_eq_true_eq, List.all_eq_true]
  apply and_congr_right
  intro _
  constructor
  · rintro all before c after rfl
    have found : (before ++ c :: after)[before.length]? = some c := by simp
    exact separated_at.mp (all (c, before.length) (List.mem_zipIdx_iff_getElem?.mpr found))
  · rintro separated ⟨c, index⟩ member
    rcases List.append_of_mem member with ⟨before, after, split⟩
    rcases zipIdx_split split with ⟨rfl, same⟩
    have place := separated_at.mpr (separated _ c _ same)
    rw [← same, List.length_map] at place
    exact place

theorem head?_intercalate {group : List Char} (rest : List (List Char)) (filled : group ≠ []) :
    (['_'].intercalate (group :: rest)).head? = group.head? := by
  cases rest with
  | nil => simp [List.intercalate]
  | cons next others =>
    rw [List.intercalate_cons_cons]
    cases group with
    | nil => exact absurd rfl filled
    | cons c characters => rfl

theorem getLast?_intercalate {groups : List (List Char)} {group : List Char} (filled : group ≠ []) :
    (['_'].intercalate (groups ++ [group])).getLast? = group.getLast? := by
  induction groups with
  | nil => simp [List.intercalate]
  | cons first others ih =>
    have later : others ++ [group] ≠ [] := by simp
    rcases List.exists_cons_of_ne_nil later with ⟨next, rest, same⟩
    rw [List.cons_append, same, List.intercalate_cons_cons, ← same, List.getLast?_append, ih]
    cases last : group.getLast? with
    | none => exact absurd (List.getLast?_eq_none_iff.mp last) filled
    | some c => rfl

theorem grouped_splitOn {digits : List Char} {groups : List (List Char)} (grouped : Grouped digits groups) :
    digits.splitOn '_' = groups := by
  rw [← grouped.joined]
  apply List.splitOn_intercalate '_' _ grouped.nonempty
  intro group member inside
  exact absurd (grouped.ascii group member '_' inside) (by decide)

theorem mem_intercalate {c : Char} (apart : c ≠ '_') {groups : List (List Char)}
    (inside : c ∈ ['_'].intercalate groups) : ∃ group ∈ groups, c ∈ group := by
  induction groups with
  | nil => cases inside
  | cons group rest ih =>
    cases rest with
    | nil =>
      rw [List.intercalate_singleton] at inside
      exact ⟨group, List.mem_cons_self, inside⟩
    | cons next others =>
      rw [List.intercalate_cons_cons, List.mem_append, List.mem_append] at inside
      rcases inside with (first | separator) | later
      · exact ⟨group, List.mem_cons_self, first⟩
      · exact absurd (List.mem_singleton.mp separator) apart
      · rcases ih later with ⟨found, member, there⟩
        exact ⟨found, List.mem_cons_of_mem _ member, there⟩

theorem filter_intercalate {groups : List (List Char)} (ascii : ∀ group ∈ groups, ∀ c ∈ group, isAsciiDigit c = true) :
    (['_'].intercalate groups).filter (· ≠ '_') = groups.flatten := by
  have kept : ∀ group : List Char, (∀ c ∈ group, isAsciiDigit c = true) → group.filter (· ≠ '_') = group := by
    intro group digits
    apply List.filter_eq_self.mpr
    intro c member
    apply decide_eq_true
    rintro rfl
    exact absurd (digits '_' member) (by decide)
  induction groups with
  | nil => rfl
  | cons group rest ih =>
    have first := kept group (ascii group List.mem_cons_self)
    have later := ih fun group member => ascii group (List.mem_cons_of_mem _ member)
    cases rest with
    | nil => rw [List.intercalate_singleton, first, List.flatten_singleton]
    | cons next others =>
      have gap : ['_'].filter (· ≠ '_') = [] := by decide
      rw [List.intercalate_cons_cons, List.filter_append, List.filter_append, first, later, gap, List.append_nil]
      rfl

theorem separated_of_grouped {digits : List Char} {groups : List (List Char)} (grouped : Grouped digits groups) :
    digits ≠ [] ∧ Separated digits := by
  constructor
  · rintro rfl
    have split := grouped_splitOn grouped
    rw [List.splitOn_nil] at split
    exact grouped.filled [] (by rw [← split]; exact List.mem_singleton_self []) rfl
  · rintro before c after rfl
    by_cases same : c = '_'
    · subst same
      right
      have split := grouped_splitOn grouped
      rw [List.splitOn_append_cons_self] at split
      refine ⟨rfl, ?_, ?_⟩
      · rcases List.eq_nil_or_concat (before.splitOn '_') with none_there | ⟨earlier, last, cut⟩
        · exact absurd none_there (List.splitOn_ne_nil _ _)
        · rw [List.concat_eq_append] at cut
          have member : last ∈ groups := by
            rw [← split, cut]
            simp
          rw [← (List.intercalate_splitOn '_' : ['_'].intercalate (before.splitOn '_') = before), cut, getLast?_intercalate (grouped.filled last member)]
          cases found : last.getLast? with
          | none => exact absurd (List.getLast?_eq_none_iff.mp found) (grouped.filled last member)
          | some d => exact grouped.ascii last member d (List.mem_of_getLast? found)
      · rcases List.exists_cons_of_ne_nil (List.splitOn_ne_nil '_' after) with ⟨first, later, cut⟩
        have member : first ∈ groups := by
          rw [← split, cut]
          simp
        rw [← (List.intercalate_splitOn '_' : ['_'].intercalate (after.splitOn '_') = after), cut, head?_intercalate later (grouped.filled first member)]
        cases found : first.head? with
        | none => exact absurd (List.head?_eq_none_iff.mp found) (grouped.filled first member)
        | some d => exact grouped.ascii first member d (List.mem_of_head? found)
    · left
      have inside : c ∈ ['_'].intercalate groups := by
        rw [grouped.joined]
        simp
      rcases mem_intercalate same inside with ⟨group, member, there⟩
      exact grouped.ascii group member c there

theorem Separated.after {group digits : List Char} (separated : Separated (group ++ '_' :: digits)) : Separated digits := by
  rintro before c after rfl
  rcases separated (group ++ '_' :: before) c after (by simp) with digit | ⟨same, left, right⟩
  · exact .inl digit
  · right
    refine ⟨same, ?_, right⟩
    cases last : before.getLast? with
    | none =>
      rw [List.getLast?_eq_none_iff.mp last, List.getLast?_concat] at left
      exact absurd left (by decide)
    | some d =>
      rw [List.getLast?_append_of_ne_nil _ (List.cons_ne_nil _ _), List.getLast?_cons, last] at left
      exact left

theorem Separated.head {c : Char} {rest : List Char} (separated : Separated (c :: rest)) : isAsciiDigit c = true := by
  rcases separated [] c rest rfl with digit | ⟨_, left, _⟩
  · exact digit
  · cases left

/-- By the number of underscores: the digits before the first of them are a group. -/
theorem grouped_of_separated (digits : List Char) (nonempty : digits ≠ []) (separated : Separated digits) :
    ∃ groups, Grouped digits groups := by
  have cut := List.takeWhile_append_dropWhile (p := isAsciiDigit) (l := digits)
  have ascii : ∀ c ∈ digits.takeWhile isAsciiDigit, isAsciiDigit c = true := fun c member => List.mem_takeWhile_imp member
  have filled : digits.takeWhile isAsciiDigit ≠ [] := by
    cases digits with
    | nil => exact absurd rfl nonempty
    | cons c rest => simp [separated.head]
  cases rest : digits.dropWhile isAsciiDigit with
  | nil =>
    rw [rest, List.append_nil] at cut
    exact ⟨[digits.takeWhile isAsciiDigit], by simp, by simpa using filled, by simpa using ascii, by
      rw [List.intercalate_singleton, cut]⟩
  | cons c after =>
    rw [rest] at cut
    have other : isAsciiDigit c = false := by
      have found := List.head?_dropWhile_not isAsciiDigit digits
      rw [rest] at found
      simpa using found
    rcases separated _ c after cut.symm with digit | ⟨rfl, _, right⟩
    · rw [other] at digit
      cases digit
    · have more : after ≠ [] := by
        rintro rfl
        cases right
      have shorter : after.length < digits.length := by
        rw [← cut, List.length_append, List.length_cons]
        omega
      have tail : Separated after := by
        rw [← cut] at separated
        exact separated.after
      rcases grouped_of_separated after more tail with ⟨groups, grouped⟩
      refine ⟨digits.takeWhile isAsciiDigit :: groups, List.cons_ne_nil _ _, ?_, ?_, ?_⟩
      · intro group member
        rcases List.mem_cons.mp member with rfl | later
        · exact filled
        · exact grouped.filled group later
      · intro group member
        rcases List.mem_cons.mp member with rfl | later
        · exact ascii
        · exact grouped.ascii group later
      · rcases List.exists_cons_of_ne_nil grouped.nonempty with ⟨next, others, same⟩
        rw [same, List.intercalate_cons_cons, ← same, grouped.joined, List.append_assoc]
        exact cut
termination_by digits.length

structure Canonical (digits : List Char) : Prop where
  nonempty : digits ≠ []
  ascii : ∀ c ∈ digits, isAsciiDigit c = true
  unpadded : digits.head? = some '0' → digits = ['0']

theorem digitsValue_cons (c : Char) (rest : List Char) :
    digitsValue (c :: rest) = (c.toNat - 48) * 10 ^ rest.length + digitsValue rest := by
  rw [← List.singleton_append, digitsValue_append, digitsValue_singleton]

theorem digitsValue_lt {digits : List Char} (ascii : ∀ c ∈ digits, isAsciiDigit c = true) :
    digitsValue digits < 10 ^ digits.length := by
  induction digits with
  | nil => decide
  | cons c rest ih =>
    have tail := ih fun d member => ascii d (List.mem_cons_of_mem _ member)
    have bounds := digit_bounds (ascii c List.mem_cons_self)
    rw [digitsValue_cons, List.length_cons, Nat.pow_succ]
    have first : (c.toNat - 48) * 10 ^ rest.length ≤ 9 * 10 ^ rest.length := Nat.mul_le_mul_right _ (by omega)
    omega

theorem digitsValue_ge {c : Char} (rest : List Char) (digit : isAsciiDigit c = true) (nonzero : c ≠ '0') :
    10 ^ rest.length ≤ digitsValue (c :: rest) := by
  have positive := digit_ne_zero digit nonzero
  have first : 1 * 10 ^ rest.length ≤ (c.toNat - 48) * 10 ^ rest.length := Nat.mul_le_mul_right _ positive
  rw [digitsValue_cons]
  omega

theorem digitsValue_lt_of_length {left right : List Char} (first : Canonical left) (second : Canonical right)
    (less : left.length < right.length) : digitsValue left < digitsValue right := by
  have upper := digitsValue_lt first.ascii
  cases right with
  | nil => cases less
  | cons c rest =>
    have positive : 0 < left.length := List.length_pos_iff.mpr first.nonempty
    have nonzero : c ≠ '0' := by
      rintro rfl
      have alone := congrArg List.length (second.unpadded rfl)
      rw [alone, List.length_singleton] at less
      omega
    have lower := digitsValue_ge rest (second.ascii c List.mem_cons_self) nonzero
    have power : 10 ^ left.length ≤ 10 ^ rest.length := by
      apply Nat.pow_le_pow_right (by decide)
      rw [List.length_cons] at less
      omega
    omega

theorem digitsValue_lt_of_lex {left right : List Char} (ascii : ∀ c ∈ left, isAsciiDigit c = true)
    (ascii' : ∀ c ∈ right, isAsciiDigit c = true) (same : left.length = right.length) (less : left < right) :
    digitsValue left < digitsValue right := by
  induction less with
  | nil => cases same
  | @rel c rest d others first =>
    have upper := digitsValue_lt fun e member => ascii e (List.mem_cons_of_mem c member)
    have bounds := digit_bounds (ascii c List.mem_cons_self)
    have apart : c.toNat < d.toNat := first
    have digits : (c.toNat - 48 + 1) * 10 ^ rest.length ≤ (d.toNat - 48) * 10 ^ rest.length :=
      Nat.mul_le_mul_right _ (by omega)
    rw [Nat.add_mul] at digits
    rw [digitsValue_cons, digitsValue_cons, ← Nat.succ.inj same]
    omega
  | @cons c rest others _ ih =>
    have later := ih (fun e member => ascii e (List.mem_cons_of_mem _ member))
      (fun e member => ascii' e (List.mem_cons_of_mem _ member)) (Nat.succ.inj same)
    rw [digitsValue_cons, digitsValue_cons, Nat.succ.inj same]
    omega

theorem Canonical.size {text : String} (canonical : Canonical text.toList) : text.utf8ByteSize = text.toList.length := by
  rw [← utf8Len_toList]
  apply utf8Len_of_ascii
  intro c member
  have bounds := digit_bounds (canonical.ascii c member)
  omega

theorem compare_lt {a b : Natural} (first : Canonical a.text.toList) (second : Canonical b.text.toList)
    (less : a.text.toList.length < b.text.toList.length ∨ a.text.toList.length = b.text.toList.length ∧ a.text < b.text) :
    compare a b = .lt ∧ digitsValue a.text.toList < digitsValue b.text.toList := by
  have unfolded : compare a b = (compare a.text.utf8ByteSize b.text.utf8ByteSize).then (compare a.text b.text) := rfl
  rw [unfolded, first.size, second.size]
  rcases less with shorter | ⟨same, before⟩
  · rw [Nat.compare_eq_lt.mpr shorter]
    exact ⟨rfl, digitsValue_lt_of_length first second shorter⟩
  · rw [same, Nat.compare_eq_eq.mpr rfl, compare_lt_iff_lt.mpr before]
    exact ⟨rfl, digitsValue_lt_of_lex first.ascii second.ascii same (String.lt_iff_toList_lt.mp before)⟩

theorem compare_eq {a b : Natural} (first : Canonical a.text.toList) (second : Canonical b.text.toList) :
    compare a b = compare (digitsValue a.text.toList) (digitsValue b.text.toList) := by
  rcases lt_trichotomy a.text.toList.length b.text.toList.length with shorter | same | longer
  · rcases compare_lt first second (.inl shorter) with ⟨order, less⟩
    rw [order, Nat.compare_eq_lt.mpr less]
  · rcases lt_trichotomy a.text b.text with before | equal | behind
    · rcases compare_lt first second (.inr ⟨same, before⟩) with ⟨order, less⟩
      rw [order, Nat.compare_eq_lt.mpr less]
    · have alike : a = b := congrArg Natural.mk equal
      have self : compare b b = .eq := Std.ReflCmp.compare_self
      rw [alike, self, Nat.compare_eq_eq.mpr rfl]
    · rcases compare_lt second first (.inr ⟨same.symm, behind⟩) with ⟨order, less⟩
      rw [Std.OrientedCmp.gt_of_lt order, Nat.compare_eq_gt.mpr less]
  · rcases compare_lt second first (.inl longer) with ⟨order, less⟩
    rw [Std.OrientedCmp.gt_of_lt order, Nat.compare_eq_gt.mpr less]

theorem compare_natCast (m n : Nat) : compare (m : Int) (n : Int) = compare m n := by
  rcases lt_trichotomy m n with less | same | greater
  · rw [compare_lt_iff_lt.mpr less, compare_lt_iff_lt.mpr (Int.ofNat_lt.mpr less)]
  · rw [same, compare_eq_iff_eq.mpr rfl, compare_eq_iff_eq.mpr rfl]
  · rw [compare_gt_iff_gt.mpr greater, compare_gt_iff_gt.mpr (Int.ofNat_lt.mpr greater)]

def signed (characters : List Char) : Bool × List Char :=
  match characters with
  | '-' :: digits => (true, digits)
  | '+' :: digits => (false, digits)
  | digits => (false, digits)

def stripped (digits : List Char) : List Char := (digits.filter (· ≠ '_')).dropWhile (· = '0')

theorem signed_split (characters : List Char) :
    ∃ sign : ExponentSign, characters = sign.characters ++ (signed characters).2 ∧
      (signed characters).1 = decide (sign = .minus) := by
  unfold signed
  split
  · exact ⟨.minus, rfl, rfl⟩
  · exact ⟨.plus, rfl, rfl⟩
  · exact ⟨.absent, rfl, rfl⟩

theorem signed_append (sign : ExponentSign) {digits : List Char} (separated : Separated digits) :
    signed (sign.characters ++ digits) = (decide (sign = .minus), digits) := by
  cases sign with
  | plus => rfl
  | minus => rfl
  | absent =>
    show signed digits = (false, digits)
    unfold signed
    split
    · exact absurd separated.head (by decide)
    · exact absurd separated.head (by decide)
    · rfl

theorem parse_eq (text : String) : parse text =
    if validDigits (signed (trim text).toList).2 = false ∨
        ((signed (trim text).toList).1 = true ∧ stripped (signed (trim text).toList).2 ≠ []) then
      invalid s!"invalid literal for nonnegative int: '{trim text}'"
    else
      .ok ⟨if stripped (signed (trim text).toList).2 = [] then "0"
        else String.ofList (stripped (signed (trim text).toList).2)⟩ := rfl

theorem digitsValue_dropWhile (digits : List Char) : digitsValue (digits.dropWhile (· = '0')) = digitsValue digits := by
  induction digits with
  | nil => rfl
  | cons c rest ih =>
    by_cases zero : c = '0'
    · rw [List.dropWhile_cons_of_pos (by simpa using zero), ih, zero, digitsValue_cons]
      simp
    · rw [List.dropWhile_cons_of_neg (by simpa using zero)]

theorem stripped_grouped {digits : List Char} {groups : List (List Char)} (grouped : Grouped digits groups) :
    digitsValue (stripped digits) = digitsValue groups.flatten ∧
      (stripped digits = [] ∨ (Canonical (stripped digits) ∧ 0 < digitsValue (stripped digits))) := by
  have flat : digits.filter (· ≠ '_') = groups.flatten := by
    rw [← grouped.joined, filter_intercalate grouped.ascii]
  have ascii : ∀ c ∈ stripped digits, isAsciiDigit c = true := by
    intro c member
    have inside : c ∈ digits.filter (· ≠ '_') := (List.dropWhile_suffix _).subset member
    rw [flat, List.mem_flatten] at inside
    rcases inside with ⟨group, there, within⟩
    exact grouped.ascii group there c within
  constructor
  · rw [stripped, digitsValue_dropWhile, flat]
  · cases cut : stripped digits with
    | nil => exact .inl rfl
    | cons c rest =>
      right
      rw [cut] at ascii
      have nonzero : c ≠ '0' := by
        have found := List.head?_dropWhile_not (· = '0') (digits.filter (· ≠ '_'))
        rw [← stripped, cut] at found
        simpa using found
      have digit := ascii c List.mem_cons_self
      refine ⟨⟨List.cons_ne_nil _ _, ascii, ?_⟩, ?_⟩
      · intro zero
        exact absurd (Option.some.inj zero) nonzero
      · exact Nat.lt_of_lt_of_le (Nat.pow_pos (by decide)) (digitsValue_ge rest digit nonzero)

/-- What is accepted: the digits are those of the number that the text denotes. -/
theorem parse_ok {text : String} {value : Natural} (accepted : parse text = .ok value) :
    Denotes (trim text).toList (digitsValue value.text.toList) ∧ Canonical value.text.toList := by
  rw [parse_eq] at accepted
  split at accepted
  · cases accepted
  · rename_i rejected
    rcases not_or.mp rejected with ⟨valid, positive⟩
    rcases signed_split (trim text).toList with ⟨sign, split, negative⟩
    rw [negative, decide_eq_true_eq] at positive
    have checked := Bool.eq_true_of_not_eq_false valid
    rcases validDigits_iff.mp checked with ⟨nonempty, separated⟩
    rcases grouped_of_separated _ nonempty separated with ⟨groups, grouped⟩
    rcases stripped_grouped grouped with ⟨number, zero | ⟨canonical, above⟩⟩
    · rw [if_pos zero] at accepted
      cases accepted
      rw [zero] at number
      constructor
      · refine ⟨sign, _, groups, split, grouped, ?_⟩
        rw [← number, digitsValue_nil, Nat.cast_zero, mul_zero]
        rfl
      · refine ⟨by decide, ?_, fun _ => rfl⟩
        intro c member
        have only : c = '0' := List.mem_singleton.mp member
        rw [only]
        decide
    · have some_digits : stripped (signed (trim text).toList).2 ≠ [] := canonical.nonempty
      rw [if_neg some_digits] at accepted
      have text_of : value.text.toList = stripped (signed (trim text).toList).2 := by
        rw [← Except.ok.inj accepted, String.toList_ofList]
      rw [text_of]
      constructor
      · refine ⟨sign, _, groups, split, grouped, ?_⟩
        rw [if_neg (fun minus => positive ⟨minus, some_digits⟩), number, one_mul]
      · exact canonical

theorem parse_of_denotes {text : String} {number : Int} (denotes : Denotes (trim text).toList number) (sound : 0 ≤ number) :
    ∃ value, parse text = .ok value := by
  rcases denotes with ⟨sign, digits, groups, split, grouped, rfl⟩
  rcases separated_of_grouped grouped with ⟨nonempty, separated⟩
  rcases stripped_grouped grouped with ⟨same, form⟩
  have read := signed_append sign separated
  rw [← split] at read
  rw [parse_eq, read]
  have valid : validDigits digits = true := validDigits_iff.mpr ⟨nonempty, separated⟩
  have positive : sign = .minus → stripped digits = [] := by
    intro minus
    rcases form with zero | ⟨_, above⟩
    · exact zero
    · rw [if_pos minus] at sound
      omega
  rw [if_neg]
  · exact ⟨_, rfl⟩
  · rintro (invalid | ⟨minus, some_digits⟩)
    · rw [valid] at invalid
      cases invalid
    · exact some_digits (positive (of_decide_eq_true minus))

theorem denotes_unique {text : List Char} {m n : Int} (first : Denotes text m) (second : Denotes text n) : m = n := by
  rcases first with ⟨sign, digits, groups, rfl, grouped, rfl⟩
  rcases second with ⟨sign', digits', groups', split, grouped', rfl⟩
  have left := signed_append sign (separated_of_grouped grouped).2
  have right := signed_append sign' (separated_of_grouped grouped').2
  rw [split, right, Prod.mk.injEq, decide_eq_decide] at left
  rcases left with ⟨signs, rfl⟩
  have same : groups' = groups := (grouped_splitOn grouped').symm.trans (grouped_splitOn grouped)
  rw [same, if_congr signs rfl rfl]

end Natural

/-- What is accepted, when two values are equal, and in which order they stand. -/
theorem naturals_exact :
    (∀ text, (∃ value, Natural.parse text = .ok value) ↔ ∃ number : Int, Denotes (trim text).toList number ∧ 0 ≤ number) ∧
    (∀ text text' value value', Natural.parse text = .ok value → Natural.parse text' = .ok value' →
      ((value = value') ↔ ∃ number : Int, Denotes (trim text).toList number ∧ Denotes (trim text').toList number) ∧
      ∀ number number' : Int, Denotes (trim text).toList number → Denotes (trim text').toList number' →
        compare value value' = compare number number') := by
  have order : ∀ text text' value value', Natural.parse text = .ok value → Natural.parse text' = .ok value' →
      ∀ number number' : Int, Denotes (trim text).toList number → Denotes (trim text').toList number' →
        compare value value' = compare number number' := by
    intro text text' value value' first second number number' left right
    rcases Natural.parse_ok first with ⟨denotes, canonical⟩
    rcases Natural.parse_ok second with ⟨denotes', canonical'⟩
    rw [Natural.compare_eq canonical canonical', Natural.denotes_unique left denotes, Natural.denotes_unique right denotes',
      Natural.compare_natCast]
  constructor
  · intro text
    constructor
    · rintro ⟨value, accepted⟩
      exact ⟨_, (Natural.parse_ok accepted).1, Int.natCast_nonneg _⟩
    · rintro ⟨number, denotes, sound⟩
      exact Natural.parse_of_denotes denotes sound
  · intro text text' value value' first second
    refine ⟨⟨?_, ?_⟩, order text text' value value' first second⟩
    · rintro rfl
      exact ⟨_, (Natural.parse_ok first).1, (Natural.parse_ok second).1⟩
    · rintro ⟨number, left, right⟩
      have equal := order text text' value value' first second number number left right
      apply Std.LawfulEqOrd.eq_of_compare
      rw [equal]
      exact Std.ReflCmp.compare_self

end Coverage

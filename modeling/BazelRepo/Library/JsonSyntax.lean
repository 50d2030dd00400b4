import BazelRepo.Library.JsonText

namespace Library

/-- A character within the quotes of a text: itself, a letter for it or its code. -/
def escapeChar (c : Char) : List Char :=
  if c = '"' then ['\\', '"']
  else if c = '\\' then ['\\', '\\']
  else if c = '\n' then ['\\', 'n']
  else if c = '\r' then ['\\', 'r']
  else if c = '\t' then ['\\', 't']
  else if c.toNat = 0x8 then ['\\', 'b']
  else if c.toNat = 0xC then ['\\', 'f']
  else if c.toNat < 0x20 then '\\' :: 'u' :: fixedDigits 16 4 c.toNat
  else [c]

def quote (text : String) : List Char := '"' :: text.toList.flatMap escapeChar ++ ['"']

mutual

def Json.render : Json → List Char
  | .null => "null".toList
  | .bool value => (if value then "true" else "false").toList
  | .number value => value.text.toList
  | .string value => quote value
  | .array values => '[' :: Json.renderValues values ++ [']']
  | .object fields => '\x7b' :: Json.renderFields fields ++ ['\x7d']

def Json.renderValues : List Json → List Char
  | [] => []
  | [value] => value.render
  | value :: rest => value.render ++ ',' :: Json.renderValues rest

def Json.renderFields : List (String × Json) → List Char
  | [] => []
  | [(name, value)] => quote name ++ ':' :: value.render
  | (name, value) :: rest => quote name ++ ':' :: value.render ++ ',' :: Json.renderFields rest

end

namespace JsonSyntax

inductive Characters : List Char → Prop where
  | nil : Characters []
  | plain {c : Char} {rest : List Char} (visible : 0x20 ≤ c.toNat) (quote : c ≠ '"') (escape : c ≠ '\\')
      (later : Characters rest) : Characters (c :: rest)
  | letter {c : Char} {rest : List Char} (known : c ∈ "\"\\/bfnrt".toList) (later : Characters rest) :
      Characters ('\\' :: c :: rest)
  | code {digits rest : List Char} (four : digits.length = 4) (hexadecimal : ∀ c ∈ digits, isAsciiHexdigit c = true)
      (later : Characters rest) : Characters ('\\' :: 'u' :: (digits ++ rest))

inductive Text : List Char → Prop where
  | quoted {characters : List Char} (within : Characters characters) : Text ('"' :: characters ++ ['"'])

mutual

inductive Value : List Char → Prop where
  | null : Value "null".toList
  | true : Value "true".toList
  | false : Value "false".toList
  | number (literal : NumberLiteral) : Value literal.text.toList
  | string {characters : List Char} (text : Text characters) : Value characters
  | emptyArray : Value ['[', ']']
  | array {within : List Char} (items : Items within) : Value ('[' :: within ++ [']'])
  | emptyObject : Value ['\x7b', '\x7d']
  | object {within : List Char} (members : Members within) : Value ('\x7b' :: within ++ ['\x7d'])

inductive Items : List Char → Prop where
  | last {characters : List Char} (value : Value characters) : Items characters
  | more {characters rest : List Char} (value : Value characters) (later : Items rest) : Items (characters ++ ',' :: rest)

inductive Members : List Char → Prop where
  | last {name characters : List Char} (text : Text name) (value : Value characters) : Members (name ++ ':' :: characters)
  | more {name characters rest : List Char} (text : Text name) (value : Value characters) (later : Members rest) :
      Members (name ++ ':' :: characters ++ ',' :: rest)

end

theorem Characters.append {left right : List Char} (first : Characters left) (second : Characters right) :
    Characters (left ++ right) := by
  induction first with
  | nil => exact second
  | plain visible quote escape _ ih => exact .plain visible quote escape ih
  | letter known _ ih => exact .letter known ih
  | code four hexadecimal _ ih =>
    rw [List.cons_append, List.cons_append, List.append_assoc]
    exact .code four hexadecimal ih

end JsonSyntax

theorem escapeChar_characters (c : Char) : JsonSyntax.Characters (escapeChar c) := by
  unfold escapeChar
  by_cases quoted : c = '"'
  · rw [if_pos quoted]
    exact .letter (by decide) .nil
  rw [if_neg quoted]
  by_cases slash : c = '\\'
  · rw [if_pos slash]
    exact .letter (by decide) .nil
  rw [if_neg slash]
  split
  · exact .letter (by decide) .nil
  split
  · exact .letter (by decide) .nil
  split
  · exact .letter (by decide) .nil
  split
  · exact .letter (by decide) .nil
  split
  · exact .letter (by decide) .nil
  split
  · have code : JsonSyntax.Characters ('\\' :: 'u' :: (fixedDigits 16 4 c.toNat ++ [])) :=
      .code (length_fixedDigits 16 4 _) (fun digit member => isAsciiHexdigit_fixedDigits member) .nil
    rwa [List.append_nil] at code
  · rename_i visible
    exact .plain (Nat.le_of_not_lt visible) quoted slash .nil

theorem quote_text (text : String) : JsonSyntax.Text (quote text) := by
  apply JsonSyntax.Text.quoted
  induction text.toList with
  | nil => exact .nil
  | cons c rest ih =>
    rw [List.flatMap_cons]
    exact (escapeChar_characters c).append ih

mutual

def Json.integral : Json → Bool
  | .number (.decimal _) => false
  | .array values => Json.integralValues values
  | .object fields => Json.integralFields fields
  | _ => true

def Json.integralValues : List Json → Bool
  | [] => true
  | value :: rest => value.integral && Json.integralValues rest

def Json.integralFields : List (String × Json) → Bool
  | [] => true
  | (_, value) :: rest => value.integral && Json.integralFields rest

end

theorem integralValues_iff {values : List Json} : Json.integralValues values = true ↔ ∀ value ∈ values, value.integral = true := by
  induction values with
  | nil => simp [Json.integralValues]
  | cons value rest ih => simp [Json.integralValues, ih]

theorem integralFields_iff {fields : List (String × Json)} :
    Json.integralFields fields = true ↔ ∀ field ∈ fields, field.2.integral = true := by
  induction fields with
  | nil => simp [Json.integralFields]
  | cons field rest ih => simp [Json.integralFields, ih]

mutual

theorem render_value : ∀ value : Json, value.integral = true → JsonSyntax.Value value.render
  | .null, _ => .null
  | .bool true, _ => .true
  | .bool false, _ => .false
  | .number (.integer number), _ => by
    rw [Json.render, Number.text, ← NumberLiteral.text_ofInt]
    exact .number _
  | .string text, _ => .string (quote_text text)
  | .array values, integral => by
    by_cases empty : values = []
    · rw [empty]
      exact .emptyArray
    · exact .array (renderValues_items values empty integral)
  | .object fields, integral => by
    by_cases empty : fields = []
    · rw [empty]
      exact .emptyObject
    · exact .object (renderFields_members fields empty integral)

theorem renderValues_items : ∀ values : List Json, values ≠ [] → Json.integralValues values = true →
    JsonSyntax.Items (Json.renderValues values)
  | [], nonempty, _ => absurd rfl nonempty
  | [value], _, integral => .last (render_value value (by simpa [Json.integralValues] using integral))
  | value :: next :: rest, _, integral => by
    rw [Json.integralValues, Bool.and_eq_true] at integral
    exact .more (render_value value integral.1) (renderValues_items (next :: rest) (List.cons_ne_nil _ _) integral.2)

theorem renderFields_members : ∀ fields : List (String × Json), fields ≠ [] → Json.integralFields fields = true →
    JsonSyntax.Members (Json.renderFields fields)
  | [], nonempty, _ => absurd rfl nonempty
  | [(name, value)], _, integral =>
    .last (quote_text name) (render_value value (by simpa [Json.integralFields] using integral))
  | (name, value) :: next :: rest, _, integral => by
    rw [Json.integralFields, Bool.and_eq_true] at integral
    exact .more (quote_text name) (render_value value integral.1)
      (renderFields_members (next :: rest) (List.cons_ne_nil _ _) integral.2)

end

def utf8Len (characters : List Char) : Nat := (characters.map Char.utf8Size).sum

@[simp] theorem utf8Len_nil : utf8Len [] = 0 := rfl

@[simp] theorem utf8Len_cons (c : Char) (rest : List Char) : utf8Len (c :: rest) = c.utf8Size + utf8Len rest := rfl

@[simp] theorem utf8Len_append (left right : List Char) : utf8Len (left ++ right) = utf8Len left + utf8Len right := by
  unfold utf8Len
  rw [List.map_append, List.sum_append]

theorem utf8ByteSize_ofList (characters : List Char) : (String.ofList characters).utf8ByteSize = utf8Len characters := by
  induction characters with
  | nil => rfl
  | cons c rest ih =>
    have split : String.ofList (c :: rest) = String.singleton c ++ String.ofList rest := by
      apply String.toList_inj.mp
      simp
    rw [split, String.utf8ByteSize_append, String.utf8ByteSize_singleton, ih, utf8Len_cons]

theorem utf8Len_toList (text : String) : utf8Len text.toList = text.utf8ByteSize := by
  rw [← utf8ByteSize_ofList, String.ofList_toList]

theorem utf8Size_of_ascii {c : Char} (ascii : c.toNat ≤ 0x7F) : c.utf8Size = 1 :=
  Char.utf8Size_eq_one_iff.mpr (UInt32.le_iff_toNat_le.mpr ascii)

theorem utf8Len_of_ascii {characters : List Char} (ascii : ∀ c ∈ characters, c.toNat ≤ 0x7F) :
    utf8Len characters = characters.length := by
  induction characters with
  | nil => rfl
  | cons c rest ih =>
    rw [utf8Len_cons, utf8Size_of_ascii (ascii c List.mem_cons_self), ih fun d member => ascii d (List.mem_cons_of_mem _ member),
      List.length_cons, Nat.add_comm]

theorem utf8Len_escapeChar {c : Char} (visible : 0x20 ≤ c.toNat) : utf8Len (escapeChar c) ≤ 2 * c.utf8Size := by
  have positive := c.utf8Size_pos
  have pair : ∀ d : Char, d.toNat ≤ 0x7F → utf8Len ['\\', d] = 2 := by
    intro d ascii
    exact utf8Len_of_ascii (by simp [ascii])
  unfold escapeChar
  split
  · rw [pair _ (by decide)]
    omega
  split
  · rw [pair _ (by decide)]
    omega
  split
  · rw [pair _ (by decide)]
    omega
  split
  · rw [pair _ (by decide)]
    omega
  split
  · rw [pair _ (by decide)]
    omega
  split
  · omega
  split
  · omega
  split
  · omega
  · rw [utf8Len_cons, utf8Len_nil]
    omega

theorem utf8Len_quote {text : String} (visible : ∀ c ∈ text.toList, 0x20 ≤ c.toNat) :
    utf8Len (quote text) ≤ 2 * text.utf8ByteSize + 2 := by
  have marks : utf8Len ['"'] = 1 := by decide
  have within : ∀ characters : List Char, (∀ c ∈ characters, 0x20 ≤ c.toNat) →
      utf8Len (characters.flatMap escapeChar) ≤ 2 * utf8Len characters := by
    intro characters
    induction characters with
    | nil => simp
    | cons c rest ih =>
      intro plain
      have first := utf8Len_escapeChar (plain c List.mem_cons_self)
      have later := ih fun d member => plain d (List.mem_cons_of_mem _ member)
      rw [List.flatMap_cons, utf8Len_append, utf8Len_cons]
      omega
  have middle := within text.toList visible
  rw [utf8Len_toList] at middle
  unfold quote
  rw [utf8Len_append, ← List.singleton_append, utf8Len_append, marks]
  omega

namespace JsonSyntax

/-- No character of a text is a control character, so it is a single line. -/
def Visible (characters : List Char) : Prop := ∀ c ∈ characters, 0x20 ≤ c.toNat

theorem Visible.append {left right : List Char} (first : Visible left) (second : Visible right) : Visible (left ++ right) := by
  intro c member
  rcases List.mem_append.mp member with before | after
  · exact first c before
  · exact second c after

theorem Visible.cons {c : Char} {rest : List Char} (first : 0x20 ≤ c.toNat) (later : Visible rest) : Visible (c :: rest) := by
  intro d member
  rcases List.mem_cons.mp member with rfl | after
  · exact first
  · exact later d after

theorem visible_of_all {characters : List Char} (all : (characters.all fun c => 0x20 ≤ c.toNat) = true) : Visible characters := by
  intro c member
  simpa using List.all_eq_true.mp all c member

theorem visible_digits {digits : List Char} (ascii : ∀ c ∈ digits, isAsciiDigit c = true) : Visible digits := by
  intro c member
  have bounds := digit_bounds (ascii c member)
  omega

theorem visible_literal (literal : NumberLiteral) : Visible literal.text.toList := by
  have fraction : Visible (literal.fraction.elim [] fun digits => '.' :: digits.characters) := by
    cases literal.fraction with
    | none => exact nofun
    | some digits => exact .cons (by decide) (visible_digits digits.ascii)
  have sign : ∀ sign : ExponentSign, Visible sign.characters := by
    intro sign
    cases sign <;> exact visible_of_all (by decide)
  have exponent : Visible (literal.exponent.elim [] fun exponent =>
      (if exponent.capital then 'E' else 'e') :: (exponent.sign.characters ++ exponent.digits.characters)) := by
    cases literal.exponent with
    | none => exact nofun
    | some exponent =>
      apply Visible.cons
      · cases exponent.capital <;> decide
      · exact (sign exponent.sign).append (visible_digits exponent.digits.ascii)
  have minus : Visible (if literal.negative then ['-'] else []) := by
    cases literal.negative <;> exact visible_of_all (by decide)
  unfold NumberLiteral.text NumberLiteral.mantissa
  rw [String.toList_ofList]
  exact ((minus.append (visible_digits literal.whole.ascii)).append fraction).append exponent

theorem Characters.visible {characters : List Char} (within : Characters characters) : Visible characters := by
  have letters : Visible "\"\\/bfnrt".toList := visible_of_all (by decide)
  induction within with
  | nil => exact nofun
  | plain visible _ _ _ ih => exact .cons visible ih
  | letter known _ ih => exact .cons (by decide) (.cons (letters _ known) ih)
  | code _ hexadecimal _ ih =>
    have digits : Visible _ := fun c member => by
      have digit := hexadecimal c member
      simp only [isAsciiHexdigit, isAsciiDigit, Bool.or_eq_true, Bool.and_eq_true, decide_eq_true_eq] at digit
      omega
    exact .cons (by decide) (.cons (by decide) (digits.append ih))

theorem Text.visible {characters : List Char} (text : Text characters) : Visible characters := by
  cases text with
  | quoted within => exact (Visible.cons (by decide) within.visible).append (visible_of_all (by decide))

mutual

theorem Value.visible : ∀ {characters : List Char}, Value characters → Visible characters
  | _, .null => visible_of_all (by decide)
  | _, .true => visible_of_all (by decide)
  | _, .false => visible_of_all (by decide)
  | _, .number literal => visible_literal literal
  | _, .string text => text.visible
  | _, .emptyArray => visible_of_all (by decide)
  | _, .array items => (Visible.cons (by decide) items.visible).append (visible_of_all (by decide))
  | _, .emptyObject => visible_of_all (by decide)
  | _, .object members => (Visible.cons (by decide) members.visible).append (visible_of_all (by decide))

theorem Items.visible : ∀ {characters : List Char}, Items characters → Visible characters
  | _, .last value => value.visible
  | _, .more value later => value.visible.append (.cons (by decide) later.visible)

theorem Members.visible : ∀ {characters : List Char}, Members characters → Visible characters
  | _, .last text value => text.visible.append (.cons (by decide) value.visible)
  | _, .more text value later =>
    (text.visible.append (.cons (by decide) value.visible)).append (.cons (by decide) later.visible)

end

end JsonSyntax

end Library

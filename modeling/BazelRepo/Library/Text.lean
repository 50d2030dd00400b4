import Mathlib.Data.List.Basic
import Mathlib.Data.List.TakeWhile
import Mathlib.Data.String.Basic

namespace Library

/-- Sets of texts are listed in the order of their characters. -/
instance text_isTrans : IsTrans String (· ≤ ·) := inferInstance

instance text_antisymm : Std.Antisymm fun one other : String => one ≤ other := inferInstance

def isWhiteSpace (c : Char) : Bool :=
  let code := c.toNat
  (0x9 ≤ code && code ≤ 0xD) || code == 0x20 || code == 0x85 || code == 0xA0 || code == 0x1680 ||
    (0x2000 ≤ code && code ≤ 0x200A) || code == 0x2028 || code == 0x2029 || code == 0x202F ||
    code == 0x205F || code == 0x3000

def trim (text : String) : String :=
  String.ofList ((text.toList.dropWhile isWhiteSpace).reverse.dropWhile isWhiteSpace).reverse

/-- The lowercase mapping of a Unicode version; nothing here depends on which one it is. -/
class Lowercase where
  toLowercase : String → String

abbrev asciiLowercase : Lowercase := ⟨String.map Char.toLower⟩

def isAsciiDigit (c : Char) : Bool :=
  0x30 ≤ c.toNat && c.toNat ≤ 0x39

def isAsciiHexdigit (c : Char) : Bool :=
  isAsciiDigit c || (0x41 ≤ c.toNat && c.toNat ≤ 0x46) || (0x61 ≤ c.toNat && c.toNat ≤ 0x66)

def isAsciiLowercase (c : Char) : Bool :=
  0x61 ≤ c.toNat && c.toNat ≤ 0x7A

def splitOnce (separator : List Char) : List Char → Option (List Char × List Char)
  | [] => if separator.isEmpty then some ([], []) else none
  | c :: rest =>
    if separator.isPrefixOf (c :: rest) then some ([], (c :: rest).drop separator.length)
    else (splitOnce separator rest).map fun found => (c :: found.1, found.2)

def splitAtFirst (separates : Char → Bool) : List Char → Option (List Char × List Char)
  | [] => none
  | c :: rest =>
    if separates c then some ([], rest)
    else (splitAtFirst separates rest).map fun found => (c :: found.1, found.2)

theorem splitAtFirst_append {separates : Char → Bool} {left right : List Char} {c : Char}
    (fresh : ∀ d ∈ left, separates d = false) (found : separates c = true) :
    splitAtFirst separates (left ++ c :: right) = some (left, right) := by
  induction left with
  | nil => simp [splitAtFirst, found]
  | cons d rest ih =>
    have tail := ih fun e member => fresh e (List.mem_cons_of_mem _ member)
    simp [splitAtFirst, fresh d List.mem_cons_self, tail]

theorem splitAtFirst_eq_none {separates : Char → Bool} {text : List Char}
    (fresh : ∀ d ∈ text, separates d = false) : splitAtFirst separates text = none := by
  induction text with
  | nil => rfl
  | cons d rest ih =>
    have tail := ih fun e member => fresh e (List.mem_cons_of_mem _ member)
    simp [splitAtFirst, fresh d List.mem_cons_self, tail]

theorem append_cons_inj {α : Type} {c : α} {left left' right right' : List α} (fresh : c ∉ right) (fresh' : c ∉ right')
    (same : left ++ c :: right = left' ++ c :: right') : right = right' := by
  rcases List.append_eq_append_iff.mp same with ⟨between, _, rest⟩ | ⟨between, _, rest⟩
  · cases between with
    | nil => exact (List.cons.inj rest).2
    | cons first others =>
      rw [List.cons_append] at rest
      have member : c ∈ right := by
        rw [(List.cons.inj rest).2]
        exact List.mem_append_right _ List.mem_cons_self
      exact absurd member fresh
  · cases between with
    | nil => exact (List.cons.inj rest).2.symm
    | cons first others =>
      rw [List.cons_append] at rest
      have member : c ∈ right' := by
        rw [(List.cons.inj rest).2]
        exact List.mem_append_right _ List.mem_cons_self
      exact absurd member fresh'

theorem trimmed_eq_nil {α : Type} {blank : α → Bool} {items : List α} :
    ((items.dropWhile blank).reverse.dropWhile blank).reverse = [] ↔ ∀ item ∈ items, blank item = true := by
  rw [List.reverse_eq_nil_iff, List.dropWhile_eq_nil_iff]
  constructor
  · intro trimmed
    by_cases rest : items.dropWhile blank = []
    · exact List.dropWhile_eq_nil_iff.mp rest
    · have visible := List.head_dropWhile_not blank rest
      rw [trimmed _ (List.mem_reverse.mpr (List.head_mem rest))] at visible
      cases visible
  · intro all item member
    exact all item (List.dropWhile_subset _ (List.mem_reverse.mp member))

def splitInclusive : List Char → List (List Char)
  | [] => []
  | c :: rest =>
    if c = '\n' then
      [c] :: splitInclusive rest
    else
      match splitInclusive rest with
      | [] => [[c]]
      | line :: others => (c :: line) :: others

/-- A line without the newline at its end, or the carriage return before it. -/
def stripNewline (line : List Char) : List Char :=
  match line.reverse with
  | '\n' :: '\r' :: rest => rest.reverse
  | '\n' :: rest => rest.reverse
  | _ => line

def lines (text : List Char) : List (List Char) :=
  (splitInclusive text).map stripNewline

end Library

import BazelRepo.Library.Decimal
import Mathlib.Data.List.InsertIdx

namespace Library

structure Uuid where
  bits : BitVec 128
  deriving DecidableEq

def Uuid.versionNum (id : Uuid) : Nat := (id.bits >>> 76).toNat % 16

/-- The two leading bits of the ninth byte, one and zero in the RFC 4122 variant. -/
def Uuid.isRfc4122 (id : Uuid) : Bool := (id.bits >>> 62).toNat % 4 == 2

def hyphenate (digits : List Char) : List Char :=
  (((digits.insertIdx 8 '-').insertIdx 13 '-').insertIdx 18 '-').insertIdx 23 '-'

def unhyphenate (text : List Char) : List Char :=
  (((text.eraseIdx 23).eraseIdx 18).eraseIdx 13).eraseIdx 8

/-- The lowercase hyphenated text of the wire. -/
instance : ToString Uuid := ⟨fun id => String.ofList (hyphenate (fixedDigits 16 32 id.bits.toNat))⟩

def hexValue (c : Char) : Nat :=
  if isAsciiDigit c then c.toNat - 0x30
  else if 0x61 ≤ c.toNat then c.toNat - 0x57
  else c.toNat - 0x37

/-- The hyphenated form in either case; the other forms a parser may know are not canonical. -/
def Uuid.parse (text : String) : Option Uuid :=
  let digits := unhyphenate text.toList
  if text.toList.length = 36 ∧ hyphenate digits = text.toList ∧ digits.all isAsciiHexdigit then
    some ⟨BitVec.ofNat 128 (digits.foldl (fun sofar c => 16 * sofar + hexValue c) 0)⟩
  else none

theorem unhyphenate_hyphenate (digits : List Char) : unhyphenate (hyphenate digits) = digits := by
  simp [unhyphenate, hyphenate, List.eraseIdx_insertIdx_self]

theorem length_hyphenate {digits : List Char} (length : digits.length = 32) :
    (hyphenate digits).length = 36 := by
  simp [hyphenate, List.length_insertIdx, length]

theorem isAsciiHexdigit_fixedDigits {width n : Nat} {c : Char} (member : c ∈ fixedDigits 16 width n) :
    isAsciiHexdigit c = true := by
  have cases : ∀ digit < 16, isAsciiHexdigit (Nat.digitChar digit) = true := by decide
  rcases mem_fixedDigits (by decide) member with ⟨digit, bound, rfl⟩
  exact cases digit bound

theorem Uuid.mem_toString {id : Uuid} {c : Char} (member : c ∈ (toString id).toList) : c = '-' ∨ isAsciiHexdigit c = true := by
  have text : (toString id).toList = hyphenate (fixedDigits 16 32 id.bits.toNat) := String.toList_ofList
  rw [text, hyphenate] at member
  rcases List.eq_or_mem_of_mem_insertIdx member with dash | member
  · exact .inl dash
  rcases List.eq_or_mem_of_mem_insertIdx member with dash | member
  · exact .inl dash
  rcases List.eq_or_mem_of_mem_insertIdx member with dash | member
  · exact .inl dash
  rcases List.eq_or_mem_of_mem_insertIdx member with dash | member
  · exact .inl dash
  · exact .inr (isAsciiHexdigit_fixedDigits member)

theorem Uuid.parse_toString (id : Uuid) : Uuid.parse (toString id) = some id := by
  have text : (toString id).toList = hyphenate (fixedDigits 16 32 id.bits.toNat) := String.toList_ofList
  have hexadecimal : (fixedDigits 16 32 id.bits.toNat).all isAsciiHexdigit = true := by
    rw [List.all_eq_true]
    intro c member
    exact isAsciiHexdigit_fixedDigits member
  have correct : ∀ digit < 16, hexValue (Nat.digitChar digit) = digit := by decide
  have bound : id.bits.toNat < 16 ^ 32 := Nat.lt_of_lt_of_le id.bits.isLt (by decide)
  rw [Uuid.parse, text, unhyphenate_hyphenate, if_pos ⟨length_hyphenate (length_fixedDigits 16 32 _), rfl, hexadecimal⟩,
    foldl_fixedDigits (by decide) correct, Nat.mod_eq_of_lt bound, Nat.mul_zero, Nat.zero_add, BitVec.ofNat_toNat]
  simp

theorem Uuid.toString_inj {a b : Uuid} (same : toString a = toString b) : a = b := by
  have read := parse_toString a
  rw [same, parse_toString b] at read
  exact (Option.some.inj read).symm

inductive ExtensionValue where
  | boolean (value : Bool)
  | string (value : String)
  | integer (value : Int64)
  deriving DecidableEq

structure Timestamp where
  seconds : Int64
  subsecNanos : Nat
  deriving DecidableEq

def Timestamp.inRfc3339Years (time : Timestamp) : Bool :=
  -62167219200 ≤ time.seconds && time.seconds ≤ 253402300799

def fromTimestamp (seconds : Int64) : Option Timestamp :=
  if -8334601228800 ≤ seconds ∧ seconds ≤ 8210266876799 then some ⟨seconds, 0⟩ else none

inductive Number where
  | integer (value : Int)
  | decimal (text : String)
  deriving DecidableEq

theorem lookup_of_nodup {α β : Type} [BEq α] [LawfulBEq α] {entries : List (α × β)}
    (distinct : (entries.map Prod.fst).Nodup) : ∀ entry ∈ entries, entries.lookup entry.1 = some entry.2 := by
  induction entries with
  | nil =>
    intro entry member
    cases member
  | cons first rest ih =>
    rw [List.map_cons, List.nodup_cons] at distinct
    intro entry member
    rw [List.lookup_cons]
    rcases List.mem_cons.mp member with rfl | member
    · simp
    · have apart : entry.1 ≠ first.1 := fun same => distinct.1 (same ▸ List.mem_map_of_mem member)
      simp only [beq_false_of_ne apart]
      exact ih distinct.2 entry member

inductive Json where
  | null
  | bool (value : Bool)
  | number (value : Number)
  | string (value : String)
  | array (values : List Json)
  | object (fields : List (String × Json))

def Json.isNull : Json → Bool
  | .null => true
  | _ => false

def Json.asStr : Json → Option String
  | .string value => some value
  | _ => none

def Json.asObject : Json → Option (List (String × Json))
  | .object fields => some fields
  | _ => none

def Json.member (value : Json) (name : String) : Option Json :=
  value.asObject.bind fun fields => fields.lookup name

def Json.field (value : Json) (name : String) : Json := (value.member name).getD .null

def Json.asArray : Json → Option (List Json)
  | .array values => some values
  | _ => none

def Json.asBool : Json → Option Bool
  | .bool value => some value
  | _ => none

def Json.asU64 : Json → Option Nat
  | .number (.integer value) => if 0 ≤ value ∧ value < 2^64 then some value.toNat else none
  | _ => none

def Json.asI64 : Json → Option Int
  | .number (.integer value) => if -2^63 ≤ value ∧ value < 2^63 then some value else none
  | _ => none

def Number.asI32 : Number → Option Int
  | .integer value => if -2^31 ≤ value ∧ value < 2^31 then some value else none
  | .decimal _ => none

/-- The decoders of the standard formats. -/
class Formats where
  json : String → Option Json
  rfc3339 : String → Option Int

mutual

def Json.equal : Json → Json → Bool
  | .null, .null => true
  | .bool a, .bool b => a == b
  | .number a, .number b => a == b
  | .string a, .string b => a == b
  | .array as, .array bs => Json.equalValues as bs
  | .object fields, .object others => fields.length == others.length && Json.equalFields fields others
  | _, _ => false

def Json.equalValues : List Json → List Json → Bool
  | [], [] => true
  | a :: as, b :: bs => a.equal b && Json.equalValues as bs
  | _, _ => false

def Json.equalFields : List (String × Json) → List (String × Json) → Bool
  | [], _ => true
  | (name, a) :: rest, others => (others.lookup name).any a.equal && Json.equalFields rest others

end

end Library

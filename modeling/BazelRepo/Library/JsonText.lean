import BazelRepo.Library.Json
import BazelRepo.Library.NumberLiteral

namespace Library

/-- A JSON value as a text spells it: numbers by their literals, and every member of an object. -/
inductive Raw where
  | null
  | bool (value : Bool)
  | number (literal : NumberLiteral)
  | string (value : String)
  | array (items : List Raw)
  | object (members : List (String × Raw))

def Number.text : Number → String
  | .integer value => toString value
  | .decimal text => text

def Spells (read : String → Option Raw) (part : String) (raw : Raw) : Prop :=
  read part = some raw ∧ ∀ literal, raw = .number literal → part = literal.text

/-- A reader of JSON: the syntax of a text, the texts of an array's items and of an object's members,
    and the number that a literal is read as. -/
class JsonText where
  read : String → Option Raw
  items : String → Option (List String)
  members : String → Option (List (String × String))
  number : NumberLiteral → Option Number
  items_read : ∀ {text : String} {raws : List Raw}, read text = some (.array raws) →
    ∃ parts, items text = some parts ∧ List.Forall₂ (Spells read) parts raws
  members_read : ∀ {text : String} {raws : List (String × Raw)}, read text = some (.object raws) →
    ∃ parts, members text = some parts ∧
      List.Forall₂ (fun part raw => part.1 = raw.1 ∧ Spells read part.2 raw.2) parts raws
  number_text : ∀ {literal : NumberLiteral} {kept : Number}, number literal = some kept →
    ∃ spelled : NumberLiteral, spelled.text = kept.text

inductive Step where
  | item (index : Nat)
  | member (name : String)
  deriving DecidableEq

/-- What stands at a path of a text; every member of a name stands there. -/
inductive Raw.At : Raw → List Step → Raw → Prop
  | here (raw : Raw) : Raw.At raw [] raw
  | item {items : List Raw} {index : Nat} {raw inner : Raw} {path : List Step}
      (found : items[index]? = some raw) (below : Raw.At raw path inner) :
      Raw.At (.array items) (.item index :: path) inner
  | member {members : List (String × Raw)} {name : String} {raw inner : Raw} {path : List Step}
      (found : (name, raw) ∈ members) (below : Raw.At raw path inner) :
      Raw.At (.object members) (.member name :: path) inner

def Json.follow : Json → List Step → Option Json
  | value, [] => some value
  | .array values, .item index :: path => values[index]?.bind (Json.follow · path)
  | .object fields, .member name :: path => (fields.lookup name).bind (Json.follow · path)
  | _, _ :: _ => none

mutual

def Raw.distinct : Raw → Bool
  | .array items => Raw.distinctItems items
  | .object members => decide (members.map Prod.fst).Nodup && Raw.distinctMembers members
  | _ => true

def Raw.distinctItems : List Raw → Bool
  | [] => true
  | raw :: rest => raw.distinct && Raw.distinctItems rest

def Raw.distinctMembers : List (String × Raw) → Bool
  | [] => true
  | (_, raw) :: rest => raw.distinct && Raw.distinctMembers rest

end

theorem distinctItems_get {items : List Raw} (distinct : Raw.distinctItems items = true) :
    ∀ raw ∈ items, raw.distinct = true := by
  induction items with
  | nil =>
    intro raw member
    cases member
  | cons first rest ih =>
    unfold Raw.distinctItems at distinct
    rw [Bool.and_eq_true] at distinct
    intro raw member
    rcases List.mem_cons.mp member with rfl | member
    · exact distinct.1
    · exact ih distinct.2 raw member

theorem distinctMembers_get {members : List (String × Raw)} (distinct : Raw.distinctMembers members = true) :
    ∀ entry ∈ members, entry.2.distinct = true := by
  induction members with
  | nil =>
    intro entry member
    cases member
  | cons first rest ih =>
    unfold Raw.distinctMembers at distinct
    rw [Bool.and_eq_true] at distinct
    intro entry member
    rcases List.mem_cons.mp member with rfl | member
    · exact distinct.1
    · exact ih distinct.2 entry member

section Values

variable [JsonText]

mutual

def Raw.value : Raw → Option Json
  | .null => some .null
  | .bool value => some (.bool value)
  | .number literal => (JsonText.number literal).map .number
  | .string value => some (.string value)
  | .array items => (Raw.values items).map .array
  | .object members => (Raw.fields members).map .object

def Raw.values : List Raw → Option (List Json)
  | [] => some []
  | raw :: rest => do
    let value ← raw.value
    let values ← Raw.values rest
    some (value :: values)

def Raw.fields : List (String × Raw) → Option (List (String × Json))
  | [] => some []
  | (name, raw) :: rest => do
    let value ← raw.value
    let fields ← Raw.fields rest
    some (if (fields.lookup name).isSome then fields else (name, value) :: fields)

end

theorem values_get {items : List Raw} {values : List Json} (valued : Raw.values items = some values) :
    List.Forall₂ (fun raw value => raw.value = some value) items values := by
  induction items generalizing values with
  | nil =>
    cases Option.some.inj valued
    exact .nil
  | cons raw rest ih =>
    unfold Raw.values at valued
    simp only [Option.bind_eq_bind, Option.bind_eq_some_iff, Option.some.injEq] at valued
    rcases valued with ⟨value, first, others, tail, rfl⟩
    exact .cons first (ih tail)

theorem fields_lookup {members : List (String × Raw)} {fields : List (String × Json)} {name : String}
    (valued : Raw.fields members = some fields) :
    (fields.lookup name).isSome = true ↔ name ∈ members.map Prod.fst := by
  induction members generalizing fields with
  | nil =>
    cases Option.some.inj valued
    simp
  | cons entry rest ih =>
    rcases entry with ⟨first, raw⟩
    unfold Raw.fields at valued
    simp only [Option.bind_eq_bind, Option.bind_eq_some_iff, Option.some.injEq] at valued
    rcases valued with ⟨value, _, others, tail, rfl⟩
    rw [List.map_cons, List.mem_cons, ← ih tail]
    split
    · rename_i known
      constructor
      · exact .inr
      · rintro (rfl | found)
        · exact known
        · exact found
    · rw [List.lookup_cons]
      by_cases same : name = first
      · simp [same]
      · simp only [beq_false_of_ne same, same, false_or]

theorem fields_get {members : List (String × Raw)} {fields : List (String × Json)}
    (distinct : (members.map Prod.fst).Nodup) (valued : Raw.fields members = some fields) :
    ∀ name raw, (name, raw) ∈ members → ∃ value, fields.lookup name = some value ∧ raw.value = some value := by
  induction members generalizing fields with
  | nil =>
    intro name raw member
    cases member
  | cons entry rest ih =>
    rcases entry with ⟨first, firstRaw⟩
    unfold Raw.fields at valued
    simp only [Option.bind_eq_bind, Option.bind_eq_some_iff, Option.some.injEq] at valued
    rcases valued with ⟨firstValue, read, others, tail, rfl⟩
    rw [List.map_cons, List.nodup_cons] at distinct
    have fresh : ¬ (others.lookup first).isSome = true := fun found => distinct.1 ((fields_lookup tail).mp found)
    rw [if_neg fresh]
    intro name raw member
    rcases List.mem_cons.mp member with same | member
    · cases same
      exact ⟨firstValue, List.lookup_cons_self, read⟩
    · rcases ih distinct.2 tail name raw member with ⟨value, found, same⟩
      have apart : name ≠ first := by
        intro equal
        exact distinct.1 (List.mem_map.mpr ⟨(name, raw), member, equal⟩)
      refine ⟨value, ?_, same⟩
      rw [List.lookup_cons, beq_false_of_ne apart]
      exact found

end Values

end Library

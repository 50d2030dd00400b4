import BazelRepo.BookSmartz.Composition
import BazelRepo.BookSmartz.Numbers
import BazelRepo.Library.JsonText

namespace BookSmartz

open Library

/-- The event reader of the CloudEvents library, by the time of the event it reads from a text. -/
class EventReader where
  time : String → Option (Option Timestamp)

/-- A loop over parts that ends at the first one that differs or cannot be read. -/
def everyPart {α : Type} (check : α → Option Bool) : List α → Option Bool
  | [] => some true
  | part :: rest => do
    if ← check part then everyPart check rest else some false

theorem everyPart_eq_true {α : Type} {check : α → Option Bool} {parts : List α}
    (every : everyPart check parts = some true) : ∀ part ∈ parts, check part = some true := by
  induction parts with
  | nil =>
    intro part member
    cases member
  | cons first rest ih =>
    unfold everyPart at every
    simp only [Option.bind_eq_bind, Option.bind_eq_some_iff] at every
    rcases every with ⟨kept, checked, every⟩
    cases kept with
    | false => cases every
    | true =>
      intro part member
      rcases List.mem_cons.mp member with rfl | member
      · exact checked
      · exact ih every part member

section Preserved

variable [JsonText]

mutual

/-- Whether every number of a value is the number in the text it was read from. -/
def numbersPreserved : Json → String → Option Bool
  | .number number, text =>
    some (match normalizedNumber text, normalizedNumber number.text with
      | some original, some stored => original == stored
      | _, _ => false)
  | .array values, text => do
    let originals ← JsonText.items text
    everyPart (fun part => part.2 part.1) (originals.zip (preservedItems values))
  | .object fields, text => do
    let originals ← JsonText.members text
    -- a missing member ends the request, as an error does
    everyPart (fun part => ((preservedFields fields).lookup part.1).bind fun preserved => preserved part.2)
      (Std.ExtTreeMap.ofList originals compare).toList
  | _, _ => some true

def preservedItems : List Json → List (String → Option Bool)
  | [] => []
  | value :: rest => numbersPreserved value :: preservedItems rest

def preservedFields : List (String × Json) → List (String × (String → Option Bool))
  | [] => []
  | (name, value) :: rest => (name, numbersPreserved value) :: preservedFields rest

end

def strictValue (text : String) : Option Json := do
  let raw ← JsonText.read text
  if raw.distinct then raw.value else none

end Preserved

def hasText (value : Option Json) : Bool := (value.bind Json.asStr).any fun text => !text.isEmpty

def unprintable (character : Char) : Bool :=
  isControl character || (0xFDD0 ≤ character.toNat && character.toNat ≤ 0xFDEF) ||
    0xFFFE ≤ character.toNat &&& 0xFFFF

def validField (entry : String × Json) : Bool :=
  !(entry.2.asStr.any fun value => value.toList.any unprintable) &&
    (["specversion", "id", "source", "type", "time", "datacontenttype", "data", "subject",
        "dataschema"].contains entry.1 ||
      (!entry.1.isEmpty && entry.1.toList.all (fun c => isAsciiLowercase c || isAsciiDigit c) &&
        (entry.2.asStr.isSome || entry.2.asBool.isSome ||
          entry.2.asI64.any fun number => -2^31 ≤ number && number < 2^31)))

def ApplicationEvent.source (reader : ReaderId) : String := s!"urn:book-smartz:application:{reader.val}"

def ApplicationEvent.fromEnvelope [EventReader] (reader : ReaderId) (text : String) (envelope : Json) :
    Except StoreError ApplicationEvent := do
  let time ← okOr (EventReader.time text) .invalidEnvelope
  if ¬ time.any Timestamp.inRfc3339Years then .error .invalidEnvelope
  else
    let fields ← okOr envelope.asObject .invalidEnvelope
    if ¬ ["id", "source", "type", "time", "datacontenttype"].all fun name => hasText (fields.lookup name) then
      .error .invalidEnvelope
    else
      let idText ← okOr (envelope.field "id").asStr .invalidEnvelope
      let id ← okOr (Uuid.parse idText) .invalidEnvelope
      if toString id ≠ idText ∨ (envelope.field "specversion").asStr ≠ some "1.0" ∨
          (envelope.field "source").asStr ≠ some (source reader) ∨
          (envelope.field "datacontenttype").asStr ≠ some "application/json" ∨
          (envelope.field "data").asObject.isNone ∨ (fields.lookup "data_base64").isSome then
        .error .invalidEnvelope
      else if ["traceparent", "tracestate"].any fun name =>
          (fields.lookup name).isSome && !hasText (fields.lookup name) then
        .error .invalidEnvelope
      else if (fields.lookup "tracestate").isSome ∧ (fields.lookup "traceparent").isNone then
        .error .invalidEnvelope
      else if ¬ fields.all validField then .error .invalidEnvelope
      else
        let sequenceText ← okOr (envelope.field "sequence").asStr .invalidEnvelope
        let sequence ← (parseSequenceKey sequenceText).mapError fun _ => .invalidEnvelope
        .ok ⟨reader, sequence, id, envelope⟩

def ApplicationEvent.decode [JsonText] [EventReader] (reader : ReaderId) (text : String) :
    Except StoreError ApplicationEvent := do
  -- the visitor's own value may have lost precision
  let _ ← okOr (strictValue text) .invalidEnvelope
  let envelope ← okOr ((JsonText.read text).bind Raw.value) .invalidEnvelope
  let preserved ← okOr (numbersPreserved envelope text) .invalidEnvelope
  if ¬ preserved then .error .invalidEnvelope else fromEnvelope reader text envelope

def Denotes (number : Number) (value : ℚ) : Prop :=
  ∃ spelled : NumberLiteral, spelled.text = number.text ∧ spelled.value = value

section Numbers

variable [JsonText]

theorem preservedItems_eq (values : List Json) : preservedItems values = values.map numbersPreserved := by
  induction values with
  | nil => rfl
  | cons value rest ih =>
    unfold preservedItems
    rw [ih, List.map_cons]

theorem preservedFields_lookup (fields : List (String × Json)) (name : String) :
    (preservedFields fields).lookup name = (fields.lookup name).map numbersPreserved := by
  induction fields with
  | nil => rfl
  | cons entry rest ih =>
    rcases entry with ⟨first, value⟩
    unfold preservedFields
    rw [List.lookup_cons, List.lookup_cons]
    by_cases same : name = first
    · simp [same]
    · simp only [beq_false_of_ne same, ih]

theorem number_preserved {literal : NumberLiteral} {number : Number}
    (kept : JsonText.number literal = some number)
    (preserved : numbersPreserved (.number number) literal.text = some true) : Denotes number literal.value := by
  rcases JsonText.number_text kept with ⟨spelled, text⟩
  unfold numbersPreserved at preserved
  rw [Option.some.injEq, ← text] at preserved
  cases original : normalizedNumber literal.text with
  | none =>
    rw [original] at preserved
    cases preserved
  | some first =>
    cases stored : normalizedNumber spelled.text with
    | none =>
      rw [original, stored] at preserved
      cases preserved
    | some second =>
      rw [original, stored] at preserved
      have same : first = second := by simpa using preserved
      exact ⟨spelled, text, ((normalizedNumber_eq_iff original stored).mp same).symm⟩

theorem array_preserved {items : List Raw} {values : List Json} {text : String}
    (read : JsonText.read text = some (.array items)) (valued : Raw.values items = some values)
    (preserved : numbersPreserved (.array values) text = some true) {index : Nat} {raw : Raw}
    (found : items[index]? = some raw) :
    ∃ part value, values[index]? = some value ∧ raw.value = some value ∧ Spells JsonText.read part raw ∧
      numbersPreserved value part = some true := by
  rcases JsonText.items_read read with ⟨parts, split, spelled⟩
  have kept := values_get valued
  have inside := (List.getElem?_eq_some_iff.mp found).1
  have first := spelled.length_eq
  have second := kept.length_eq
  unfold numbersPreserved at preserved
  rw [split, Option.bind_eq_bind, Option.bind_some, preservedItems_eq] at preserved
  have value := List.forall₂_iff_get.mp kept |>.2 index inside (by omega)
  have part := List.forall₂_iff_get.mp spelled |>.2 index (by omega) inside
  have same : items.get ⟨index, inside⟩ = raw := (List.getElem?_eq_some_iff.mp found).2
  rw [same] at value part
  refine ⟨_, _, List.getElem?_eq_getElem (by omega), value, part, ?_⟩
  have member : (parts[index], numbersPreserved values[index]) ∈ parts.zip (values.map numbersPreserved) := by
    rw [List.mem_iff_getElem]
    refine ⟨index, by simp; omega, ?_⟩
    simp
  exact everyPart_eq_true preserved _ member

theorem object_preserved {members : List (String × Raw)} {fields : List (String × Json)} {text : String}
    (read : JsonText.read text = some (.object members)) (distinct : (members.map Prod.fst).Nodup)
    (valued : Raw.fields members = some fields)
    (preserved : numbersPreserved (.object fields) text = some true) {name : String} {raw : Raw}
    (found : (name, raw) ∈ members) :
    ∃ part value, fields.lookup name = some value ∧ raw.value = some value ∧ Spells JsonText.read part raw ∧
      numbersPreserved value part = some true := by
  rcases JsonText.members_read read with ⟨parts, split, spelled⟩
  rcases fields_get distinct valued name raw found with ⟨value, looked, same⟩
  unfold numbersPreserved at preserved
  rw [split, Option.bind_eq_bind, Option.bind_some] at preserved
  have names : List.Forall₂ (· = ·) (parts.map Prod.fst) (members.map Prod.fst) := by
    rw [List.forall₂_map_left_iff, List.forall₂_map_right_iff]
    exact spelled.imp fun part raw agrees => agrees.1
  rw [List.forall₂_eq_eq_eq] at names
  have apart : parts.Pairwise fun a b => ¬ compare a.1 b.1 = .eq := by
    rw [← names, List.nodup_iff_pairwise_ne, List.pairwise_map] at distinct
    refine distinct.imp ?_
    intro a b different equal
    exact different (Std.LawfulEqOrd.eq_of_compare equal)
  rcases mem_of_forall₂ spelled _ found with ⟨⟨first, part⟩, member, agrees, slice⟩
  have same' : first = name := agrees
  subst same'
  have stored := Std.ExtTreeMap.getElem?_ofList_of_mem (Std.ReflCmp.compare_self) apart member
  have checked := everyPart_eq_true preserved _ (BTreeMap.mem_toList.mpr stored)
  rw [preservedFields_lookup, looked] at checked
  exact ⟨part, value, looked, same, slice, checked⟩

theorem numbers_preserved {raw inner : Raw} {path : List Step} (stands : Raw.At raw path inner)
    {literal : NumberLiteral} (spelled : inner = .number literal) {text : String} {value : Json}
    (slice : Spells JsonText.read text raw) (distinct : raw.distinct = true) (valued : raw.value = some value)
    (preserved : numbersPreserved value text = some true) :
    ∃ number, value.follow path = some (.number number) ∧ Denotes number literal.value := by
  induction stands generalizing text value with
  | here raw =>
    subst spelled
    unfold Raw.value at valued
    rcases Option.map_eq_some_iff.mp valued with ⟨number, kept, rfl⟩
    rw [slice.2 literal rfl] at preserved
    exact ⟨number, rfl, number_preserved kept preserved⟩
  | item found below ih =>
    unfold Raw.value at valued
    rcases Option.map_eq_some_iff.mp valued with ⟨values, listed, rfl⟩
    rcases array_preserved slice.1 listed preserved found with ⟨part, value, kept, read, smaller, checked⟩
    have inside := distinctItems_get distinct _ (List.mem_of_getElem? found)
    rcases ih spelled smaller inside read checked with ⟨number, reached, denotes⟩
    refine ⟨number, ?_, denotes⟩
    unfold Json.follow
    rw [kept]
    exact reached
  | member found below ih =>
    unfold Raw.value at valued
    rcases Option.map_eq_some_iff.mp valued with ⟨fields, listed, rfl⟩
    unfold Raw.distinct at distinct
    rw [Bool.and_eq_true, decide_eq_true_eq] at distinct
    rcases object_preserved slice.1 distinct.1 listed preserved found with ⟨part, value, kept, read, smaller, checked⟩
    have inside := distinctMembers_get distinct.2 _ found
    rcases ih spelled smaller inside read checked with ⟨number, reached, denotes⟩
    refine ⟨number, ?_, denotes⟩
    unfold Json.follow
    rw [kept]
    exact reached

end Numbers

section Decoded

variable [EventReader]

theorem fromEnvelope_inv {reader : ReaderId} {text : String} {envelope : Json} {event : ApplicationEvent}
    (built : ApplicationEvent.fromEnvelope reader text envelope = .ok event) :
    event.envelope = envelope ∧ ∃ fields, envelope = .object fields := by
  unfold ApplicationEvent.fromEnvelope at built
  simp only [bind_eq_ok, reject_eq_ok, okOr_eq_ok, Except.ok.injEq] at built
  rcases built with ⟨time, _, _, fields, object, _, idText, _, id, _, _, _, _, _, sequenceText, _, sequence, _, rfl⟩
  refine ⟨rfl, fields, ?_⟩
  cases envelope with
  | object members =>
    rw [show members = fields from Option.some.inj object]
  | null | bool | number | string | array => cases object

variable [JsonText]

/-- What an accepted text went through: its keys, its values and its numbers. -/
theorem decode_inv {reader : ReaderId} {text : String} {event : ApplicationEvent}
    (decoded : ApplicationEvent.decode reader text = .ok event) :
    ∃ raw fields, JsonText.read text = some raw ∧ raw.distinct = true ∧ raw.value = some (.object fields) ∧
      event.envelope = .object fields ∧ numbersPreserved (.object fields) text = some true := by
  unfold ApplicationEvent.decode at decoded
  simp only [bind_eq_ok, reject_eq_ok, okOr_eq_ok] at decoded
  rcases decoded with ⟨strict, distinct, envelope, valued, preserved, kept, checked, built⟩
  rcases fromEnvelope_inv built with ⟨same, fields, rfl⟩
  rcases Option.bind_eq_some_iff.mp valued with ⟨raw, read, valued⟩
  unfold strictValue at distinct
  rw [read, Option.bind_eq_bind, Option.bind_some] at distinct
  have apart : raw.distinct = true := by
    by_contra repeated
    rw [if_neg repeated] at distinct
    cases distinct
  refine ⟨raw, fields, read, apart, valued, same, ?_⟩
  rw [kept]
  simpa using checked

/-- Normal forms decide whether two literals denote one number, and an accepted text denotes at every path the
    number that the envelope keeps there. -/
theorem application_facts_keep_numbers :
    (∀ (left right : NumberLiteral) (first second : Bool × String × Int64),
      normalizedNumber left.text = some first → normalizedNumber right.text = some second →
        (first = second ↔ left.value = right.value)) ∧
    ∀ (reader : ReaderId) (text : String) (event : ApplicationEvent),
      ApplicationEvent.decode reader text = .ok event →
        ∃ raw, JsonText.read text = some raw ∧
          ∀ (path : List Step) (literal : NumberLiteral), Raw.At raw path (.number literal) →
            ∃ number, event.envelope.follow path = some (.number number) ∧ Denotes number literal.value := by
  refine ⟨fun _ _ _ _ one other => normalizedNumber_eq_iff one other, ?_⟩
  intro reader text event decoded
  rcases decode_inv decoded with ⟨raw, fields, read, distinct, valued, same, preserved⟩
  refine ⟨raw, read, ?_⟩
  intro path literal stands
  -- an envelope is no number, so its text may have blanks around it
  have slice : Spells JsonText.read text raw := by
    refine ⟨read, ?_⟩
    rintro other rfl
    unfold Raw.value at valued
    rcases Option.map_eq_some_iff.mp valued with ⟨number, _, foreign⟩
    cases foreign
  rw [same]
  exact numbers_preserved stands rfl slice distinct valued preserved

end Decoded

section Sample

def oneAndAHalf : NumberLiteral :=
  ⟨false, ⟨['1'], by decide, List.all_eq_true.mp (by decide)⟩, by decide,
    some ⟨['5', '0'], by decide, List.all_eq_true.mp (by decide)⟩, none⟩

def sampleReader : ReaderId := ⟨⟨5⟩⟩

def sampleMembers : List (String × String × Raw) :=
  [("specversion", "\"1.0\"", .string "1.0"),
    ("id", "\"00000000-0000-0000-0000-000000000001\"", .string "00000000-0000-0000-0000-000000000001"),
    ("source", "\"urn\"", .string (ApplicationEvent.source sampleReader)),
    ("type", "\"noted\"", .string "noted"),
    ("time", "\"2024-01-01T00:00:00Z\"", .string "2024-01-01T00:00:00Z"),
    ("datacontenttype", "\"application/json\"", .string "application/json"),
    ("sequence", "\"00000000000000000001\"", .string "00000000000000000001"),
    ("data", "\x7b\"pages\":[1.50]\x7d", .object [("pages", .array [.number oneAndAHalf])])]

def sampleText : String :=
  "\x7b" ++ ",".intercalate (sampleMembers.map fun member => s!"\"{member.1}\":{member.2.1}") ++ "\x7d"

def sampleTexts : List (String × Raw) :=
  (sampleText, .object (sampleMembers.map fun member => (member.1, member.2.2))) ::
    ("[1.50]", .array [.number oneAndAHalf]) :: ("1.50", .number oneAndAHalf) ::
    sampleMembers.map fun member => (member.2.1, member.2.2)

theorem sampleTexts_nodup : (sampleTexts.map Prod.fst).Nodup := by decide +kernel

theorem spells_sample : ∀ entry ∈ sampleTexts, Spells (List.lookup · sampleTexts) entry.1 entry.2 := by
  intro entry member
  refine ⟨lookup_of_nodup sampleTexts_nodup entry member, ?_⟩
  have spelled : ∀ entry ∈ sampleTexts, ∀ literal, entry.2 = .number literal → entry.1 = literal.text := by
    simp [sampleTexts, sampleMembers]
    rfl
  exact spelled entry member

theorem sampleTexts_mem {text : String} {raw : Raw} (found : List.lookup text sampleTexts = some raw) :
    (text, raw) ∈ sampleTexts := by
  rcases List.lookup_eq_some_iff.mp found with ⟨before, behind, same, _⟩
  rw [same]
  simp

abbrev sampleJson : JsonText where
  read := (List.lookup · sampleTexts)
  items text := if text = "[1.50]" then some ["1.50"] else none
  members text :=
    if text = sampleText then some (sampleMembers.map fun member => (member.1, member.2.1))
    else if text = "\x7b\"pages\":[1.50]\x7d" then some [("pages", "[1.50]")]
    else none
  number literal := if literal = oneAndAHalf then some (.decimal "1.5") else none
  items_read := by
    intro text raws read
    have member := sampleTexts_mem read
    simp only [sampleTexts, sampleMembers, List.map_cons, List.map_nil, List.mem_cons, Prod.mk.injEq, reduceCtorEq,
      and_false, false_or, List.not_mem_nil, or_false, Raw.array.injEq] at member
    rcases member with ⟨rfl, rfl⟩
    exact ⟨_, if_pos rfl, .cons (spells_sample ("1.50", _) (by simp [sampleTexts])) .nil⟩
  members_read := by
    intro text raws read
    have member := sampleTexts_mem read
    rw [sampleTexts, List.mem_cons] at member
    rcases member with whole | member
    · rw [Prod.mk.injEq, Raw.object.injEq] at whole
      rcases whole with ⟨rfl, rfl⟩
      refine ⟨_, if_pos rfl, ?_⟩
      rw [List.forall₂_map_left_iff, List.forall₂_map_right_iff, List.forall₂_same]
      intro entry inside
      have member : (entry.2.1, entry.2.2) ∈ sampleTexts := by
        simp only [sampleTexts, List.mem_cons]
        exact .inr (.inr (.inr (List.mem_map_of_mem inside)))
      exact ⟨rfl, spells_sample _ member⟩
    · simp only [sampleMembers, List.map_cons, List.map_nil, List.mem_cons, Prod.mk.injEq, reduceCtorEq,
        and_false, false_or, List.not_mem_nil, or_false, Raw.object.injEq] at member
      rcases member with ⟨rfl, rfl⟩
      refine ⟨_, if_neg (by decide +kernel) |>.trans (if_pos rfl), ?_⟩
      exact .cons ⟨rfl, spells_sample ("[1.50]", _) (by simp [sampleTexts])⟩ .nil
  number_text := by
    intro literal kept read
    split at read
    · cases read
      exact ⟨⟨false, ⟨['1'], by decide, List.all_eq_true.mp (by decide)⟩, by decide,
        some ⟨['5'], by decide, List.all_eq_true.mp (by decide)⟩, none⟩, rfl⟩
    · cases read

abbrev sampleEvents : EventReader := ⟨fun _ => some (some ⟨1704067200, 0⟩)⟩

example : (@ApplicationEvent.decode sampleJson sampleEvents sampleReader sampleText).isOk = true := by
  decide +kernel
end Sample
end BookSmartz

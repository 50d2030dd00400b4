import BazelRepo.PinyinComposer.Editor
import Mathlib.Data.List.Induction

namespace PinyinComposer

section Payloads

def ascii (name : String) : Text := name.toList.map fun c => UInt16.ofNat c.toNat

/-- What JSON.parse makes of a text. -/
inductive Payload where
  | null
  | boolean (value : Bool)
  | number (value : Number)
  | string (value : Text)
  | array (values : List Payload)
  | object (members : List (Text × Payload))

structure ComposerDocument where
  id : Text
  title : Text
  spans : List DocumentSpan
  updatedAtIso : Text
  deriving DecidableEq

def member (members : List (Text × Payload)) (name : String) : Option Payload := members.lookup (ascii name)

def stringMember (members : List (Text × Payload)) (name : String) : Option Text :=
  match member members name with
  | some (.string value) => some value
  | _ => none

def parseAnnotationScope (span : List (Text × Payload)) (text : Text) : Option AnnotationScope :=
  match member span "annotationScope" with
  | none => some (if text.length = 1 then .character else .atomicPhrase)
  | some (.string scope) =>
    if scope = ascii "character" then some .character
    else if scope = ascii "atomicPhrase" then some .atomicPhrase
    else none
  | some _ => none

def parseDocumentSpan : Payload → Option DocumentSpan
  | .object span => do
    let kind ← stringMember span "kind"
    if kind = ascii "plain" then
      return .plain (← stringMember span "id") (← stringMember span "text")
    else if kind = ascii "annotated" then
      let id ← stringMember span "id"
      let sourcePinyin ← stringMember span "sourcePinyin"
      let text ← stringMember span "text"
      let displayPinyin ← stringMember span "displayPinyin"
      return .annotated id sourcePinyin text displayPinyin (← parseAnnotationScope span text)
    else none
  | _ => none

def isSecondVersion : Option Payload → Bool
  | some (.number version) => version == .finite 2
  | _ => false

def parseComposerDocument : Payload → Option ComposerDocument
  | .object document => do
    guard (isSecondVersion (member document "schemaVersion"))
    let id ← stringMember document "id"
    let title ← stringMember document "title"
    let updatedAtIso ← stringMember document "updatedAtIso"
    match member document "spans" with
    | some (.array spans) => return ⟨id, title, ← spans.mapM parseDocumentSpan, updatedAtIso⟩
    | _ => none
  | _ => none

def AnnotationScope.payload : AnnotationScope → Payload
  | .character => .string (ascii "character")
  | .atomicPhrase => .string (ascii "atomicPhrase")

def DocumentSpan.payload : DocumentSpan → Payload
  | .plain id text =>
    .object [(ascii "id", .string id), (ascii "kind", .string (ascii "plain")), (ascii "text", .string text)]
  | .annotated id sourcePinyin text displayPinyin annotationScope =>
    .object [(ascii "id", .string id), (ascii "kind", .string (ascii "annotated")),
      (ascii "sourcePinyin", .string sourcePinyin), (ascii "text", .string text),
      (ascii "displayPinyin", .string displayPinyin), (ascii "annotationScope", annotationScope.payload)]

def ComposerDocument.payload (document : ComposerDocument) : Payload :=
  .object [(ascii "schemaVersion", .number (.finite 2)), (ascii "id", .string document.id),
    (ascii "title", .string document.title), (ascii "spans", .array (document.spans.map DocumentSpan.payload)),
    (ascii "updatedAtIso", .string document.updatedAtIso)]

theorem parseDocumentSpan_payload (span : DocumentSpan) : parseDocumentSpan span.payload = some span := by
  cases span with
  | plain id text => rfl
  | annotated id sourcePinyin text displayPinyin annotationScope => cases annotationScope <;> rfl

theorem mapM_payload : ∀ spans : List DocumentSpan,
    (spans.map DocumentSpan.payload).mapM parseDocumentSpan = some spans
  | [] => rfl
  | span :: spans => by
    rw [List.map_cons, List.mapM_cons, parseDocumentSpan_payload, mapM_payload spans]
    rfl

theorem parseComposerDocument_payload (document : ComposerDocument) :
    parseComposerDocument document.payload = some document := by
  show (do return (⟨_, _, ← (document.spans.map DocumentSpan.payload).mapM parseDocumentSpan, _⟩ : ComposerDocument)) = _
  rw [mapM_payload]
  rfl

theorem filterMap_payload (documents : List ComposerDocument) :
    (documents.map ComposerDocument.payload).filterMap parseComposerDocument = documents := by
  rw [List.filterMap_map]
  have read : parseComposerDocument ∘ ComposerDocument.payload = some := funext parseComposerDocument_payload
  rw [read, List.filterMap_some]

end Payloads

section Storage

/-- The text stored under the key of the documents, by what JSON.parse makes of it. -/
inductive Item where
  | empty
  | unreadable
  | read (payload : Payload)

variable (localeCompare : Text → Text → Ordering) (room : Payload → Bool)

def newer (left right : ComposerDocument) : Bool := (localeCompare right.updatedAtIso left.updatedAtIso).isLE

def newestFirst (documents : List ComposerDocument) : List ComposerDocument :=
  documents.mergeSort (newer localeCompare)

/-- A browser without room for the text throws, and keeps what it had. -/
def setItem (documents : List ComposerDocument) (item : Option Item) : Option Unit × Option Item :=
  let written := .array (documents.map ComposerDocument.payload)
  if room written then (some (), some (.read written)) else (none, item)

def listDocuments (item : Option Item) : Option (List ComposerDocument) × Option Item :=
  match item with
  | none | some .empty => (some [], item)
  | some (.read (.array parsed)) =>
    let documents := parsed.filterMap parseComposerDocument
    if documents.length ≠ parsed.length then
      if documents.isEmpty then (some [], none)
      else
        match setItem room documents item with
        | (none, item) => (none, item)
        | (some (), item) => (some (newestFirst localeCompare documents), item)
    else (some (newestFirst localeCompare documents), item)
  | some .unreadable | some (.read _) => (some [], none)

def replaceDocument (added : List ComposerDocument) (id : Text) (item : Option Item) : Option Unit × Option Item :=
  match listDocuments localeCompare room item with
  | (none, item) => (none, item)
  | (some documents, item) => setItem room (added ++ documents.filter (·.id ≠ id)) item

def saveDocument (document : ComposerDocument) : Option Item → Option Unit × Option Item :=
  replaceDocument localeCompare room [document] document.id

def deleteDocument (documentId : Text) : Option Item → Option Unit × Option Item :=
  replaceDocument localeCompare room [] documentId

end Storage

section Listings

variable {localeCompare : Text → Text → Ordering} {room : Payload → Bool} {item item' : Option Item}

def readable : Option Item → List ComposerDocument
  | some (.read (.array parsed)) => parsed.filterMap parseComposerDocument
  | _ => []

def shown (localeCompare : Text → Text → Ordering) (item : Option Item) (id : Text) : List ComposerDocument :=
  (newestFirst localeCompare (readable item)).filter (·.id = id)

theorem setItem_spec (documents : List ComposerDocument) (item : Option Item) :
    setItem room documents item = (none, item) ∧ (∃ written, room written = false) ∨
      ∃ stored, setItem room documents item = (some (), stored) ∧ readable stored = documents := by
  unfold setItem
  dsimp only
  split
  · exact .inr ⟨_, rfl, filterMap_payload documents⟩
  · rename_i full
    exact .inl ⟨rfl, _, Bool.eq_false_iff.mpr full⟩

theorem listDocuments_spec (item : Option Item) : readable (listDocuments localeCompare room item).2 = readable item ∧
    ((listDocuments localeCompare room item).1 = some (newestFirst localeCompare (readable item)) ∨
      (listDocuments localeCompare room item).1 = none ∧ ∃ written, room written = false) := by
  have nothing : some [] = some (newestFirst localeCompare []) := by simp [newestFirst]
  unfold listDocuments
  split
  · exact ⟨rfl, .inl nothing⟩
  · exact ⟨rfl, .inl nothing⟩
  · rename_i parsed
    dsimp only
    split
    · split
      · rename_i unread
        have stored : readable (some (.read (.array parsed))) = [] := List.isEmpty_iff.mp unread
        rw [stored]
        exact ⟨rfl, .inl nothing⟩
      · rcases setItem_spec (parsed.filterMap parseComposerDocument) (some (.read (.array parsed))) with
          ⟨thrown, full⟩ | ⟨stored, written, same⟩
        · rw [thrown]
          exact ⟨rfl, .inr ⟨rfl, full⟩⟩
        · rw [written]
          exact ⟨same, .inl rfl⟩
    · exact ⟨rfl, .inl rfl⟩
  · exact ⟨rfl, .inl nothing⟩
  · rename_i payload other
    have stored : readable (some (.read payload)) = [] := by
      cases payload with
      | array parsed => exact (other parsed rfl).elim
      | _ => rfl
    rw [stored]
    exact ⟨rfl, .inl nothing⟩

theorem filter_gone (documents : List ComposerDocument) (id : Text) :
    (documents.filter (·.id ≠ id)).filter (·.id = id) = [] := by
  simp [List.filter_filter]

theorem filter_others {id other : Text} (different : other ≠ id) (documents : List ComposerDocument) :
    (documents.filter (·.id ≠ id)).filter (·.id = other) = documents.filter (·.id = other) := by
  rw [List.filter_filter]
  congr 1
  funext document
  rw [Bool.and_eq_left_iff_imp, decide_eq_true_eq, decide_eq_true_eq]
  rintro rfl
  exact different

theorem shown_same (same : readable item' = readable item) : shown localeCompare item' = shown localeCompare item := by
  unfold shown
  rw [same]

variable [Std.TransCmp localeCompare]

theorem newer_trans (a b c : ComposerDocument) (first : newer localeCompare a b) (second : newer localeCompare b c) :
    newer localeCompare a c :=
  Std.TransCmp.isLE_trans second first

theorem newer_total (a b : ComposerDocument) : newer localeCompare a b || newer localeCompare b a := by
  unfold newer
  rw [@Std.OrientedCmp.eq_swap _ localeCompare _ a.updatedAtIso]
  cases localeCompare b.updatedAtIso a.updatedAtIso <;> rfl

theorem newestFirst_sorted (documents : List ComposerDocument) :
    (newestFirst localeCompare documents).Pairwise fun left right => newer localeCompare left right :=
  List.pairwise_mergeSort newer_trans newer_total documents

/-- The sort is stable, so it leaves a selection that is in order as it is. -/
theorem newestFirst_filter {documents : List ComposerDocument} {chosen : ComposerDocument → Bool}
    (sorted : (documents.filter chosen).Pairwise fun left right => newer localeCompare left right) :
    (newestFirst localeCompare documents).filter chosen = documents.filter chosen := by
  have within := (List.sublist_mergeSort newer_trans newer_total sorted List.filter_sublist).filter chosen
  rw [List.filter_filter] at within
  simp only [Bool.and_self] at within
  exact (within.eq_of_length ((List.mergeSort_perm documents _).filter chosen).length_eq.symm).symm

theorem shown_replaced {added : List ComposerDocument} {id : Text} (named : ∀ document ∈ added, document.id = id)
    (sorted : added.Pairwise fun left right => newer localeCompare left right)
    (stored : readable item' = added ++ (newestFirst localeCompare (readable item)).filter (·.id ≠ id)) :
    shown localeCompare item' = Function.update (shown localeCompare item) id added := by
  have kept : ∀ other, (readable item').filter (·.id = other) =
      Function.update (shown localeCompare item) id added other := by
    intro other
    rw [stored, List.filter_append]
    rcases eq_or_ne other id with rfl | different
    · rw [filter_gone, List.append_nil, Function.update_self, List.filter_eq_self]
      intro document member
      exact decide_eq_true (named document member)
    · have foreign : added.filter (·.id = other) = [] := by
        rw [List.filter_eq_nil_iff]
        intro document member
        rw [named document member, decide_eq_true_eq]
        exact different.symm
      rw [foreign, filter_others different, Function.update_of_ne different]
      rfl
  funext other
  show (newestFirst localeCompare (readable item')).filter (·.id = other) = _
  rw [newestFirst_filter, kept]
  rw [kept, Function.update_apply]
  split
  · exact sorted
  · exact (newestFirst_sorted _).filter _

theorem replaceDocument_shown {added : List ComposerDocument} {id : Text}
    (named : ∀ document ∈ added, document.id = id)
    (sorted : added.Pairwise fun left right => newer localeCompare left right) (item : Option Item) :
    shown localeCompare (replaceDocument localeCompare room added id item).2 =
      match (replaceDocument localeCompare room added id item).1 with
      | none => shown localeCompare item
      | some () => Function.update (shown localeCompare item) id added := by
  have spec := @listDocuments_spec localeCompare room item
  unfold replaceDocument
  rcases called : listDocuments localeCompare room item with ⟨answer, listed⟩
  rw [called] at spec
  rcases spec with ⟨kept, rfl | ⟨rfl, _⟩⟩
  · rcases setItem_spec (added ++ (newestFirst localeCompare (readable item)).filter (·.id ≠ id)) listed with
      ⟨thrown, _⟩ | ⟨stored, written, same⟩
    · dsimp only
      rw [thrown]
      exact shown_same kept
    · dsimp only
      rw [written]
      exact shown_replaced named sorted same
  · exact shown_same kept

end Listings

section Runs

variable (localeCompare : Text → Text → Ordering)

inductive Request where
  | list
  | save (document : ComposerDocument)
  | delete (documentId : Text)

abbrev Shelf := Text → List ComposerDocument

def Request.leaves : Request → Shelf → Shelf
  | .list, shelf => shelf
  | .save document, shelf => Function.update shelf document.id [document]
  | .delete documentId, shelf => Function.update shelf documentId []

def serve (room : Payload → Bool) : Request → Option Item → Option Unit × Option Item
  | .list, item => ((listDocuments localeCompare room item).1.map fun _ => (), (listDocuments localeCompare room item).2)
  | .save document, item => saveDocument localeCompare room document item
  | .delete documentId, item => deleteDocument localeCompare room documentId item

/-- A request, in a browser with room for some texts. One that throws is to leave the shelf as it was. -/
def visit (s : Option Item × Shelf) (turn : Request × (Payload → Bool)) : Option Item × Shelf :=
  let served := serve localeCompare turn.2 turn.1 s.1
  (served.2, match served.1 with
    | none => s.2
    | some () => turn.1.leaves s.2)

def visits (item : Option Item) (turns : List (Request × (Payload → Bool))) : Option Item × Shelf :=
  turns.foldl (visit localeCompare) (item, shown localeCompare item)

variable {localeCompare} [Std.TransCmp localeCompare]

theorem visit_shown {item : Option Item} {shelf : Shelf} (agrees : shown localeCompare item = shelf) (request : Request)
    (room : Payload → Bool) : shown localeCompare (visit localeCompare (item, shelf) (request, room)).1 =
      (visit localeCompare (item, shelf) (request, room)).2 := by
  cases agrees
  unfold visit
  dsimp only
  cases request with
  | list =>
    rw [serve, shown_same (listDocuments_spec item).1]
    split
    · rfl
    · rfl
  | save document =>
    have named : ∀ added ∈ [document], added.id = document.id := by simp
    exact replaceDocument_shown named (List.pairwise_singleton _ document) item
  | delete documentId =>
    have named : ∀ added ∈ ([] : List ComposerDocument), added.id = documentId := by simp
    exact replaceDocument_shown named .nil item

theorem visits_shown (item : Option Item) (turns : List (Request × (Payload → Bool))) :
    shown localeCompare (visits localeCompare item turns).1 = (visits localeCompare item turns).2 := by
  induction turns using List.reverseRecOn with
  | nil => rfl
  | append_singleton turns turn ih =>
    unfold visits
    rw [List.foldl_concat]
    exact visit_shown ih turn.1 turn.2

theorem listings_follow_the_requests (item : Option Item) (turns : List (Request × (Payload → Bool)))
    {room : Payload → Bool} (roomy : ∀ written, room written = true) :
    ∃ documents, (listDocuments localeCompare room (visits localeCompare item turns).1).1 = some documents ∧
      (documents.Pairwise fun left right => newer localeCompare left right) ∧
      ∀ id, documents.filter (·.id = id) = (visits localeCompare item turns).2 id := by
  rcases (listDocuments_spec (visits localeCompare item turns).1).2 with listed | ⟨_, written, full⟩
  · exact ⟨_, listed, newestFirst_sorted _, congrFun (visits_shown item turns)⟩
  · cases (roomy written).symm.trans full

def lesson (updatedAtIso : String) : ComposerDocument :=
  ⟨ascii "lesson", ascii "Lesson 1", [.plain (ascii "span-1") (ascii "Visit ")], ascii updatedAtIso⟩

def savedTwice : List (Request × (Payload → Bool)) :=
  [(.save (lesson "2026-04-30T12:00:00.000Z"), fun _ => true), (.save (lesson "2026-05-01T12:00:00.000Z"), fun _ => true)]

theorem listings_follow_the_requests_again :
    ∃ documents, (listDocuments (List.compareLex compare) (fun _ => true)
        (visits (List.compareLex compare) none savedTwice).1).1 = some documents ∧
      (documents.Pairwise fun left right => newer (List.compareLex compare) left right) ∧
      ∀ id, documents.filter (·.id = id) = (visits (List.compareLex compare) none savedTwice).2 id :=
  listings_follow_the_requests none savedTwice fun _ => rfl

end Runs

end PinyinComposer

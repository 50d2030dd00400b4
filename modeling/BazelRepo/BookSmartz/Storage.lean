import BazelRepo.BookSmartz.CloudEvents
import BazelRepo.BookSmartz.Command

namespace BookSmartz

open Library

inductive StoreError where
  | invalidComposition
  | invalidEnvelope
  | identity (error : IdentityError)
  | domain (error : DomainError)
  | corruptHistory (message : String)
  | database
  deriving DecidableEq

/-- The book table under its constraints: work IDs are well formed and belong to one book. -/
structure BookTable where
  rows : BTreeMap BookId String
  valid : ∀ (id : BookId) (workId : String), rows[id]? = some workId → isWorkId workId
  unique : ∀ (a b : BookId) (workId : String), rows[a]? = some workId → rows[b]? = some workId → a = b

def BookTable.empty : BookTable where
  rows := ∅
  valid := by simp
  unique := by simp

def BookTable.hasWork (table : BookTable) (workId : String) : Bool :=
  table.rows.toList.any fun row => row.2 == workId

theorem BookTable.hasWork_of_row {table : BookTable} {id : BookId} {workId : String}
    (found : table.rows[id]? = some workId) : table.hasWork workId = true := by
  rw [hasWork, List.any_eq_true]
  exact ⟨(id, workId), BTreeMap.mem_toList.mpr found, by simp⟩

def BookTable.insert (table : BookTable) (book : Book) (fresh : table.hasWork book.workId.val = false) :
    BookTable where
  rows := table.rows.insert book.id book.workId.val
  valid := by
    intro id workId found
    rw [BTreeMap.getElem?_insert_eq] at found
    split at found
    · cases found
      exact book.workId.valid
    · exact table.valid id workId found
  unique := by
    have absent : ∀ id : BookId, table.rows[id]? ≠ some book.workId.val := by
      intro id found
      rw [BookTable.hasWork_of_row found] at fresh
      cases fresh
    intro a b workId first second
    rw [BTreeMap.getElem?_insert_eq] at first second
    split at first <;> split at second
    · rename_i left right
      rw [left, right]
    · cases first
      exact absurd second (absent b)
    · cases second
      exact absurd first (absent a)
    · exact table.unique a b workId first second

inductive Registration where
  | created
  | alreadyPresent
  deriving DecidableEq

def BookTable.register (table : BookTable) (book : Book) : Except StoreError (BookTable × Registration) :=
  match table.rows[book.id]? with
  | some existing =>
    if existing = book.workId.val then .ok (table, .alreadyPresent) else .error (.identity .bookIdConflict)
  | none =>
    if fresh : table.hasWork book.workId.val = false then .ok (table.insert book fresh, .created)
    else .error (.identity .workIdConflict)

structure EventRow where
  readerId : ReaderId
  eventId : EventId
  candidate : BookId
  opponent : Option BookId
  envelope : Json

abbrev EventRows := BTreeMap String EventRow

/-- The text of a member; structured values never pass for one of the texts compared here. -/
def memberText (value : Json) (name : String) : Option String :=
  match value.member name with
  | some (.string text) => some text
  | some (.bool value) => some (if value then "true" else "false")
  | some (.number (.integer value)) => some (toString value)
  | some (.number (.decimal text)) => some text
  | _ => none

def validSequence (sequence : String) : Bool :=
  sequence.length == 20 && sequence.toList.all isAsciiDigit && "00000000000000000000" < sequence &&
    sequence ≤ "18446744073709551615"

def numericText (sequence : String) : String :=
  ((parseU64 sequence).map toString).getD ""

def validCommon (sequence : String) (row : EventRow) (data : Json) : Bool :=
  memberText row.envelope "specversion" == some "1.0" &&
    memberText row.envelope "id" == some (toString row.eventId.val) &&
    memberText row.envelope "source" == some (sourceOf row.readerId) &&
    memberText row.envelope "subject" == some (subjectOf row.candidate) &&
    (memberText row.envelope "time").any (fun text => !text.isEmpty) &&
    memberText row.envelope "datacontenttype" == some "application/json" &&
    memberText row.envelope "sequence" == some sequence &&
    memberText data "readerId" == some (toString row.readerId.val) &&
    memberText data "candidateBookId" == some (toString row.candidate.val) &&
    memberText data "sequence" == some (numericText sequence)

def validVariant (row : EventRow) (data : Json) : Bool :=
  match row.opponent with
  | some opponent =>
    memberText row.envelope "type" == some "bookranking.comparison.answered.v1" &&
      memberText data "opponentBookId" == some (toString opponent.val) &&
      (memberText data "choice").any (["skip", "prefer_candidate", "prefer_opponent"].contains ·)
  | none =>
    (memberText row.envelope "type").any
        (["bookranking.placement.started.v1", "bookranking.placement.paused.v1",
          "bookranking.placement.resumed.v1"].contains ·) &&
      (data.member "opponentBookId").isNone

def validEnvelope (sequence : String) (row : EventRow) : Bool :=
  match row.envelope.member "data" with
  | some (.object data) => validCommon sequence row (.object data) && validVariant row (.object data)
  | _ => false

/-- The constraints of the event table: its checks, its keys and its references to the books. -/
def insertRow (books : BookTable) (rows : EventRows) (sequence : String) (row : EventRow) :
    Except StoreError EventRows :=
  if ¬ validSequence sequence ∨ ¬ validEnvelope sequence row then .error .database
  else if rows[sequence]?.isSome ∨ rows.toList.any fun stored => stored.2.eventId == row.eventId then
    .error .database
  else if books.rows[row.candidate]?.isNone ∨
      (row.opponent.map fun id => books.rows[id]?.isNone).getD false then
    .error .database
  else .ok (rows.insert sequence row)

def sequenceKey (value : UInt64) : Except StoreError String :=
  if value = 0 then .error (.corruptHistory "sequence is zero") else .ok (padded value)

/-- Counting characters for bytes: a text in which they differ has no 20 digits either way. -/
def parseSequenceKey (value : String) : Except StoreError UInt64 :=
  if value.toList.length ≠ 20 ∨ ¬ value.toList.all isAsciiDigit then
    .error (.corruptHistory "invalid sequence key")
  else do
    let parsed ← okOr (parseU64 value) (.corruptHistory "sequence exceeds u64")
    if parsed = 0 then .error (.corruptHistory "sequence is zero") else .ok parsed

section Documents

variable [UrlParser] [Calendar]

def decodeDocument (value : Json) : Except CodecError CloudEventDocument :=
  match decoded : decodeEvent value with
  | .ok (event, envelope) => .ok ⟨event, envelope, value, decoded⟩
  | .error error => .error error

def EventKind.opponent : EventKind → Option BookId
  | .comparisonAnswered opponent _ => some opponent
  | _ => none

def decodeRow (reader : ReaderId) (row : String × EventRow) : Except StoreError CloudEventDocument :=
  if (row.2.envelope.member "sequence").bind Json.asStr ≠ some row.1 then
    .error (.corruptHistory "invalid stored sequence extension")
  else do
    let sequence ← parseSequenceKey row.1
    let document ← (decodeDocument row.2.envelope).mapError fun _ =>
      .corruptHistory "invalid stored event envelope"
    let event := document.event
    if row.2.readerId ≠ reader ∨ event.metadata.readerId ≠ reader ∨ sequence ≠ event.metadata.sequence.value ∨
        row.2.eventId ≠ event.metadata.id ∨ row.2.candidate ≠ event.candidate ∨
        row.2.opponent ≠ event.kind.opponent then
      .error (.corruptHistory "stored event index differs from envelope")
    else .ok document

structure RankingHistory where
  ranking : Ranking
  documents : List CloudEventDocument

def replayRows (reader : ReaderId) (rows : EventRows) : Except StoreError RankingHistory := do
  let documents ← rows.toList.mapM (decodeRow reader)
  let ranking ← (Ranking.fromHistory reader (documents.map CloudEventDocument.event)).mapError fun _ =>
    .corruptHistory "invalid ranking transition"
  .ok ⟨ranking, documents⟩

def documentRow (document : CloudEventDocument) : EventRow where
  readerId := document.event.metadata.readerId
  eventId := document.event.metadata.id
  candidate := document.event.candidate
  opponent := document.event.kind.opponent
  envelope := encodeDocument document

def insertDocument (books : BookTable) (rows : EventRows) (document : CloudEventDocument) :
    Except StoreError EventRows := do
  let key ← sequenceKey document.event.metadata.sequence.value
  insertRow books rows key (documentRow document)

def referencedBooks (books : BookTable) (command : Command) : Except StoreError BookRegistry :=
  match command.referenced with
  | none => .ok {}
  | some id =>
    match books.rows[id]? with
    | none => .ok {}
    | some workId => do
      let workId ← (OpenLibraryWorkId.tryFrom workId).mapError fun _ =>
        .corruptHistory "invalid stored book work ID"
      (BookRegistry.register {} ⟨id, workId⟩).mapError fun _ => .corruptHistory "invalid stored book identity"

/-- The body of a command under the lock of its reader, up to its commit. -/
def executeInTransaction (books : BookTable) (reader : ReaderId) (rows : EventRows) (context : CommandContext)
    (command : Command) : Except StoreError (RankingEvent × Ranking × EventRows) := do
  let history ← replayRows reader rows
  let registry ← referencedBooks books command
  let executed ← (history.ranking.execute registry context command).mapError StoreError.domain
  let encoded ← (encodeEvent executed.1).mapError fun _ => .corruptHistory "invalid proposed event envelope"
  let document ← (decodeDocument encoded).mapError fun _ => .corruptHistory "invalid proposed event envelope"
  if document.event ≠ executed.1 then .error (.corruptHistory "proposed event failed roundtrip")
  else
    let inserted ← insertDocument books rows document
    .ok (executed.1, executed.2, inserted)

end Documents

end BookSmartz

import BazelRepo.PinyinComposer.Editor

namespace PinyinComposer

structure DocumentTextReplacement where
  startOffset : Int
  endOffset : Int
  text : Text

/-- A promise the worker client still holds: the identity and the text it posted to the worker, and the
request number that the page awaits it under. Identities are random and never collide, so they are counted. -/
structure PendingConversion where
  id : Nat
  sourcePinyin : Text
  limit : Nat
  requestId : Nat
  deriving DecidableEq

structure Page where
  editor : EditorState := {}
  candidates : List Candidate := []
  conversionError : String := ""
  conversionRequestId : Nat := 0
  pending : List PendingConversion := []
  posted : Nat := 0
  deriving DecidableEq

inductive WorkerResponse where
  | conversionResult (candidates : List Candidate)
  | conversionError (message : String)

def nonEmptyDocumentRange (editor : EditorState) (startOffset endOffset : Int) : Option DocumentRange :=
  if trim (slice (documentText editor.spans) startOffset endOffset) ≠ [] then some ⟨startOffset, endOffset⟩ else none

def touchedRange (previousRange : Option DocumentRange) (replacement : DocumentTextReplacement) :
    Option DocumentRange :=
  previousRange.filter fun previous =>
    replacement.startOffset ≤ previous.endOffset && previous.startOffset ≤ replacement.endOffset

def pendingRangeAfterReplacement (editor : EditorState) (previousRange : Option DocumentRange)
    (replacement : DocumentTextReplacement) (replacementRange : DocumentRange) : Option DocumentRange :=
  if 0x0A ∈ replacement.text then none
  else
    match touchedRange previousRange replacement with
    | some previous =>
      let deletedLength := replacement.endOffset - replacement.startOffset
      let insertedLength : Int := replacement.text.length
      let startOffset := min previous.startOffset replacementRange.startOffset
      let endOffset := max startOffset (previous.endOffset - deletedLength + insertedLength)
      nonEmptyDocumentRange editor startOffset endOffset
    | none =>
      if trim replacement.text = [] then none
      else nonEmptyDocumentRange editor replacementRange.startOffset replacementRange.endOffset

def convertPinyin (page : Page) (sourcePinyin : Text) (limit requestId : Nat) : Page :=
  { page with
    pending := page.pending ++ [{ id := page.posted, sourcePinyin, limit, requestId }]
    posted := page.posted + 1 }

def bufferOf (editor : EditorState) (pendingRange : Option DocumentRange) : Text :=
  match pendingRange with
  | some range => slice (documentText editor.spans) range.startOffset range.endOffset
  | none => []

def replaceDocumentText [RandomUuid] (page : Page) (replacement : DocumentTextReplacement) : Page :=
  let previousPendingRange := page.editor.pendingRange
  let previousTrimmedInputBuffer := trim page.editor.inputBuffer
  let (replaced, replacementRange) :=
    page.editor.replaceRange replacement.startOffset replacement.endOffset replacement.text
  let pendingRange := pendingRangeAfterReplacement replaced previousPendingRange replacement replacementRange
  let inputBuffer := bufferOf replaced pendingRange
  let trimmedInputBuffer := trim inputBuffer
  let page := { page with editor := (replaced.setPendingRange pendingRange).updateInputBuffer inputBuffer }
  if trimmedInputBuffer = [] then { page with candidates := [] }
  else if previousPendingRange.isSome ∧ trim replacement.text = [] ∧
      trimmedInputBuffer = previousTrimmedInputBuffer then
    page
  else
    let requestId := page.conversionRequestId + 1
    convertPinyin { page with conversionError := "", conversionRequestId := requestId } trimmedInputBuffer 5 requestId

def conversionSettled (page : Page) (requestId : Nat) (response : WorkerResponse) : Page :=
  if requestId ≠ page.conversionRequestId then page
  else
    match response with
    | .conversionResult candidates => { page with candidates }
    | .conversionError message => { page with candidates := [], conversionError := message }

/-- A message of the worker; the awaiting continuation runs before any other event. -/
def handleMessage (page : Page) (id : Nat) (response : WorkerResponse) : Page :=
  match page.pending.find? fun conversion => conversion.id == id with
  | none => page
  | some conversion =>
    conversionSettled { page with pending := page.pending.filter fun other => other.id != id }
      conversion.requestId response

variable [RandomUuid] [HanScript]

def commitCandidate (page : Page) (candidate : Candidate) : Page :=
  match page.editor.pendingRange with
  | none => { page with candidates := [] }
  | some range => { page with editor := page.editor.commitCandidateToRange range.startOffset range.endOffset candidate, candidates := [] }

def commitTopCandidate (page : Page) : Page :=
  match page.candidates with
  | [] => page
  | top :: _ => commitCandidate page top

inductive Action where
  | replaceDocumentText (replacement : DocumentTextReplacement)
  | commitTopCandidate
  | commitCandidate (candidate : Candidate)
  /-- The worker answers a request, with the conversion of its text or with an error. -/
  | reply (id : Nat) (failure : Option String)

def workerResponse (convert : Text → Nat → List Candidate) (conversion : PendingConversion) :
    Option String → WorkerResponse
  | none => .conversionResult (convert conversion.sourcePinyin conversion.limit)
  | some message => .conversionError message

def Page.reply (convert : Text → Nat → List Candidate) (page : Page) (id : Nat) (failure : Option String) : Page :=
  match page.pending.find? fun conversion => conversion.id == id with
  | none => page
  | some conversion => handleMessage page id (workerResponse convert conversion failure)

def Page.step (convert : Text → Nat → List Candidate) (page : Page) : Action → Page
  | .replaceDocumentText replacement => PinyinComposer.replaceDocumentText page replacement
  | .commitTopCandidate => PinyinComposer.commitTopCandidate page
  | .commitCandidate candidate => PinyinComposer.commitCandidate page candidate
  | .reply id failure => page.reply convert id failure

def Action.answersNewest (page : Page) : Action → Bool
  | .reply id _ => page.pending.any fun conversion =>
      conversion.id == id && conversion.requestId == page.conversionRequestId
  | _ => false

structure Session where
  page : Page := {}
  failed : Option String := none

def Session.failedAfter (session : Session) (page : Page) (action : Action) : Option String :=
  if session.page.conversionRequestId ≠ page.conversionRequestId then none
  else
    match action with
    | .reply _ failure => if action.answersNewest session.page then failure else session.failed
    | _ => session.failed

def Session.step (convert : Text → Nat → List Candidate) (session : Session) (action : Action) : Session :=
  let page := session.page.step convert action
  { page, failed := session.failedAfter page action }

def Session.run (convert : Text → Nat → List Candidate) (session : Session) (actions : List Action) : Session :=
  actions.foldl (Session.step convert) session

/-- An answer to the newest request comes while some input is still pending. -/
def Action.Timely (page : Page) (action : Action) : Prop :=
  action.answersNewest page → page.editor.pendingRange ≠ none

def Session.Timely (convert : Text → Nat → List Candidate) (session : Session) : List Action → Prop
  | [] => True
  | action :: rest => action.Timely session.page ∧ (session.step convert action).Timely convert rest

end PinyinComposer

import BazelRepo.Library.Checked
import BazelRepo.Library.Interleaving
import BazelRepo.Library.Json

namespace BookSmartz.ProfileSaves

open Library

structure SaveId where
  val : Uuid
  deriving DecidableEq

structure Offer where
  id : SaveId
  revision : Int
  deriving DecidableEq

structure Text where
  name : String
  biography : String
  deriving DecidableEq

structure Errors where
  name : Option String := none
  biography : Option String := none
  deriving DecidableEq

def Errors.any (errors : Errors) : Bool := errors.name.isSome || errors.biography.isSome

/-- The extended grapheme clusters of a text. -/
class Graphemes where
  count : String → Nat

def isLineBreak (c : Char) : Bool :=
  ['\n', '\r', '\x0b', '\x0c', '\u0085', '\u2028', '\u2029'].contains c

def normalizeNewlines : List Char → List Char
  | '\r' :: '\n' :: rest => '\n' :: normalizeNewlines rest
  | '\r' :: rest => '\n' :: normalizeNewlines rest
  | c :: rest => c :: normalizeNewlines rest
  | [] => []

def nameError [Graphemes] (name : String) : Option String :=
  if name.toList.any isLineBreak then some "Use one line for your display name."
  else if 100 < Graphemes.count name then some "Use 100 visible characters or fewer for your display name."
  else none

def Text.validate [Graphemes] (name biography : String) : Except Errors Text :=
  let text : Text :=
    { name := trim name
      biography := if biography.toList.all isWhiteSpace then "" else String.ofList (normalizeNewlines biography.toList) }
  let errors : Errors :=
    { name := nameError text.name
      biography := if 500 < Graphemes.count text.biography then
        some "Use 500 visible characters or fewer for your biography." else none }
  if errors.any then .error errors else .ok text

/-- The `outcome` column. -/
inductive Recorded where
  | pending
  | saved
  | failed
  | conflict
  deriving DecidableEq

structure Submission where
  id : SaveId
  revision : Int
  text : Option Text
  outcome : Recorded
  acknowledged : Bool
  deriving DecidableEq

structure Profile where
  text : Text
  revision : Int
  importAttempted : Bool
  deriving DecidableEq

structure Tables where
  submissions : List Submission := []
  profile : Option Profile := none
  deriving DecidableEq

structure Attempt where
  offer : Offer
  text : Option Text
  outcome : Recorded
  deriving DecidableEq

def attempt (row : Submission) : Attempt := ⟨⟨row.id, row.revision⟩, row.text, row.outcome⟩

inductive Outcome where
  | saved
  | failed
  | conflict
  | unconfirmed
  | blocked (attempt : Attempt)
  | changedSubmission
  deriving DecidableEq

inductive SqlError where
  | constraint
  | protocol (text : String)
  deriving DecidableEq

def Submission.Checked (row : Submission) : Prop := 0 ≤ row.revision ∧ (row.outcome = .failed ∨ row.text.isSome = true)

instance (row : Submission) : Decidable row.Checked := inferInstanceAs (Decidable (_ ∧ _))

/-- The primary key, the row checks and the unique index on what is not acknowledged. -/
structure Tables.Accepted (tables : Tables) : Prop where
  key : (tables.submissions.map Submission.id).Nodup
  checked : ∀ row ∈ tables.submissions, row.Checked
  unconfirmed : tables.submissions.countP (fun row => !row.acknowledged) ≤ 1
  revision : ∀ profile ∈ tables.profile, 0 ≤ profile.revision

instance (tables : Tables) : Decidable tables.Accepted :=
  decidable_of_iff ((tables.submissions.map Submission.id).Nodup ∧ (∀ row ∈ tables.submissions, row.Checked) ∧
      tables.submissions.countP (fun row => !row.acknowledged) ≤ 1 ∧ ∀ profile ∈ tables.profile, 0 ≤ profile.revision)
    ⟨fun h => ⟨h.1, h.2.1, h.2.2.1, h.2.2.2⟩, fun h => ⟨h.key, h.checked, h.unconfirmed, h.revision⟩⟩

def constrained (tables : Tables) : Except SqlError Tables :=
  if tables.Accepted then .ok tables else .error .constraint

def Tables.insert (tables : Tables) (row : Submission) : Except SqlError Tables :=
  constrained { tables with submissions := tables.submissions ++ [row] }

def Tables.update (tables : Tables) (id : SaveId) (change : Submission → Submission) : Except SqlError Tables :=
  constrained { tables with submissions := tables.submissions.map fun row => if row.id = id then change row else row }

def Tables.setProfile (tables : Tables) (profile : Profile) : Except SqlError Tables :=
  constrained { tables with profile := some profile }

def Tables.row (tables : Tables) (id : SaveId) : Option Submission := tables.submissions.find? fun row => row.id = id

def find (tables : Tables) (id : SaveId) : Option Attempt := (tables.row id).map attempt

def pendingLocked (tables : Tables) : Option Attempt :=
  (tables.submissions.find? fun row => !row.acknowledged).map attempt

def revisionOf (tables : Tables) : Int := (tables.profile.map Profile.revision).getD 0

def checkedSucc (revision : Int) : Option Int := if revision < 2 ^ 63 - 1 then some (revision + 1) else none

inductive Prepared where
  | answered (outcome : Outcome)
  | settled
  | ready
  deriving DecidableEq

inductive Checking where
  | answered (outcome : Outcome)
  | settled
  deriving DecidableEq

def prepareLocked (offer : Offer) (text : Text) (tables : Tables) : Except SqlError (Tables × Prepared) :=
  match find tables offer.id with
  | some row =>
    if row.offer.revision ≠ offer.revision ∨ row.text.any (· != text) = true then
      .ok (tables, .answered .changedSubmission)
    else if row.outcome ≠ .pending then .ok (tables, .settled)
    else .ok (tables, .ready)
  | none =>
    match pendingLocked tables with
    | some row => .ok (tables, .answered (.blocked row))
    | none => do
      let inserted ← tables.insert ⟨offer.id, offer.revision, some text, .pending, false⟩
      .ok (inserted, .ready)

def writeProfile (offer : Offer) (text : Text) (tables : Tables) : Except SqlError Tables := do
  let next ← okOr (checkedSucc offer.revision) (.protocol "profile revision exhausted")
  tables.setProfile ⟨text, next, true⟩

def applyLocked (offer : Offer) (text : Text) (tables : Tables) : Except SqlError (Tables × Bool) :=
  match find tables offer.id with
  | none => .ok (tables, false)
  | some row =>
    if row.outcome ≠ .pending then .ok (tables, false)
    else if revisionOf tables ≠ offer.revision then do
      let decided ← tables.update offer.id fun row => { row with outcome := .conflict }
      .ok (decided, true)
    else do
      let written ← writeProfile offer text tables
      let decided ← written.update offer.id fun row => { row with outcome := .saved }
      .ok (decided, true)

def Recorded.outcome : Recorded → Outcome
  | .pending => .unconfirmed
  | .saved => .saved
  | .failed => .failed
  | .conflict => .conflict

def acknowledgeLocked (offer : Offer) (tables : Tables) : Except SqlError (Tables × Outcome) :=
  match find tables offer.id with
  | none => .ok (tables, .unconfirmed)
  | some row =>
    if row.outcome = .pending then .ok (tables, .unconfirmed)
    else do
      let acknowledged ← tables.update offer.id fun row => { row with acknowledged := true }
      .ok (acknowledged, row.outcome.outcome)

/-- A terminal rejection prevents a late writer from applying the submission. -/
def checkLocked (offer : Offer) (tables : Tables) : Except SqlError (Tables × Checking) :=
  match find tables offer.id with
  | some row =>
    if row.outcome ≠ .pending then .ok (tables, .settled)
    else do
      let rejected ← tables.update offer.id fun row => { row with outcome := .failed, acknowledged := true }
      .ok (rejected, .answered .failed)
  | none =>
    match pendingLocked tables with
    | some row => .ok (tables, .answered (.blocked row))
    | none => do
      let rejected ← tables.insert ⟨offer.id, offer.revision, none, .failed, true⟩
      .ok (rejected, .answered .failed)

def recoveryRequiresCheck (offer : Offer) (tables : Tables) : Except SqlError (Tables × Bool) :=
  match find tables offer.id with
  -- A rejection without submitted text excludes every late original writer.
  | some row => .ok (tables, row.outcome ≠ .failed || row.text.isSome)
  | none => do
    let rejected ← tables.insert ⟨offer.id, offer.revision, none, .failed, true⟩
    .ok (rejected, false)

structure Draft where
  offer : Option Offer
  checking : Option (Option Offer)
  text : Text

structure Editor where
  offer : Offer
  checking : Option Offer
  draft : Text

def restoredEditor (draft : Draft) (offer : Offer) (checking : Option Offer) (submitted : Bool) (fresh : SaveId) :
    Editor :=
  { offer := if submitted then offer else ⟨fresh, offer.revision⟩
    checking := if checking.isNone && submitted then some offer else checking
    draft := draft.text }

/-- The editor, or nothing where the request is forbidden; only the former is committed. -/
def restoreLocked (draft : Option Draft) (fresh : SaveId) (tables : Tables) :
    Except SqlError (Tables × Option Editor) :=
  match draft with
  | none => .ok (tables, none)
  | some draft =>
    match draft.offer with
    | none => .ok (tables, none)
    | some offer => do
      let checked ← recoveryRequiresCheck offer tables
      match draft.checking with
      | some none => .ok (tables, none)
      | some (some checking) => .ok (checked.1, some (restoredEditor draft offer (some checking) checked.2 fresh))
      | none => .ok (checked.1, some (restoredEditor draft offer none checked.2 fresh))

def importedName [Graphemes] (name : Option String) : String :=
  match Text.validate ((name.filter fun value => !value.toList.contains '\x00').getD "") "" with
  | .ok text => text.name
  | .error _ => ""

/-- The first import keeps the revision, so that an open draft can override it. -/
def importProfile [Graphemes] (name : Option String) (tables : Tables) : Except SqlError Tables :=
  match tables.profile with
  | none => tables.setProfile ⟨⟨importedName name, ""⟩, 0, true⟩
  | some profile =>
    if profile.importAttempted then .ok tables
    else tables.setProfile ⟨⟨importedName name, profile.text.biography⟩, profile.revision, true⟩

def importName [Graphemes] (name : Option String) (tables : Tables) : Except SqlError (Tables × Unit) := do
  let imported ← importProfile name tables
  .ok (imported, ())

inductive Transaction where
  | prepare (offer : Offer) (text : Text)
  | apply (offer : Offer) (text : Text)
  | acknowledge (offer : Offer)
  | check (offer : Offer)
  | restore (draft : Option Draft) (fresh : SaveId)
  | importName (name : Option String)

abbrev Transaction.Result : Transaction → Type
  | .prepare .. => Prepared
  | .apply .. => Bool
  | .acknowledge _ => Outcome
  | .check _ => Checking
  | .restore .. => Option Editor
  | .importName _ => Unit

def Transaction.execute [Graphemes] : (transaction : Transaction) → Tables →
    Except SqlError (Tables × transaction.Result)
  | .prepare offer text => prepareLocked offer text
  | .apply offer text => applyLocked offer text
  | .acknowledge offer => acknowledgeLocked offer
  | .check offer => checkLocked offer
  | .restore draft fresh => restoreLocked draft fresh
  | .importName name => ProfileSaves.importName name

/-- Where a transaction stops: before its lock, in a statement, in the rollback after one, or in the commit. -/
inductive Interruption where
  | unlocked
  | statement
  | rollback
  | commit
  deriving DecidableEq

abbrev Transaction.Answer (transaction : Transaction) : Type := Except Interruption transaction.Result

abbrev Saving (α : Type) := Program Transaction Transaction.Answer α

def acknowledge (offer : Offer) : Saving (Except Interruption Outcome) := Program.perform (Transaction.acknowledge offer)

def acknowledged (result : Except Interruption Outcome) : Outcome := result.toOption.getD .unconfirmed

def prepare (offer : Offer) (text : Text) : Saving (Except Interruption (Option Outcome)) := do
  match ← Program.perform (Transaction.prepare offer text) with
  | .error interruption => return .error interruption
  | .ok (.answered outcome) => return .ok (some outcome)
  | .ok .settled => return (← acknowledge offer).map some
  | .ok .ready => return .ok none

def check (offer : Offer) : Saving Outcome := do
  match ← Program.perform (Transaction.check offer) with
  | .error _ => return .unconfirmed
  | .ok .settled => return acknowledged (← acknowledge offer)
  | .ok (.answered outcome) => return outcome

def applyText (offer : Offer) (text : Text) : Saving Outcome := do
  match ← Program.perform (Transaction.apply offer text) with
  | .error .statement => check offer
  | .error _ => return .unconfirmed
  | .ok _ => return acknowledged (← acknowledge offer)

def save (offer : Offer) (text : Text) : Saving Outcome := do
  match ← prepare offer text with
  | .ok (some outcome) => return outcome
  | .error _ => return .unconfirmed
  | .ok none => applyText offer text

inductive Request where
  | save (offer : Offer) (text : Text)
  | check (offer : Offer)
  | restore (draft : Option Draft) (fresh : SaveId)
  | importName (name : Option String)

inductive Response where
  | outcome (offer : Offer) (outcome : Outcome)
  | editor (editor : Option Editor)
  | imported (done : Bool)

def Request.program : Request → Saving Response
  | .save offer text => return .outcome offer (← ProfileSaves.save offer text)
  | .check offer => return .outcome offer (← ProfileSaves.check offer)
  | .restore draft fresh => do
    match ← Program.perform (Transaction.restore draft fresh) with
    | .ok editor => return .editor editor
    | .error _ => return .editor none
  | .importName name => do
    match ← Program.perform (Transaction.importName name) with
    | .ok _ => return .imported true
    | .error _ => return .imported false

structure Write where
  id : SaveId
  text : Text
  before : Int
  after : Int
  deriving DecidableEq

/-- The rows of a reader and the writes of their saves so far. -/
structure History where
  tables : Tables
  writes : List Write := []

def Transaction.written (before after : Tables) : Transaction → List Write
  | .apply offer text =>
    if after.profile = before.profile then []
    else [⟨offer.id, text, revisionOf before, revisionOf after⟩]
  | _ => []

def History.committed (history : History) (transaction : Transaction) (after : Tables) : History :=
  ⟨after, history.writes ++ transaction.written history.tables after⟩

/-- A transaction is committed or leaves nothing; its acknowledgement can be lost either way. -/
inductive Runs [Graphemes] : History → (transaction : Transaction) → transaction.Answer → History → Prop where
  | committed {history : History} {transaction : Transaction} {after : Tables} {result : transaction.Result}
    (executed : transaction.execute history.tables = .ok (after, result)) :
    Runs history transaction (.ok result) (history.committed transaction after)
  | unacknowledged {history : History} {transaction : Transaction} {after : Tables} {result : transaction.Result}
    (executed : transaction.execute history.tables = .ok (after, result)) :
    Runs history transaction (.error .commit) (history.committed transaction after)
  | interrupted (history : History) (transaction : Transaction) (interruption : Interruption) :
    Runs history transaction (.error interruption) history

def History.initial (profile : Option (Text × Bool)) : History :=
  ⟨{ profile := profile.map fun stored => ⟨stored.1, 0, stored.2⟩ }, []⟩

end BookSmartz.ProfileSaves

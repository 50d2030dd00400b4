import BazelRepo.Library.Checked
import BazelRepo.Library.Json
import BazelRepo.Library.TreeMap
import Mathlib.Data.Finset.Insert
import Mathlib.Data.List.MinMax
import Mathlib.Data.Prod.Lex

namespace BookSmartz

open Library (BTreeMap Timestamp Uuid isAsciiDigit okOr)

structure BookId where
  val : Uuid
  deriving DecidableEq

structure ReaderId where
  val : Uuid
  deriving DecidableEq

structure EventId where
  val : Uuid
  deriving DecidableEq

instance : Ord BookId := ⟨compareOn fun id => id.val.bits.toNat⟩

instance : Std.TransOrd BookId := inferInstanceAs (Std.TransCmp (compareOn fun id : BookId => id.val.bits.toNat))

instance : Std.LawfulEqOrd BookId :=
  Library.lawfulEqCmp_compareOn fun a b same => by
    rcases a with ⟨⟨a⟩⟩
    rcases b with ⟨⟨b⟩⟩
    cases BitVec.eq_of_toNat_eq same
    rfl

inductive IdentityError where
  | invalidWorkId
  | bookIdConflict
  | workIdConflict
  deriving DecidableEq

/-- The digits between `OL` and `W`, without a leading zero. -/
def isWorkId (value : String) : Bool :=
  match value.toList with
  | 'O' :: 'L' :: rest =>
    rest.getLast? == some 'W' && !rest.dropLast.isEmpty && rest.dropLast.head? != some '0' &&
      rest.dropLast.all isAsciiDigit
  | _ => false

structure OpenLibraryWorkId where
  val : String
  valid : isWorkId val
  deriving DecidableEq

def OpenLibraryWorkId.tryFrom (value : String) : Except IdentityError OpenLibraryWorkId :=
  if valid : isWorkId value then .ok ⟨value, valid⟩ else .error .invalidWorkId

structure Book where
  id : BookId
  workId : OpenLibraryWorkId
  deriving DecidableEq

structure BookRegistry where
  byId : BTreeMap BookId Book := ∅
  byWorkId : BTreeMap String BookId := ∅

def BookRegistry.get (registry : BookRegistry) (id : BookId) : Option Book := registry.byId[id]?

def BookRegistry.register (registry : BookRegistry) (book : Book) : Except IdentityError BookRegistry :=
  match registry.byId[book.id]? with
  | some existing => if existing = book then .ok registry else .error .bookIdConflict
  | none =>
    if registry.byWorkId[book.workId.val]?.isSome then .error .workIdConflict
    else
      .ok
        { byId := registry.byId.insert book.id book
          byWorkId := registry.byWorkId.insert book.workId.val book.id }

inductive ReplayErrorReason where
  | sequenceMismatch (expected : UInt64)
  | sequenceOverflow
  | duplicateEventId
  | wrongReader
  | duplicateBook
  | pendingPlacement
  | noActivePlacement
  | wrongCandidate
  | wrongOpponent
  | placementPaused
  | notPaused
  deriving DecidableEq

structure ReplayError where
  attemptedSequence : UInt64
  reason : ReplayErrorReason
  deriving DecidableEq

inductive DomainError where
  | invalidSequence
  | sequenceOverflow
  | unknownBook
  | staleRevision (expected actual : UInt64)
  | invalidTransition (reason : ReplayErrorReason)
  deriving DecidableEq

structure Sequence where
  value : UInt64
  positive : value ≠ 0
  deriving DecidableEq

def Sequence.new (value : UInt64) : Except DomainError Sequence :=
  if positive : value ≠ 0 then .ok ⟨value, positive⟩ else .error .invalidSequence

def checkedSuccessor (value : UInt64) : Option UInt64 :=
  if value.toNat + 1 < UInt64.size then some (value + 1) else none

theorem checkedSuccessor_eq_some {value next : UInt64} :
    checkedSuccessor value = some next ↔ next.toNat = value.toNat + 1 := by
  have size : UInt64.size = 2 ^ 64 := rfl
  have bound := next.toNat_lt
  unfold checkedSuccessor
  split
  · rename_i fits
    have sum : (value + 1).toNat = value.toNat + 1 := by
      rw [UInt64.toNat_add]
      exact Nat.mod_eq_of_lt fits
    rw [Option.some.injEq, ← UInt64.toNat_inj, sum]
    omega
  · simp
    omega

def Sequence.successor (sequence : Sequence) : Except DomainError Sequence :=
  match next : checkedSuccessor sequence.value with
  | some value =>
    .ok ⟨value, fun zero => by
      have step := checkedSuccessor_eq_some.mp next
      rw [zero] at step
      simp at step⟩
  | none => .error .sequenceOverflow

structure EventMetadata where
  id : EventId
  readerId : ReaderId
  sequence : Sequence
  time : Timestamp
  deriving DecidableEq

inductive ComparisonChoice where
  | preferCandidate
  | preferOpponent
  | skip
  deriving DecidableEq

inductive EventKind where
  | placementStarted
  | comparisonAnswered (opponent : BookId) (choice : ComparisonChoice)
  | placementPaused
  | placementResumed
  deriving DecidableEq

structure RankingEvent where
  metadata : EventMetadata
  candidate : BookId
  kind : EventKind
  deriving DecidableEq

structure RankingEntry where
  bookId : BookId
  addedAt : Timestamp
  deriving DecidableEq

/-- A binary search interrupted between two answers; the book belongs in the positions `lo` to `hi`. -/
structure PlacementSession where
  candidate : BookId
  lo : Nat
  hi : Nat
  skipped : Finset BookId
  paused : Bool
  startedAt : Timestamp
  lastActivityAt : Timestamp
  deriving DecidableEq

structure RankingProjection where
  readerId : ReaderId
  revision : UInt64
  entries : List RankingEntry
  pending : Option PlacementSession
  seenEventIds : Finset EventId
  deriving DecidableEq

def RankingProjection.empty (readerId : ReaderId) : RankingProjection := ⟨readerId, 0, [], none, ∅⟩

def RankingProjection.books (projection : RankingProjection) : List BookId :=
  projection.entries.map RankingEntry.bookId

def absDiff (a b : Nat) : Nat := max a b - min a b

def eligible (entries : List RankingEntry) (pending : PlacementSession) (j : Nat) : Bool :=
  match entries[j]? with
  | some entry => entry.bookId ∉ pending.skipped
  | none => false

/-- The position nearest to the middle whose book was not skipped; the smaller of two equally near. -/
def selectPosition (entries : List RankingEntry) (pending : PlacementSession) : Option Nat :=
  let midpoint := pending.lo + (pending.hi - pending.lo - 1) / 2
  ((List.range' pending.lo (pending.hi - pending.lo)).filter (eligible entries pending)).argmin
    fun j => toLex (absDiff j midpoint, j)

def selectOpponent (entries : List RankingEntry) (pending : PlacementSession) : Option BookId :=
  if pending.paused then none
  else (selectPosition entries pending).bind fun j => entries[j]?.map RankingEntry.bookId

def RankingProjection.nextOpponent (projection : RankingProjection) : Option BookId :=
  projection.pending.bind (selectOpponent projection.entries)

def applyStarted (projection : RankingProjection) (event : RankingEvent) :
    Except ReplayErrorReason RankingProjection :=
  if projection.entries.any fun entry => entry.bookId == event.candidate then .error .duplicateBook
  else if projection.pending.isSome then .error .pendingPlacement
  else if projection.entries.isEmpty then
    .ok { projection with entries := [⟨event.candidate, event.metadata.time⟩] }
  else
    .ok
      { projection with
        pending :=
          some ⟨event.candidate, 0, projection.entries.length, ∅, false, event.metadata.time, event.metadata.time⟩ }

/-- The interval after an answer about the book at position `j`. -/
def PlacementSession.answer (pending : PlacementSession) (j : Nat) (opponent : BookId) (time : Timestamp) :
    ComparisonChoice → PlacementSession
  | .preferCandidate => { pending with hi := j, lastActivityAt := time }
  | .preferOpponent => { pending with lo := j + 1, lastActivityAt := time }
  | .skip => { pending with skipped := insert opponent pending.skipped, lastActivityAt := time }

/-- An empty interval places the book; an interval of skipped books pauses the placement. -/
def settle (projection : RankingProjection) (event : RankingEvent) (pending : PlacementSession) :
    RankingProjection :=
  if pending.lo = pending.hi then
    { projection with
      entries := projection.entries.insertIdx pending.lo ⟨event.candidate, event.metadata.time⟩
      pending := none }
  else if (selectOpponent projection.entries pending).isNone then
    { projection with pending := some { pending with paused := true } }
  else { projection with pending := some pending }

def applyAnswered (projection : RankingProjection) (event : RankingEvent) (opponent : BookId)
    (choice : ComparisonChoice) : Except ReplayErrorReason RankingProjection := do
  let selected := projection.nextOpponent
  let pending ← okOr projection.pending .noActivePlacement
  if pending.candidate ≠ event.candidate then .error .wrongCandidate
  else if pending.paused then .error .placementPaused
  else if selected ≠ some opponent then .error .wrongOpponent
  else
    -- The selected opponent is ranked.
    let j := projection.entries.findIdx fun entry => entry.bookId == opponent
    .ok (settle projection event (pending.answer j opponent event.metadata.time choice))

def applyPaused (projection : RankingProjection) (event : RankingEvent) :
    Except ReplayErrorReason RankingProjection := do
  let pending ← okOr projection.pending .noActivePlacement
  if pending.candidate ≠ event.candidate then .error .wrongCandidate
  else if pending.paused then .error .placementPaused
  else
    .ok
      { projection with
        pending := some { pending with paused := true, lastActivityAt := event.metadata.time } }

def applyResumed (projection : RankingProjection) (event : RankingEvent) :
    Except ReplayErrorReason RankingProjection := do
  let pending ← okOr projection.pending .noActivePlacement
  if pending.candidate ≠ event.candidate then .error .wrongCandidate
  else if ¬ pending.paused then .error .notPaused
  else
    .ok
      { projection with
        pending := some { pending with paused := false, skipped := ∅, lastActivityAt := event.metadata.time } }

def applyKind (projection : RankingProjection) (event : RankingEvent) :
    Except ReplayErrorReason RankingProjection :=
  match event.kind with
  | .placementStarted => applyStarted projection event
  | .comparisonAnswered opponent choice => applyAnswered projection event opponent choice
  | .placementPaused => applyPaused projection event
  | .placementResumed => applyResumed projection event

def apply (projection : RankingProjection) (event : RankingEvent) : Except ReplayError RankingProjection := do
  let sequence := event.metadata.sequence.value
  if event.metadata.readerId ≠ projection.readerId then .error ⟨sequence, .wrongReader⟩
  else
    let expected ← okOr (checkedSuccessor projection.revision) ⟨sequence, .sequenceOverflow⟩
    if sequence ≠ expected then .error ⟨sequence, .sequenceMismatch expected⟩
    else if event.metadata.id ∈ projection.seenEventIds then .error ⟨sequence, .duplicateEventId⟩
    else
      let next ← (applyKind projection event).mapError (ReplayError.mk sequence)
      .ok
        { next with
          revision := sequence
          seenEventIds := insert event.metadata.id next.seenEventIds }

def replay (readerId : ReaderId) (events : List RankingEvent) : Except ReplayError RankingProjection :=
  events.foldlM apply (.empty readerId)

end BookSmartz

import BazelRepo.BookSmartz.Storage

namespace BookSmartz

open Library

structure ApplicationEvent where
  reader : ReaderId
  sequence : UInt64
  id : Uuid
  envelope : Json

/-- How a statement comes back: done, refused by the database, or never because its caller was cancelled. -/
inductive Reply where
  | done
  | failed
  | cancelled
  deriving DecidableEq

inductive CommitOutcome where
  | applied
  | rolledBack
  deriving DecidableEq

section Scopes

variable [UrlParser] [Calendar]

/-- A scope under the lock of its reader, with the rows and facts its transaction sees. -/
structure CommandTransaction where
  reader : ReaderId
  ranking : Ranking
  appended : Bool
  rankingDocuments : List CloudEventDocument
  applicationHistory : List ApplicationEvent
  applicationAppended : Bool
  failed : Bool
  rows : EventRows

def CommandTransaction.poison (scope : CommandTransaction) : CommandTransaction := { scope with failed := true }

abbrev Appended := CommandTransaction × Option (Except StoreError Unit)

def stageDocument (books : BookTable) (scope : CommandTransaction) (document : CloudEventDocument) (next : Ranking) :
    Reply → Appended
  | .cancelled => (scope.poison, none)
  | .failed => (scope.poison, some (.error .database))
  | .done =>
    match insertDocument books scope.rows document with
    | .error error => (scope.poison, some (.error error))
    | .ok rows =>
      ({ scope with
          ranking := next
          rankingDocuments := scope.rankingDocuments ++ [document]
          appended := true
          failed := false
          rows := rows }, some (.ok ()))

def CommandTransaction.appendRanking (books : BookTable) (scope : CommandTransaction)
    (document : CloudEventDocument) (expectedRevision : UInt64) (reply : Reply) : Appended :=
  if scope.failed ∨ scope.appended then (scope.poison, some (.error .invalidComposition))
  else if scope.ranking.projection.revision ≠ expectedRevision then
    (scope.poison, some (.error (.domain (.staleRevision expectedRevision scope.ranking.projection.revision))))
  else
    match Ranking.fromHistory scope.reader (scope.ranking.history ++ [document.event]) with
    | .error error => (scope.poison, some (.error (.domain (.invalidTransition error.reason))))
    | .ok next => stageDocument books scope document next reply

def nextApplicationSequence (history : List ApplicationEvent) : Option UInt64 :=
  match history.getLast? with
  | none => some 1
  | some previous => checkedSuccessor previous.sequence

def insertFact (history : List ApplicationEvent) (event : ApplicationEvent) :
    Except StoreError (List ApplicationEvent) :=
  if history.any fun stored => stored.sequence == event.sequence || stored.id == event.id then .error .database
  else .ok (history ++ [event])

def stageFact (scope : CommandTransaction) (event : ApplicationEvent) : Reply → Appended
  | .cancelled => (scope.poison, none)
  | .failed => (scope.poison, some (.error .database))
  | .done =>
    match insertFact scope.applicationHistory event with
    | .error error => (scope.poison, some (.error error))
    | .ok history =>
      ({ scope with applicationHistory := history, applicationAppended := true, failed := false }, some (.ok ()))

def CommandTransaction.appendApplication (scope : CommandTransaction) (event : ApplicationEvent) (reply : Reply) :
    Appended :=
  if scope.failed ∨ scope.applicationAppended then (scope.poison, some (.error .invalidComposition))
  else if event.reader ≠ scope.reader ∨ nextApplicationSequence scope.applicationHistory ≠ some event.sequence then
    (scope.poison, some (.error .invalidComposition))
  else stageFact scope event reply

structure Stream where
  rows : EventRows := ∅
  facts : List ApplicationEvent := []

def beginCommand (reader : ReaderId) (stream : Stream) : Except StoreError CommandTransaction := do
  let history ← replayRows reader stream.rows
  .ok
    { reader
      ranking := history.ranking
      appended := false
      rankingDocuments := history.documents
      applicationHistory := stream.facts
      applicationAppended := false
      failed := false
      rows := stream.rows }

/-- What a scope commits: nothing once any append failed. -/
def CommandTransaction.commit (scope : CommandTransaction) : Except StoreError Stream :=
  if scope.failed then .error .invalidComposition else .ok ⟨scope.rows, scope.applicationHistory⟩

/-- An open scope, whether one of its appends was refused or cancelled, and the revision its decision
expected. -/
structure Session where
  scope : CommandTransaction
  spoiled : Bool := false
  expected : Option UInt64 := none

structure Decision where
  reader : ReaderId
  expectedRevision : UInt64

/-- The store. The row lock of a reader admits one open scope at a time; beside the tables stands the
ranking each reader would have in memory. -/
structure World where
  books : BookTable := .empty
  streams : ReaderId → Stream := fun _ => {}
  sessions : ReaderId → Option Session := fun _ => none
  memory : ReaderId → Ranking := Ranking.new
  decisions : List Decision := []

inductive Action where
  | register (book : Book)
  | execute (reader : ReaderId) (context : CommandContext) (command : Command) (outcome : CommitOutcome)
  | begin (reader : ReaderId)
  | appendRanking (reader : ReaderId) (document : CloudEventDocument) (expectedRevision : UInt64) (reply : Reply)
  | appendApplication (reader : ReaderId) (event : ApplicationEvent) (reply : Reply)
  | commit (reader : ReaderId) (outcome : CommitOutcome)
  | drop (reader : ReaderId)

def registerRow (registry : BookRegistry) (row : BookId × String) : Except IdentityError BookRegistry := do
  let workId ← OpenLibraryWorkId.tryFrom row.2
  registry.register ⟨row.1, workId⟩

def fullRegistry (books : BookTable) : Except IdentityError BookRegistry :=
  books.rows.toList.foldlM registerRow {}

def remember (ranking : Ranking) (books : BookTable) (context : CommandContext) (command : Command) : Ranking :=
  match fullRegistry books with
  | .error _ => ranking
  | .ok registry =>
    match ranking.execute registry context command with
    | .ok (_, next) => next
    | .error _ => ranking

def World.decided (world : World) (reader : ReaderId) (context : CommandContext) (command : Command) : World :=
  { world with
    memory := Function.update world.memory reader (remember (world.memory reader) world.books context command)
    decisions := world.decisions ++ [⟨reader, context.expectedRevision⟩] }

def World.execute (world : World) (reader : ReaderId) (context : CommandContext) (command : Command) :
    CommitOutcome → World
  | .rolledBack => world
  | .applied =>
    match executeInTransaction world.books reader (world.streams reader).rows context command with
    | .error _ => world
    | .ok (_, _, rows) =>
      { world.decided reader context command with
        streams := Function.update world.streams reader { world.streams reader with rows := rows } }

def World.setSession (world : World) (reader : ReaderId) (session : Option Session) : World :=
  { world with sessions := Function.update world.sessions reader session }

def Session.after (session : Session) (appended : Appended) (expected : Option UInt64) : Session :=
  match appended.2 with
  | some (.ok ()) => ⟨appended.1, session.spoiled, expected⟩
  | _ => ⟨appended.1, true, session.expected⟩

def World.committed (world : World) (reader : ReaderId) (session : Session) : World :=
  match session.expected, session.scope.rankingDocuments.getLast? with
  | some expected, some document =>
    world.decided reader ⟨expected, document.event.metadata.id, document.event.metadata.time⟩
      document.event.command
  | _, _ => world

def World.commit (world : World) (reader : ReaderId) (session : Session) (outcome : CommitOutcome) : World :=
  let closed := world.setSession reader none
  match outcome, session.scope.commit with
  | .applied, .ok stream =>
    { closed.committed reader session with streams := Function.update closed.streams reader stream }
  | _, _ => closed

def World.step (world : World) : Action → World
  | .register book =>
    match world.books.register book with
    | .ok (books, _) => { world with books := books }
    | .error _ => world
  | .execute reader context command outcome =>
    -- The lock of the reader is taken while a scope is open.
    match world.sessions reader with
    | some _ => world
    | none => world.execute reader context command outcome
  | .begin reader =>
    match world.sessions reader with
    | some _ => world
    | none =>
      match beginCommand reader (world.streams reader) with
      | .ok scope => world.setSession reader (some { scope := scope })
      | .error _ => world
  | .appendRanking reader document expectedRevision reply =>
    match world.sessions reader with
    | some session =>
      world.setSession reader (some (session.after
        (session.scope.appendRanking world.books document expectedRevision reply) (some expectedRevision)))
    | none => world
  | .appendApplication reader event reply =>
    match world.sessions reader with
    | some session =>
      world.setSession reader (some (session.after (session.scope.appendApplication event reply) session.expected))
    | none => world
  | .commit reader outcome =>
    match world.sessions reader with
    | some session => world.commit reader session outcome
    | none => world
  | .drop reader => world.setSession reader none

def World.run (actions : List Action) : World := actions.foldl World.step {}

end Scopes

end BookSmartz

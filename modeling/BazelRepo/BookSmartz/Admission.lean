import BazelRepo.BookSmartz.Catalog

namespace BookSmartz.Catalog

open Library (Program Protocol)

/-- A request to some instance, and so also its transaction. -/
abbrev CallId := Nat

/-- A row of the admissions. No statement reads for which call it was written. -/
structure Admission where
  call : CallId
  reader : ReaderId
  admittedAt : Nat
  deriving DecidableEq

/-- What an open transaction wrote so far. -/
structure Writes where
  purged : List Admission := []
  inserted : List Admission := []
  nextSearchAt : Option Nat := none
  committing : Bool := false

/-- The shared database. The gate starts at minus infinity, and `history` only remembers what was committed. -/
structure Database where
  clock : Nat
  admissions : List Admission := []
  nextSearchAt : Option Nat := none
  lock : Option CallId := none
  transaction : CallId → Option Writes := fun _ => none
  history : List Admission := []

namespace Database

def put (db : Database) (call : CallId) (writes : Option Writes) : Database :=
  { db with transaction := Function.update db.transaction call writes }

/-- What a statement of the transaction sees: the commits so far, and its own writes. -/
def visible (db : Database) (writes : Writes) : List Admission :=
  (db.admissions ++ writes.inserted).filter (· ∉ writes.purged)

def release (db : Database) (call : CallId) : Database :=
  { db with lock := if db.lock = some call then none else db.lock }

def close (db : Database) (call : CallId) : Database := (db.release call).put call none

def durable (db : Database) (call : CallId) (writes : Writes) : Database :=
  { db.close call with
    admissions := db.visible writes
    nextSearchAt := writes.nextSearchAt.or db.nextSearchAt
    history := db.history ++ writes.inserted }

def run (db : Database) (call : CallId) (reading : Admission → Nat) (writes : Writes) :
    (statement : Statement) → Database × statement.Value
  | .begin => (db, ())
  | .tryLock =>
    if db.lock = none ∨ db.lock = some call then ({ db with lock := some call }, true) else (db, false)
  | .available => (db, (writes.nextSearchAt.or db.nextSearchAt).all (· ≤ db.clock))
  | .purge =>
    -- the clock is read again for every row
    let expired := (db.visible writes).filter fun row => row.admittedAt + minute ≤ reading row
    (db.put call (some { writes with purged := writes.purged ++ expired }), ())
  | .countOf reader => (db, ((db.visible writes).filter (·.reader = reader)).length)
  | .insert reader =>
    (db.put call (some { writes with inserted := writes.inserted ++ [⟨call, reader, db.clock⟩] }), ())
  | .advanceGate => (db.put call (some { writes with nextSearchAt := some (db.clock + second) }), ())
  | .commit => (db.durable call writes, ())

/-- Outside a transaction only `begin` is accepted, and inside one anything else. -/
def execute (db : Database) (call : CallId) (reading : Admission → Nat) (statement : Statement) :
    Option (Database × statement.Value) :=
  match statement, db.transaction call with
  | .begin, none => some (db.put call (some {}), ())
  | .begin, some _ | _, none => none
  | statement, some writes => some (db.run call reading writes statement)

end Database

/-- How a question can be answered. The answer to a statement can be lost after the statement was executed, and a
commit whose answer is lost can also be settled later. -/
inductive Runs (db : Database) (call : CallId) : (ask : Ask) → ask.Answer → Database → Prop where
  | executed {statement : Statement} {value : statement.Value} {after : Database} {reading : Admission → Nat}
    {finish : Nat} (timely : ∀ row, db.clock ≤ reading row ∧ reading row ≤ finish) (mono : after.clock ≤ finish)
    (ran : db.execute call reading statement = some (after, value)) :
    Runs db call (.sql statement) (.ok value) { after with clock := finish }
  | lost {statement : Statement} {value : statement.Value} {after : Database} {reading : Admission → Nat}
    {finish : Nat} (error : DatabaseError) (timely : ∀ row, db.clock ≤ reading row ∧ reading row ≤ finish) (mono : after.clock ≤ finish)
    (ran : db.execute call reading statement = some (after, value)) :
    Runs db call (.sql statement) (.error error) { after with clock := finish }
  | refused {statement : Statement} (error : DatabaseError) : Runs db call (.sql statement) (.error error) db
  | unsettled {writes : Writes} (error : DatabaseError) (opened : db.transaction call = some writes) :
    Runs db call (.sql .commit) (.error error) (db.put call (some { writes with committing := true }))
  | elsewhere {ask : Ask} (answer : ask.Answer) (other : ∀ statement, ask ≠ .sql statement) :
    Runs db call ask answer db

/-- What the database does by itself: its clock goes on, a dropped transaction or one whose connection is gone is
rolled back, and an unsettled commit is settled. -/
inductive Moves (db : Database) : Database → Prop where
  | tick {time : Nat} (mono : db.clock ≤ time) : Moves db { db with clock := time }
  | rollBack (call : CallId) : Moves db (db.close call)
  | settle {call : CallId} {writes : Writes} (opened : db.transaction call = some writes)
    (committing : writes.committing) : Moves db (db.durable call writes)

inductive Request where
  | search (reader : ReaderId) (query : String) (page : Nat)
  | lookup (reader : ReaderId) (key : OpenLibraryWorkId)

inductive Reply where
  | discovery (result : Except DiscoverError Discovery)
  | work (result : Except LookupFailure CatalogWork)

def Request.reader : Request → ReaderId
  | search reader _ _ | lookup reader _ => reader

def Request.serve [ProviderJson] : Request → Conversation Reply
  | search reader query page => do
    let result ← discover reader query page
    pure (.discovery result)
  | lookup reader key => do
    let result ← Catalog.lookup reader key
    pure (.work result)

inductive Phase where
  | entered
  | begun
  | locked
  | available
  | purged
  | counted
  | inserted
  | advanced
  | admitted
  | sent
  | closed
  | uncertain
  deriving DecidableEq

structure Progress where
  reader : ReaderId
  phase : Phase

def Statement.turn : Statement → Phase
  | begin => .entered
  | tryLock => .begun
  | available => .locked
  | purge => .available
  | countOf _ => .purged
  | insert _ => .counted
  | advanceGate => .inserted
  | commit => .advanced

def Statement.outcome : (statement : Statement) → statement.Value → Phase
  | begin, _ => .begun
  | tryLock, locked => if locked then .locked else .closed
  | available, isOpen => if isOpen then .available else .closed
  | purge, _ => .purged
  | countOf _, count => if count ≥ 10 then .closed else .counted
  | insert _, _ => .inserted
  | advanceGate, _ => .advanced
  | commit, _ => .admitted

def Statement.Concerns (reader : ReaderId) : Statement → Prop
  | countOf other | insert other => other = reader
  | _ => True

def admission : Protocol Ask Ask.Answer Progress where
  allowed progress
    | .sql statement => progress.phase = statement.turn ∧ statement.Concerns progress.reader
    | .send _ _ => progress.phase = .admitted
    | .cache _ | .now | .sign _ _ => True
  after progress
    | .sql statement, .ok value => { progress with phase := statement.outcome value }
    | .sql .commit, .error _ => { progress with phase := .uncertain }
    | .sql _, .error _ => { progress with phase := .closed }
    | .send _ _, _ => { progress with phase := .sent }
    | .cache _, _ | .now, _ | .sign _ _, _ => progress

end BookSmartz.Catalog

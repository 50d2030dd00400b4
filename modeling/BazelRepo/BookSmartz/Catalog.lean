import BazelRepo.BookSmartz.Event
import BazelRepo.Library.Sessions

namespace BookSmartz.Catalog

open Library (Program Stateful isWhiteSpace)

def second : Nat := 1000000

def minute : Nat := 60 * second

def day : Nat := 24 * 60 * minute

def isControl (c : Char) : Bool :=
  c.toNat < 0x20 || (0x7F ≤ c.toNat && c.toNat ≤ 0x9F)

def validText (value : String) (maximum : Nat) : Bool :=
  !(value.toList.all isWhiteSpace) && value.toList.length ≤ maximum && !(value.toList.any isControl)

structure CatalogWork where
  workId : String
  title : String
  authors : List String
  year : Option Int
  cover : Option Nat
  deriving DecidableEq

namespace CatalogWork

def valid (work : CatalogWork) : Bool :=
  work.workId.utf8ByteSize ≤ 64 && isWorkId work.workId && validText work.title 1024 && work.authors.length ≤ 20 &&
    work.authors.all (validText · 256) && work.year.all (fun year => -5000 ≤ year && year ≤ 10000) &&
    work.cover.all fun cover => 0 < cover && cover < 2 ^ 63

def source (work : CatalogWork) : String := s!"https://openlibrary.org/works/{work.workId}"

/-- The fields that the provider left out are taken from a valid work with the same id. -/
def merge (fresh : CatalogWork) (cached : Option CatalogWork) : CatalogWork :=
  match cached.filter fun cached => cached.valid && cached.workId == fresh.workId with
  | none => fresh
  | some cached =>
    { fresh with
      authors := if fresh.authors.isEmpty then cached.authors else fresh.authors
      cover := fresh.cover.or cached.cover
      year := fresh.year.or cached.year }

theorem merge_workId (fresh : CatalogWork) (cached : Option CatalogWork) : (fresh.merge cached).workId = fresh.workId := by
  unfold merge
  split <;> rfl

end CatalogWork

inductive LookupFailure where
  | admissionUnavailable
  | limited
  | unavailable
  | timeout
  | malformed
  | oversized
  | notFound
  | invalidWorkId
  deriving DecidableEq

inductive Failure where
  | limited
  | unavailable
  | timeout
  | malformed
  | oversized
  deriving DecidableEq

def Failure.toLookup : Failure → LookupFailure
  | limited => .limited
  | unavailable => .unavailable
  | timeout => .timeout
  | malformed => .malformed
  | oversized => .oversized

def Failure.message : Failure → String
  | limited => "Wait a moment, then search again."
  | unavailable | timeout | malformed | oversized => "Search is unavailable. Try again."

structure ProviderWork where
  key : String
  title : String
  authorName : List String
  firstPublishYear : Option Int
  coverI : Option Nat

/-- The fields of a decoded answer; a document that is no work is left undecoded. -/
structure ProviderPage where
  numFound : Option Nat
  numFoundCamelCase : Option Nat
  start : Nat
  docs : List (Option ProviderWork)

/-- The JSON decoder. -/
class ProviderJson where
  parse : List UInt8 → Option ProviderPage

inductive Transport where
  | timeout
  | other

def Transport.failure : Transport → Failure
  | timeout => .timeout
  | other => .unavailable

structure Response where
  status : Nat
  contentLength : Option Nat
  chunks : List (Except Transport (List UInt8))

structure SearchPage where
  works : List CatalogWork
  more : Bool
  noMatches : Bool

def stripPrefix (text start : String) : String :=
  if start.toList.isPrefixOf text.toList then String.ofList (text.toList.drop start.toList.length) else text

def ProviderWork.work (doc : ProviderWork) : CatalogWork where
  workId := stripPrefix doc.key "/works/"
  title := doc.title
  authors := doc.authorName
  year := doc.firstPublishYear
  cover := doc.coverI

def readBody : List UInt8 → List (Except Transport (List UInt8)) → Except Failure (List UInt8)
  | bytes, [] => .ok bytes
  | _, .error transport :: _ => .error transport.failure
  | bytes, .ok chunk :: rest =>
    if bytes.length + chunk.length > 1048576 then .error .oversized else readBody (bytes ++ chunk) rest

def collectWorks (works : List CatalogWork) : List (Option ProviderWork) → List CatalogWork
  | [] => works
  | none :: docs => collectWorks works docs
  | some doc :: docs =>
    if doc.work.valid && !(works.any (·.workId == doc.work.workId)) then collectWorks (works ++ [doc.work]) docs
    else collectWorks works docs

def ProviderPage.found (page : ProviderPage) : Except Failure Nat :=
  match page.numFound, page.numFoundCamelCase with
  | some count, none | none, some count => .ok count
  | some count, some other => if count = other then .ok count else .error .malformed
  | none, none => .error .malformed

def SearchPage.ofProvider (page : ProviderPage) : Except Failure SearchPage :=
  if page.docs.length > 20 then .error .malformed
  else do
    let numFound ← page.found
    .ok
      { works := collectWorks [] page.docs
        more := page.start + 20 < 2 ^ 64 && page.start + 20 < numFound
        noMatches := numFound == 0 }

def SearchPage.ofResponse [ProviderJson] (response : Response) : Except Failure SearchPage :=
  if response.status = 429 then .error .limited
  else if ¬ (200 ≤ response.status ∧ response.status < 300) then .error .unavailable
  else if response.contentLength.any (· > 1048576) then .error .oversized
  else do
    let bytes ← readBody [] response.chunks
    match ProviderJson.parse bytes with
    | none => .error .malformed
    | some page => SearchPage.ofProvider page

theorem collectWorks_valid {docs : List (Option ProviderWork)} :
    ∀ {works : List CatalogWork}, (∀ work ∈ works, work.valid) → ∀ work ∈ collectWorks works docs, work.valid := by
  induction docs with
  | nil => exact fun valid => valid
  | cons doc docs ih =>
    intro works valid
    cases doc with
    | none => exact ih valid
    | some doc =>
      unfold collectWorks
      by_cases accepted : (doc.work.valid && !(works.any (·.workId == doc.work.workId))) = true
      · rw [if_pos accepted]
        apply ih
        intro work member
        rcases List.mem_append.mp member with member | member
        · exact valid work member
        · rw [List.mem_singleton.mp member]
          exact (Bool.and_eq_true _ _ ▸ accepted).1
      · rw [if_neg accepted]
        exact ih valid

theorem SearchPage.ofResponse_valid [ProviderJson] {response : Response} {page : SearchPage}
    (read : SearchPage.ofResponse response = .ok page) : ∀ work ∈ page.works, work.valid := by
  unfold SearchPage.ofResponse at read
  split at read <;> try contradiction
  split at read <;> try contradiction
  split at read <;> try contradiction
  rcases Library.bind_eq_ok.mp read with ⟨bytes, _, read⟩
  split at read <;> try contradiction
  unfold SearchPage.ofProvider at read
  split at read <;> try contradiction
  rcases Library.bind_eq_ok.mp read with ⟨numFound, _, read⟩
  cases read
  apply collectWorks_valid
  intro work member
  cases member

structure DatabaseError where
  message : String

inductive Statement where
  | begin
  | tryLock
  | available
  | purge
  | countOf (reader : ReaderId)
  | insert (reader : ReaderId)
  | advanceGate
  | commit

abbrev Statement.Value : Statement → Type
  | tryLock | available => Bool
  | countOf _ => Nat
  | _ => Unit

structure CachedRow where
  metadata : CatalogWork
  source : String
  freshUntil : Nat

/-- A statement on the shared metadata; an interruption by a timeout shows as an error. -/
inductive CacheStatement where
  | begin
  | row (workId : String)
  | lock
  | touch (workId : String)
  | save (workId : String) (metadata : CatalogWork) (source : String) (fetchedAt freshUntil : Nat)
  | trim
  | commit

abbrev CacheStatement.Value : CacheStatement → Type
  | row _ => Option CachedRow
  | _ => Unit

inductive Ask where
  | sql (statement : Statement)
  | cache (statement : CacheStatement)
  | now
  | send (query : String) (page : Nat)
  | sign (reader : ReaderId) (work : CatalogWork)

structure SigningError where
  message : String

abbrev Ask.Answer : Ask → Type
  | sql statement => Except DatabaseError statement.Value
  | cache statement => Except DatabaseError statement.Value
  | now => Nat
  | send _ _ => Except Transport Response
  | sign _ _ => Except SigningError String

abbrev Conversation (α : Type) := Program Ask Ask.Answer α

def sql (statement : Statement) : ExceptT DatabaseError (Program Ask Ask.Answer) statement.Value :=
  ExceptT.mk (Program.perform (Ask.sql statement))

/-- Leaving early drops the transaction, which the server then rolls back. -/
def admitRequest (reader : ReaderId) : ExceptT DatabaseError (Program Ask Ask.Answer) Bool := do
  sql .begin
  let locked ← sql .tryLock
  if !locked then pure false
  else do
    let available ← sql .available
    if !available then pure false
    else do
      sql .purge
      let count ← sql (.countOf reader)
      if count ≥ 10 then pure false
      else do
        sql (.insert reader)
        sql .advanceGate
        sql .commit
        pure true

structure Entry where
  work : CatalogWork
  freshUntil : Nat

def isFresh (freshUntil now : Nat) : Bool := now < freshUntil

def freshUntil (fetchedAt : Nat) : Nat := fetchedAt + day

def cache {σ : Type} (statement : CacheStatement) : Stateful Ask Ask.Answer σ DatabaseError statement.Value :=
  ExceptT.mk fun state => do
    let answer : Except DatabaseError statement.Value ← Program.perform (Ask.cache statement)
    pure (answer, state)

def readRow (key : OpenLibraryWorkId) : Stateful Ask Ask.Answer (Option Entry) DatabaseError Unit := do
  cache .begin
  let row ← cache (.row key.val)
  match row with
  | none => cache .commit
  | some row =>
    if row.metadata.valid && row.metadata.workId == key.val && row.source == row.metadata.source then do
      set (some (⟨row.metadata, row.freshUntil⟩ : Entry))
      cache .lock
      cache (.touch key.val)
      cache .commit
    else cache .commit

def read (key : OpenLibraryWorkId) : Conversation (Option Entry) := do
  let ended ← readRow key none
  pure ended.2

/-- The id is bound as it stands: the works are valid, so it is the id of a work. -/
def persistWork (fallback : Option CatalogWork) (fetchedAt : Nat) (position : Nat) (fresh : CatalogWork) :
    Stateful Ask Ask.Answer (List CatalogWork) DatabaseError Unit := do
  let row ← cache (.row fresh.workId)
  let cached := (row.filter fun row => row.source == row.metadata.source).map (·.metadata)
  let usable := cached.filter fun cached => cached.valid && cached.workId == fresh.workId
  let work := fresh.merge (usable.or fallback)
  modify (·.set position work)
  cache (.save fresh.workId work work.source fetchedAt (freshUntil fetchedAt))

def persist (fallback : Option CatalogWork) (fetchedAt : Nat) (fresh : List CatalogWork) :
    Stateful Ask Ask.Answer (List CatalogWork) DatabaseError Unit := do
  cache .begin
  cache .lock
  fresh.zipIdx.forM fun (work, position) => persistWork fallback fetchedAt position work
  cache .trim
  cache .commit

def retainWithFallback (works : List CatalogWork) (fallback : Option CatalogWork) : Conversation (List CatalogWork) :=
  let fresh := works.filter (·.valid)
  let results := fresh.map (·.merge fallback)
  if results.isEmpty then pure results
  else do
    let fetchedAt : Nat ← Program.perform Ask.now
    let ended ← persist fallback fetchedAt fresh results
    pure ended.2

def retain (works : List CatalogWork) : Conversation (List CatalogWork) := retainWithFallback works none

def search [ProviderJson] (query : String) (page : Nat) : Conversation (Except Failure SearchPage) := do
  let answer : Except Transport Response ← Program.perform (Ask.send query page)
  match answer with
  | .error transport => pure (.error transport.failure)
  | .ok response => pure (SearchPage.ofResponse response)

def SearchPage.single (key : OpenLibraryWorkId) (page : SearchPage) : Except LookupFailure CatalogWork :=
  if page.noMatches && page.works.isEmpty then .error .notFound
  else if page.more then .error .malformed
  else match page.works with
    | [work] => if work.workId = key.val then .ok work else .error .malformed
    | _ => .error .malformed

def lookupProvider [ProviderJson] (key : OpenLibraryWorkId) : Conversation (Except LookupFailure CatalogWork) := do
  let found ← search s!"key:(/works/{key.val})" 1
  match found with
  | .error failure => pure (.error failure.toLookup)
  | .ok page => pure (page.single key)

def refresh [ProviderJson] (reader : ReaderId) (key : OpenLibraryWorkId) (cached : Option Entry) :
    Conversation (Except LookupFailure CatalogWork) := do
  let admitted ← (admitRequest reader).run
  match admitted with
  | .error _ => pure (.error .admissionUnavailable)
  | .ok false => pure (.error .limited)
  | .ok true => do
    let found ← lookupProvider key
    match found with
    | .error failure => pure (.error failure)
    | .ok work => do
      let works ← retainWithFallback [work] (cached.map (·.work))
      match works.head? with
      | none => pure (.error .malformed)
      | some work => pure (.ok work)

def freshEntry : Option Entry → Conversation (Option CatalogWork)
  | none => pure none
  | some entry => do
    let now : Nat ← Program.perform Ask.now
    pure (if isFresh entry.freshUntil now then some entry.work else none)

def lookup [ProviderJson] (reader : ReaderId) (key : OpenLibraryWorkId) :
    Conversation (Except LookupFailure CatalogWork) :=
  if key.val.utf8ByteSize > 64 then pure (.error .invalidWorkId)
  else do
    let cached ← read key
    let fresh ← freshEntry cached
    match fresh with
    | some work => pure (.ok work)
    | none => do
      let refreshed ← refresh reader key cached
      match refreshed with
      | .ok work => pure (.ok work)
      | .error failure => match cached with
        | some entry => pure (.ok entry.work)
        | none => pure (.error failure)

structure Discovery where
  results : List (CatalogWork × String)
  message : Option String
  more : Bool

inductive DiscoverError where
  | database (error : DatabaseError)
  | signing (error : SigningError)

def signAll (reader : ReaderId) : List CatalogWork → Conversation (Except DiscoverError (List (CatalogWork × String)))
  | [] => pure (.ok [])
  | work :: rest => do
    let token : Except SigningError String ← Program.perform (Ask.sign reader work)
    match token with
    | .error error => pure (.error (.signing error))
    | .ok token => do
      let others ← signAll reader rest
      pure (others.map ((work, token) :: ·))

def SearchPage.message (found : SearchPage) : Option String :=
  if found.works.isEmpty then
    some (if found.noMatches then "We found no matching books. Try another title or author."
      else "We found no books you can select on this page. Try another title or author.")
  else none

def present (reader : ReaderId) (page : Nat) : Except Failure SearchPage → Conversation (Except DiscoverError Discovery)
  | .error failure => pure (.ok ⟨[], some failure.message, false⟩)
  | .ok found => do
    let works ← retain found.works
    let signed ← signAll reader works
    pure (signed.map fun results => ⟨results, found.message, found.more && page < 1000000⟩)

def discover [ProviderJson] (reader : ReaderId) (query : String) (page : Nat) :
    Conversation (Except DiscoverError Discovery) := do
  let admitted ← (admitRequest reader).run
  match admitted with
  | .error error => pure (.error (.database error))
  | .ok true => do
    let found ← search query page
    present reader page found
  | .ok false => present reader page (.error .limited)

end BookSmartz.Catalog

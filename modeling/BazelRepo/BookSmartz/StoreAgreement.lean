import BazelRepo.BookSmartz.Composition
import BazelRepo.BookSmartz.RoundTrip

namespace BookSmartz

open Library

def BookTable.book (books : BookTable) (id : BookId) : Option Book :=
  match found : books.rows[id]? with
  | some workId => some ⟨id, workId, books.valid id workId found⟩
  | none => none

theorem BookTable.book_of_row {books : BookTable} {id : BookId} {workId : String}
    (found : books.rows[id]? = some workId) : books.book id = some ⟨id, workId, books.valid id workId found⟩ := by
  unfold book
  split
  · rename_i other same
    rw [found] at same
    cases same
    rfl
  · rename_i none
    rw [found] at none
    cases none

theorem BookTable.book_eq_none {books : BookTable} {id : BookId} (absent : books.rows[id]? = none) :
    books.book id = none := by
  unfold book
  split
  · rename_i same
    rw [absent] at same
    cases same
  · rfl

theorem tryFrom_eq_ok {workId : String} (valid : isWorkId workId) :
    OpenLibraryWorkId.tryFrom workId = .ok ⟨workId, valid⟩ := dif_pos valid

theorem register_new {registry : BookRegistry} {book : Book} (identity : registry.byId[book.id]? = none)
    (work : registry.byWorkId[book.workId.val]? = none) :
    registry.register book =
      .ok ⟨registry.byId.insert book.id book, registry.byWorkId.insert book.workId.val book.id⟩ := by
  unfold BookRegistry.register
  rw [identity]
  dsimp only
  rw [work]
  rfl

theorem foldlM_registerRow {rows : List (BookId × String)} :
    ∀ {registry : BookRegistry}, (∀ row ∈ rows, isWorkId row.2) → (rows.map Prod.fst).Nodup →
      (rows.map Prod.snd).Nodup → (∀ row ∈ rows, registry.byId[row.1]? = none) →
      (∀ row ∈ rows, registry.byWorkId[row.2]? = none) →
      ∃ full, rows.foldlM registerRow registry = .ok full ∧
        (∀ (id : BookId) (workId : String) (valid : isWorkId workId), (id, workId) ∈ rows →
          full.get id = some ⟨id, workId, valid⟩) ∧
        ∀ id, id ∉ rows.map Prod.fst → full.get id = registry.get id := by
  induction rows with
  | nil =>
    intro registry _ _ _ _ _
    exact ⟨registry, rfl, by simp, by simp⟩
  | cons row rest ih =>
    rcases row with ⟨id, workId⟩
    intro registry valid identities works freshIds freshWorks
    have legal := valid (id, workId) List.mem_cons_self
    rw [List.map_cons, List.nodup_cons] at identities works
    have registered : registry.register ⟨id, workId, legal⟩ =
        .ok ⟨registry.byId.insert id ⟨id, workId, legal⟩, registry.byWorkId.insert workId id⟩ :=
      register_new (freshIds _ List.mem_cons_self) (freshWorks _ List.mem_cons_self)
    have otherIds : ∀ row ∈ rest, (registry.byId.insert id (⟨id, workId, legal⟩ : Book))[row.1]? = none := by
      intro row member
      rw [BTreeMap.getElem?_insert_eq, if_neg]
      · exact freshIds row (List.mem_cons_of_mem _ member)
      · intro same
        have listed : row.1 ∈ rest.map Prod.fst := List.mem_map_of_mem member
        rw [same] at listed
        exact identities.1 listed
    have otherWorks : ∀ row ∈ rest, (registry.byWorkId.insert workId id)[row.2]? = none := by
      intro row member
      rw [BTreeMap.getElem?_insert_eq, if_neg]
      · exact freshWorks row (List.mem_cons_of_mem _ member)
      · intro same
        have listed : row.2 ∈ rest.map Prod.snd := List.mem_map_of_mem member
        rw [same] at listed
        exact works.1 listed
    rcases @ih ⟨_, _⟩ (fun row member => valid row (List.mem_cons_of_mem _ member)) identities.2 works.2 otherIds otherWorks with
      ⟨full, folded, listed, others⟩
    refine ⟨full, ?_, ?_, ?_⟩
    · rw [List.foldlM_cons, registerRow, tryFrom_eq_ok legal, ok_bind, registered, ok_bind]
      exact folded
    · intro other otherWork otherValid member
      rcases List.mem_cons.mp member with same | later
      · cases same
        rw [others id identities.1]
        exact (BTreeMap.getElem?_insert_eq _ _ _ _).trans (if_pos rfl)
      · exact listed other otherWork otherValid later
    · intro other absent
      rw [List.map_cons, List.mem_cons, not_or] at absent
      rw [others other absent.2]
      exact (BTreeMap.getElem?_insert_eq _ _ _ _).trans (if_neg absent.1)

theorem nodup_works (books : BookTable) : (books.rows.toList.map Prod.snd).Nodup := by
  apply List.Nodup.map_on
  · rintro ⟨a, workId⟩ first ⟨b, other⟩ second same
    cases same
    rw [books.unique a b workId (BTreeMap.mem_toList.mp first) (BTreeMap.mem_toList.mp second)]
  · exact BTreeMap.nodup_toList books.rows

theorem fullRegistry_get (books : BookTable) :
    ∃ registry, fullRegistry books = .ok registry ∧ ∀ id, registry.get id = books.book id := by
  have valid : ∀ row ∈ books.rows.toList, isWorkId row.2 := by
    intro row member
    exact books.valid row.1 row.2 (BTreeMap.mem_toList.mp member)
  have empty : ∀ row ∈ books.rows.toList, ({} : BookRegistry).byId[row.1]? = none := fun _ _ => by simp
  have unused : ∀ row ∈ books.rows.toList, ({} : BookRegistry).byWorkId[row.2]? = none := fun _ _ => by simp
  rcases foldlM_registerRow valid (BTreeMap.nodup_keys books.rows) (nodup_works books) empty unused with
    ⟨full, folded, listed, others⟩
  refine ⟨full, folded, ?_⟩
  intro id
  cases found : books.rows[id]? with
  | some workId =>
    rw [BookTable.book_of_row found]
    exact listed id workId _ (BTreeMap.mem_toList.mpr found)
  | none =>
    rw [BookTable.book_eq_none found, others id]
    · simp [BookRegistry.get]
    · intro member
      rcases BTreeMap.mem_keys.mp member with ⟨workId, present⟩
      rw [found] at present
      cases present

theorem referencedBooks_get (books : BookTable) (command : Command) :
    ∃ registry, referencedBooks books command = .ok registry ∧
      ∀ id, command.referenced = some id → registry.get id = books.book id := by
  unfold referencedBooks
  cases referenced : command.referenced with
  | none =>
    refine ⟨{}, rfl, ?_⟩
    intro id impossible
    cases impossible
  | some id =>
    dsimp only
    cases found : books.rows[id]? with
    | none =>
      refine ⟨{}, rfl, ?_⟩
      rintro _ ⟨⟩
      rw [BookTable.book_eq_none found]
      simp [BookRegistry.get]
    | some workId =>
      have legal := books.valid id workId found
      have unknown : ({} : BookRegistry).byId[id]? = none := by simp
      have unused : ({} : BookRegistry).byWorkId[workId]? = none := by simp
      have registered : ({} : BookRegistry).register ⟨id, workId, legal⟩ =
          .ok ⟨({} : BookRegistry).byId.insert id ⟨id, workId, legal⟩,
            ({} : BookRegistry).byWorkId.insert workId id⟩ := register_new unknown unused
      refine ⟨⟨({} : BookRegistry).byId.insert id ⟨id, workId, legal⟩,
        ({} : BookRegistry).byWorkId.insert workId id⟩, ?_, ?_⟩
      · dsimp only
        rw [tryFrom_eq_ok legal, Except.mapError, ok_bind, registered]
        rfl
      · rintro _ ⟨⟩
        rw [BookTable.book_of_row found]
        exact (BTreeMap.getElem?_insert_eq _ _ _ _).trans (if_pos rfl)

theorem decide_referencedBooks (books : BookTable) (command : Command) :
    ∃ one all, referencedBooks books command = .ok one ∧ fullRegistry books = .ok all ∧
      ∀ projection context,
        decide projection one context command = decide projection all context command := by
  rcases referencedBooks_get books command with ⟨one, referenced, single⟩
  rcases fullRegistry_get books with ⟨all, listed, every⟩
  refine ⟨one, all, referenced, listed, ?_⟩
  intro projection context
  apply decide_congr
  intro id refers
  rw [single id refers, every id]

theorem insertRow_eq_ok {books : BookTable} {rows result : EventRows} {sequence : String} {row : EventRow}
    (inserted : insertRow books rows sequence row = .ok result) :
    books.rows[row.candidate]? ≠ none ∧ (∀ id, row.opponent = some id → books.rows[id]? ≠ none) ∧
      result = rows.insert sequence row := by
  unfold insertRow at inserted
  rw [reject_eq_ok, reject_eq_ok, reject_eq_ok] at inserted
  rcases inserted with ⟨_, _, known, same⟩
  cases same
  rw [not_or] at known
  refine ⟨?_, ?_, rfl⟩
  · simpa using known.1
  · intro id opponent
    have present := known.2
    rw [opponent] at present
    simpa using present

theorem parseSequenceKey_ok {text : String} {value : UInt64} (length : text.toList.length = 20)
    (digits : text.toList.all isAsciiDigit = true) (parsed : parseU64 text = some value) (positive : value ≠ 0) :
    parseSequenceKey text = .ok value := by
  unfold parseSequenceKey
  rw [if_neg (by simp only [length, digits]; simp), parsed, okOr, ok_bind, if_neg positive]

theorem parseSequenceKey_padded {value : UInt64} (positive : value ≠ 0) :
    parseSequenceKey (padded value) = .ok value := by
  apply parseSequenceKey_ok _ _ (parseU64_padded value) positive
  · rw [toList_padded, length_fixedDigits]
  · rw [toList_padded, List.all_eq_true]
    exact fun c member => isAsciiDigit_fixedDigits member

theorem memberOf_encodeDocument [UrlParser] [Calendar] (document : CloudEventDocument) :
    (encodeDocument document).member "sequence" = some (.string (padded document.event.metadata.sequence.value)) := by
  have extension : "sequence" ∉ reserved := by decide
  rw [encodeDocument, Json.member, Json.asObject, Option.bind_some, lookup_encodeWire _ extension, stampSequence,
    lookup_setExtension]
  rfl

theorem decodeDocument_of_decodeEvent [UrlParser] [Calendar] {value : Json} {event : RankingEvent}
    {envelope : Envelope} (decoded : decodeEvent value = .ok (event, envelope)) :
    decodeDocument value = .ok ⟨event, envelope, value, decoded⟩ := by
  unfold decodeDocument
  split
  · rename_i same
    rw [decoded] at same
    cases same
    rfl
  · rename_i failed
    rw [decoded] at failed
    cases failed

theorem decodeDocument_eq_ok [UrlParser] [Calendar] {value : Json} {document : CloudEventDocument}
    (decoded : decodeDocument value = .ok document) :
    decodeEvent value = .ok (document.event, document.envelope) := by
  unfold decodeDocument at decoded
  split at decoded
  · rename_i event envelope same
    cases decoded
    exact same
  · cases decoded

theorem encodeEvent_rereadable [UrlParser] [Calendar] {event : RankingEvent} {encoded : Json}
    {document : CloudEventDocument} (written : encodeEvent event = .ok encoded)
    (decoded : decodeDocument encoded = .ok document) : Rereadable document.envelope := by
  unfold encodeEvent toCloudEvent at written
  simp only [bind_eq_ok, reject_eq_ok, Except.ok.injEq] at written
  rcases written with ⟨_, ⟨_, rfl⟩, rfl⟩
  have absent : document.envelope.dataschema = none := by
    apply decodeEvent_schema (decodeDocument_eq_ok decoded)
    simp [encodeWire, stampSequence, builtEnvelope, Envelope.setExtension, optionalField, List.lookup_cons]
  intro uri found
  rw [absent] at found
  cases found

section Agreement

variable [UrlParser] [Calendar]

/-- The rows of a reader that decode, in sequence, to the history of a ranking. -/
structure Stored (reader : ReaderId) (rows : EventRows) (ranking : Ranking) : Prop where
  documents : ∃ documents, rows.toList.mapM (decodeRow reader) = .ok documents ∧
    documents.map CloudEventDocument.event = ranking.history
  replayed : replay reader ranking.history = .ok ranking.projection
  keys : rows.toList.map Prod.fst = ranking.history.map fun event => padded event.metadata.sequence.value

theorem Stored.replayRows {reader : ReaderId} {rows : EventRows} {ranking : Ranking}
    (stored : Stored reader rows ranking) :
    ∃ documents, replayRows reader rows = .ok ⟨ranking, documents⟩ := by
  rcases stored.documents with ⟨documents, decoded, events⟩
  refine ⟨documents, ?_⟩
  have rebuilt : Ranking.fromHistory reader ranking.history = .ok ranking :=
    fromHistory_eq_ok.mpr ⟨rfl, stored.replayed⟩
  unfold BookSmartz.replayRows
  rw [decoded, ok_bind, events, rebuilt]
  rfl

theorem stored_empty (reader : ReaderId) : Stored reader ∅ (.new reader) := by
  have none : (∅ : EventRows).toList = [] := by simp
  refine ⟨⟨[], ?_, rfl⟩, rfl, ?_⟩
  · rw [none]
    rfl
  · rw [none]
    rfl

theorem decodeRow_documentRow {reader : ReaderId} {document : CloudEventDocument}
    (rereadable : Rereadable document.envelope) (owner : document.event.metadata.readerId = reader) :
    ∃ again, decodeRow reader (padded document.event.metadata.sequence.value, documentRow document) = .ok again ∧
      again.event = document.event := by
  have decoded := decodeEvent_encodeDocument document rereadable
  refine ⟨⟨document.event, document.readBack, _, decoded⟩, ?_, rfl⟩
  have agrees : ¬ (document.event.metadata.readerId ≠ reader ∨ document.event.metadata.readerId ≠ reader ∨
      document.event.metadata.sequence.value ≠ document.event.metadata.sequence.value ∨
      document.event.metadata.id ≠ document.event.metadata.id ∨
      document.event.candidate ≠ document.event.candidate ∨
      document.event.kind.opponent ≠ document.event.kind.opponent) := by
    simp [owner]
  unfold decodeRow documentRow
  dsimp only
  rw [memberOf_encodeDocument, Option.bind_some, Json.asStr, if_neg (not_not.mpr rfl),
    parseSequenceKey_padded document.event.metadata.sequence.positive, ok_bind,
    decodeDocument_of_decodeEvent decoded, Except.mapError, ok_bind]
  exact if_neg agrees

theorem insertDocument_eq_ok {books : BookTable} {rows result : EventRows} {document : CloudEventDocument}
    (inserted : insertDocument books rows document = .ok result) :
    result = rows.insert (padded document.event.metadata.sequence.value) (documentRow document) ∧
      ∀ id, document.event.command.referenced = some id → books.rows[id]? ≠ none := by
  unfold insertDocument sequenceKey at inserted
  rw [if_neg document.event.metadata.sequence.positive, ok_bind] at inserted
  rcases insertRow_eq_ok inserted with ⟨candidate, opponent, same⟩
  refine ⟨same, ?_⟩
  intro id refers
  unfold RankingEvent.command at refers
  cases kind : document.event.kind with
  | placementStarted =>
    rw [kind] at refers
    cases refers
    exact candidate
  | comparisonAnswered other choice =>
    rw [kind] at refers
    cases refers
    apply opponent
    rw [documentRow, kind]
    rfl
  | placementPaused =>
    rw [kind] at refers
    cases refers
  | placementResumed =>
    rw [kind] at refers
    cases refers

theorem Stored.append {reader : ReaderId} {rows result : EventRows} {ranking : Ranking} {books : BookTable}
    {document : CloudEventDocument} {next : RankingProjection} (stored : Stored reader rows ranking)
    (applied : apply ranking.projection document.event = .ok next) (rereadable : Rereadable document.envelope)
    (inserted : insertDocument books rows document = .ok result) :
    Stored reader result ⟨ranking.history ++ [document.event], next⟩ := by
  rcases insertDocument_eq_ok inserted with ⟨rfl, _⟩
  rcases apply_eq_ok applied with ⟨_, _, owner, following, _⟩
  rcases replay_sequences stored.replayed with ⟨readers, revision, sequences⟩
  have above : ∀ (key : String) (row : EventRow), rows[key]? = some row →
      compare key (padded document.event.metadata.sequence.value) = .lt := by
    intro key row found
    have listed : key ∈ rows.toList.map Prod.fst := BTreeMap.mem_keys.mpr ⟨row, found⟩
    rw [stored.keys] at listed
    rcases List.mem_map.mp listed with ⟨event, member, rfl⟩
    apply padded_lt
    have numbered : event.metadata.sequence.value.toNat ∈ List.range' 1 ranking.history.length := by
      rw [← sequences]
      exact List.mem_map_of_mem member
    rw [List.mem_range'_1] at numbered
    omega
  have last := BTreeMap.toList_insert_last (documentRow document) above
  rcases stored.documents with ⟨documents, decoded, events⟩
  rcases decodeRow_documentRow rereadable (owner.trans readers) with ⟨again, reread, same⟩
  refine ⟨⟨documents ++ [again], ?_, ?_⟩, ?_, ?_⟩
  · rw [last, List.mapM_append, decoded, List.mapM_cons, reread]
    rfl
  · rw [List.map_append, events, List.map_singleton, same]
  · exact replay_append.mpr ⟨ranking.projection, stored.replayed, applied⟩
  · rw [last, List.map_append, stored.keys, List.map_append]
    rfl

theorem executeInTransaction_eq_ok {books : BookTable} {reader : ReaderId} {rows result : EventRows}
    {ranking next : Ranking} {context : CommandContext} {command : Command} {event : RankingEvent}
    (stored : Stored reader rows ranking)
    (executed : executeInTransaction books reader rows context command = .ok (event, next, result)) :
    Stored reader result next ∧ ∃ registry, fullRegistry books = .ok registry ∧
      ranking.execute registry context command = .ok (event, next) := by
  rcases stored.replayRows with ⟨documents, replayed⟩
  rcases decide_referencedBooks books command with ⟨one, all, referenced, full, same⟩
  unfold executeInTransaction at executed
  rw [replayed, ok_bind, referenced, ok_bind] at executed
  simp only [bind_eq_ok, mapError_eq_ok, reject_eq_ok, not_not, Except.ok.injEq, Prod.mk.injEq] at executed
  rcases executed with ⟨⟨_, _⟩, accepted, encoded, written, document, decoded, roundtrip, _, inserted, rfl, rfl, rfl⟩
  dsimp only at accepted written roundtrip
  rcases execute_eq_ok.mp accepted with ⟨decided, extended, applied⟩
  have rereadable := encodeEvent_rereadable written decoded
  rw [← roundtrip] at applied extended
  have grown := stored.append applied rereadable inserted
  rw [← extended] at grown
  rw [same] at decided
  rw [roundtrip] at applied extended
  exact ⟨grown, all, full, execute_eq_ok.mpr ⟨decided, extended, applied⟩⟩

end Agreement

end BookSmartz

import BazelRepo.BookSmartz.StoreRuns

namespace BookSmartz

open Library

theorem stampSequence_again (event : RankingEvent) (schema : Option String) :
    stampSequence ((stampSequence (builtEnvelope event) event.metadata.sequence).withSchema schema)
      event.metadata.sequence = (stampSequence (builtEnvelope event) event.metadata.sequence).withSchema schema := by
  rfl

section Contract

variable [UrlParser] [Calendar]

structure World.Agrees (world : World) : Prop where
  /-- The rows of a reader are accepted and rebuild the ranking in memory. -/
  rebuilt : ∀ reader, ∃ documents,
    replayRows reader (world.streams reader).rows = .ok ⟨world.memory reader, documents⟩
  /-- One book is enough to decide. -/
  registries : ∀ projection context command, ∃ one all,
    referencedBooks world.books command = .ok one ∧ fullRegistry world.books = .ok all ∧
      decide projection one context command = decide projection all context command
  /-- The rows of a reader are numbered from one without a gap. -/
  sequences : ∀ reader,
    (world.streams reader).rows.toList.map Prod.fst =
      (List.range' 1 (world.streams reader).rows.toList.length).map fun n => padded (UInt64.ofNat n)
  /-- One decision for each expected revision. -/
  revisions : ∀ reader,
    ((world.decisions.filter fun decision => decision.reader = reader).map Decision.expectedRevision).Nodup
  /-- A scope with a failed append commits nothing. -/
  poisoned : ∀ reader session outcome, world.sessions reader = some session → session.spoiled = true →
    world.commit reader session outcome = world.setSession reader none

theorem Stored.sequences {reader : ReaderId} {rows : EventRows} {ranking : Ranking}
    (stored : Stored reader rows ranking) :
    rows.toList.map Prod.fst = (List.range' 1 rows.toList.length).map fun n => padded (UInt64.ofNat n) := by
  have counted : rows.toList.length = ranking.history.length := by
    rw [← List.length_map Prod.fst, stored.keys, List.length_map]
  have numbered := (replay_sequences stored.replayed).2.2
  rw [stored.keys, counted, ← numbered, List.map_map]
  apply List.map_congr_left
  intro event _
  rw [Function.comp_apply, UInt64.ofNat_toNat]

theorem World.commit_poisoned {world : World} {session : Session} (failed : session.scope.failed = true)
    (reader : ReaderId) (outcome : CommitOutcome) :
    world.commit reader session outcome = world.setSession reader none := by
  unfold World.commit CommandTransaction.commit
  rw [if_pos failed]
  cases outcome <;> rfl

theorem World.Inv.agrees {world : World} (inv : world.Inv) : world.Agrees where
  rebuilt := fun reader => (inv.stored reader).replayRows
  registries := by
    intro projection context command
    rcases decide_referencedBooks world.books command with ⟨one, all, referenced, listed, same⟩
    exact ⟨one, all, referenced, listed, same projection context⟩
  sequences := fun reader => (inv.stored reader).sequences
  revisions := by
    intro reader
    apply List.Nodup.of_map UInt64.toNat
    rw [List.map_map]
    have revisions := inv.decisions reader
    unfold Function.comp
    rw [revisions]
    exact List.nodup_range
  poisoned := by
    intro reader session outcome opened spoiled
    exact World.commit_poisoned ((inv.sessions reader session opened).poisoned spoiled) reader outcome

/-- Store and domain agree after every run whose staged documents can be read again. -/
theorem store_and_domain_agree {actions : List Action} (rereadable : ∀ action ∈ actions, action.Rereadable) :
    (World.run actions).Agrees :=
  (World.run_inv rereadable).agrees

omit [UrlParser] in
theorem lookup_schema {envelope : Envelope} {uri : String} (present : envelope.dataschema = some uri) :
    ((encodeWire envelope).filter fun entry => !entry.2.isNull).lookup "dataschema" = some (.string uri) := by
  rw [encodeWire, present]
  cases envelope.datacontenttype <;> rfl

theorem rereadable_of_decoded {document : CloudEventDocument} {event : RankingEvent} {envelope : Envelope}
    (decoded : decodeEvent (encodeDocument document) = .ok (event, envelope)) : Rereadable document.envelope := by
  unfold decodeEvent encodeDocument parseEnvelope at decoded
  simp only [Json.asObject, okOr, ok_bind, bind_eq_ok, reject_eq_ok, Except.ok.injEq, Prod.mk.injEq] at decoded
  rcases decoded with ⟨_, ⟨_, _, _, _, _, _, checked, _⟩, _⟩
  intro uri present
  have stamped : (stampSequence document.envelope document.event.metadata.sequence).dataschema = some uri := present
  unfold checkSchema at checked
  rw [lookup_schema stamped] at checked
  by_contra refused
  simp [Json.asStr, refused] at checked

theorem documentRow_accepted {document : CloudEventDocument} {text : String} {schema : Option String}
    (readable : Calendar.parse text = some document.event.metadata.time)
    (years : document.event.metadata.time.inRfc3339Years = true)
    (built : document.envelope =
      (stampSequence (builtEnvelope document.event) document.event.metadata.sequence).withSchema schema) :
    validEnvelope (padded document.event.metadata.sequence.value) (documentRow document) = true := by
  have rendered : (Calendar.render document.event.metadata.time).isEmpty = false := by
    have readBack := Calendar.parse_render text _ readable years
    by_contra empty
    rw [Bool.not_eq_false, String.isEmpty_iff] at empty
    rw [empty, Calendar.parse_empty] at readBack
    cases readBack
  rcases document with ⟨event, envelope, validated⟩
  dsimp only at *
  subst built
  have members : encodeDocument ⟨event, _, validated⟩ =
      .object (encodeWire ((stampSequence (builtEnvelope event) event.metadata.sequence).withSchema schema)) := by
    rw [encodeDocument, stampSequence_again]
  have numeric : numericText (padded event.metadata.sequence.value) = toString event.metadata.sequence.value := by
    rw [numericText, parseU64_padded]
    rfl
  have data : (encodeDocument ⟨event, _, validated⟩).member "data" =
      some (.object (commonData event.metadata event.candidate ++ answerData event.kind)) := by
    rw [members]
    cases schema <;> rfl
  have texts : validCommon (padded event.metadata.sequence.value) (documentRow ⟨event, _, validated⟩)
      (.object (commonData event.metadata event.candidate ++ answerData event.kind)) = true := by
    unfold validCommon documentRow
    dsimp only
    rw [members, numeric]
    cases schema <;>
      simp [memberText, Json.member, Json.asObject, encodeWire, Envelope.withSchema, stampSequence,
        Envelope.setExtension, builtEnvelope, optionalField, extensionJson, commonData, List.lookup_cons, rendered]
  have variant : validVariant (documentRow ⟨event, _, validated⟩)
      (.object (commonData event.metadata event.candidate ++ answerData event.kind)) = true := by
    have typed : memberText (encodeDocument ⟨event, _, validated⟩) "type" = some (eventType event.kind) := by
      rw [members]
      rfl
    unfold validVariant documentRow
    dsimp only
    rw [typed]
    cases event.kind with
    | placementStarted => rfl
    | placementPaused => rfl
    | placementResumed => rfl
    | comparisonAnswered opponent choice =>
      cases choice <;>
        simp [EventKind.opponent, eventType, memberText, Json.member, Json.asObject, commonData, answerData,
          choiceText, List.lookup_cons]
  unfold validEnvelope
  rw [documentRow, data]
  dsimp only
  rw [Bool.and_eq_true]
  exact ⟨texts, variant⟩

theorem World.Agrees.rereadable {world : World} (agrees : world.Agrees) {reader : ReaderId} {key : String}
    {document : CloudEventDocument}
    (stored : (world.streams reader).rows[key]? = some (documentRow document)) : Rereadable document.envelope := by
  rcases agrees.rebuilt reader with ⟨documents, replayed⟩
  unfold replayRows at replayed
  simp only [bind_eq_ok] at replayed
  rcases replayed with ⟨_, rows, _⟩
  rcases exists_ok_of_mapM rows (key, documentRow document) (BTreeMap.mem_toList.mpr stored) with ⟨_, row⟩
  unfold decodeRow at row
  simp only [reject_eq_ok, bind_eq_ok, mapError_eq_ok] at row
  rcases row with ⟨_, _, _, _, again, _⟩
  exact rereadable_of_decoded (decodeDocument_eq_ok again)

end Contract

section Steps

variable [UrlParser] [Calendar]

theorem World.sessions_setSession (world : World) (reader : ReaderId) (session : Option Session) :
    (world.setSession reader session).sessions reader = session := by
  show Function.update world.sessions reader session reader = session
  rw [Function.update_self]

theorem World.step_appendRanking {world : World} {reader : ReaderId} {session : Session}
    (opened : world.sessions reader = some session) (document : CloudEventDocument) (expectedRevision : UInt64)
    (reply : Reply) :
    world.step (.appendRanking reader document expectedRevision reply) =
      world.setSession reader (some (session.after
        (session.scope.appendRanking world.books document expectedRevision reply) (some expectedRevision))) := by
  unfold World.step
  dsimp only
  rw [opened]

theorem World.step_commit {world : World} {reader : ReaderId} {session : Session}
    (opened : world.sessions reader = some session) (outcome : CommitOutcome) :
    world.step (.commit reader outcome) = world.commit reader session outcome := by
  unfold World.step
  dsimp only
  rw [opened]

end Steps

section Placement

def noon : Timestamp := ⟨1790510400, 0⟩

local instance noonCalendar : Calendar where
  render _ := "2026-09-27T12:00:00Z"
  parse text := if text = "2026-09-27T12:00:00Z" then some noon else none
  parse_empty := by decide
  parse_render := by
    intro text time parsed _
    rw [if_pos rfl]
    split at parsed
    · exact parsed
    · cases parsed

/-- The parser decodes percent signs in a host. -/
local instance hostParser : UrlParser where
  parse text := if text = "http://a%60b/" then some "http://a`b/" else some text

def firstPlacement : RankingEvent := ⟨⟨⟨⟨3⟩⟩, ⟨⟨9⟩⟩, ⟨1, one_ne_zero_u64⟩, noon⟩, ⟨⟨1⟩⟩, .placementStarted⟩

theorem noon_readable : Calendar.parse "2026-09-27T12:00:00Z" = some firstPlacement.metadata.time := rfl

def placementDocument (schema : String) (valid : validAbsoluteUri schema = true) : CloudEventDocument where
  event := firstPlacement
  envelope := (stampSequence (builtEnvelope firstPlacement) firstPlacement.metadata.sequence).withSchema
    ((some schema).bind UrlParser.parse)
  validated := by
    refine ⟨_, decodeEvent_built rfl noon_readable ?_⟩
    rintro _ ⟨⟩
    exact valid

def oneBook : Book := ⟨⟨⟨1⟩⟩, ⟨"OL1W", by decide⟩⟩

def placementRun (schema : String) (valid : validAbsoluteUri schema = true) : List Action :=
  [.register oneBook, .begin ⟨⟨9⟩⟩, .appendRanking ⟨⟨9⟩⟩ (placementDocument schema valid) 0 .done,
    .commit ⟨⟨9⟩⟩ .applied]

def emptyScope (reader : ReaderId) : CommandTransaction where
  reader := reader
  ranking := .new reader
  appended := false
  rankingDocuments := []
  applicationHistory := []
  applicationAppended := false
  failed := false
  rows := ∅

theorem placementRun_row (schema : String) (valid : validAbsoluteUri schema = true) :
    ((World.run (placementRun schema valid)).streams ⟨⟨9⟩⟩).rows[padded 1]? =
      some (documentRow (placementDocument schema valid)) := by
  have absent : BookTable.empty.rows[oneBook.id]? = none := by simp [BookTable.empty]
  have fresh : BookTable.empty.hasWork oneBook.workId.val = false := by simp [BookTable.hasWork, BookTable.empty]
  have registered : BookTable.empty.register oneBook = .ok (BookTable.empty.insert oneBook fresh, .created) := by
    unfold BookTable.register
    rw [absent]
    exact dif_pos fresh
  rcases exists_eq_ok (x := Ranking.fromHistory ⟨⟨9⟩⟩ [firstPlacement]) (by decide +kernel) with ⟨next, replayed⟩
  have known : (BookTable.empty.insert oneBook fresh).rows[firstPlacement.candidate]? = some "OL1W" :=
    (BTreeMap.getElem?_insert_eq _ _ _ _).trans (if_pos rfl)
  have built : (placementDocument schema valid).envelope =
      (stampSequence (builtEnvelope (placementDocument schema valid).event)
        (placementDocument schema valid).event.metadata.sequence).withSchema ((some schema).bind UrlParser.parse) := rfl
  have accepted := documentRow_accepted noon_readable rfl built
  have inserted : insertDocument (BookTable.empty.insert oneBook fresh) ∅ (placementDocument schema valid) =
      .ok ((∅ : EventRows).insert (padded 1) (documentRow (placementDocument schema valid))) := by
    have first : validSequence (padded 1) = true := by decide +kernel
    unfold insertDocument sequenceKey
    rw [if_neg (placementDocument schema valid).event.metadata.sequence.positive, ok_bind]
    unfold insertRow
    rw [if_neg, if_neg, if_neg]
    · rfl
    · rw [not_or]
      refine ⟨?_, ?_⟩
      · have candidate : (documentRow (placementDocument schema valid)).candidate = firstPlacement.candidate := rfl
        rw [candidate, known]
        decide
      · have none : (documentRow (placementDocument schema valid)).opponent = none := rfl
        rw [none]
        exact Bool.false_ne_true
    · simp
    · rw [not_or, not_not, not_not]
      exact ⟨first, accepted⟩
  have opened : beginCommand ⟨⟨9⟩⟩ {} = .ok (emptyScope ⟨⟨9⟩⟩) := by
    have none : (∅ : EventRows).toList = [] := by simp
    unfold beginCommand replayRows
    rw [none]
    rfl
  have staged : ∃ scope, (emptyScope ⟨⟨9⟩⟩).appendRanking (BookTable.empty.insert oneBook fresh)
      (placementDocument schema valid) 0 .done = (scope, some (.ok ())) ∧ scope.failed = false ∧
        scope.rows = (∅ : EventRows).insert (padded 1) (documentRow (placementDocument schema valid)) := by
    have history : (emptyScope ⟨⟨9⟩⟩).ranking.history ++ [(placementDocument schema valid).event] = [firstPlacement] :=
      rfl
    have rows : (emptyScope ⟨⟨9⟩⟩).rows = ∅ := rfl
    have reader : (emptyScope ⟨⟨9⟩⟩).reader = ⟨⟨9⟩⟩ := rfl
    unfold CommandTransaction.appendRanking
    rw [if_neg (by decide), if_neg (by decide), history, reader, replayed]
    dsimp only [stageDocument]
    rw [rows, inserted]
    exact ⟨_, rfl, rfl, rfl⟩
  rcases staged with ⟨scope, staged, sound, rows⟩
  have begun : World.step { books := BookTable.empty.insert oneBook fresh } (.begin ⟨⟨9⟩⟩) =
      World.setSession { books := BookTable.empty.insert oneBook fresh } ⟨⟨9⟩⟩
        (some { scope := emptyScope ⟨⟨9⟩⟩ }) := by
    unfold World.step
    dsimp only
    rw [opened]
  have started : World.step {} (.register oneBook) = { books := BookTable.empty.insert oneBook fresh } := by
    unfold World.step
    dsimp only
    rw [registered]
  have appended : World.step (World.setSession { books := BookTable.empty.insert oneBook fresh } ⟨⟨9⟩⟩
      (some { scope := emptyScope ⟨⟨9⟩⟩ })) (.appendRanking ⟨⟨9⟩⟩ (placementDocument schema valid) 0 .done) =
        World.setSession (World.setSession { books := BookTable.empty.insert oneBook fresh } ⟨⟨9⟩⟩
          (some { scope := emptyScope ⟨⟨9⟩⟩ })) ⟨⟨9⟩⟩ (some ⟨scope, false, some 0⟩) := by
    rw [World.step_appendRanking (World.sessions_setSession _ _ _)]
    show World.setSession _ _ (some (Session.after _ ((emptyScope ⟨⟨9⟩⟩).appendRanking
      (BookTable.empty.insert oneBook fresh) (placementDocument schema valid) 0 .done) _)) = _
    rw [staged]
    rfl
  have committed : scope.commit = .ok ⟨scope.rows, scope.applicationHistory⟩ := by
    unfold CommandTransaction.commit
    rw [sound]
    rfl
  unfold World.run placementRun
  rw [List.foldl_cons, started, List.foldl_cons, begun, List.foldl_cons, appended, List.foldl_cons,
    World.step_commit (World.sessions_setSession _ _ _), List.foldl_nil]
  unfold World.commit
  dsimp only
  rw [committed]
  dsimp only
  rw [Function.update_self, rows]
  exact (BTreeMap.getElem?_insert_eq _ _ _ _).trans (if_pos rfl)

theorem escapedSchema_valid : validAbsoluteUri "http://a%60b/" = true := by
  simp [validAbsoluteUri, validUriCharacters, isAsciiHexdigit, isAsciiDigit, isUriCharacter, afterAuthority,
    UrlParser.parse]

theorem plainSchema_valid : validAbsoluteUri "http://a.b/" = true := by
  simp [validAbsoluteUri, validUriCharacters, isAsciiDigit, isUriCharacter, afterAuthority, UrlParser.parse]

theorem decodedSchema_invalid : validAbsoluteUri "http://a`b/" = false := by
  decide

theorem store_and_domain_agree_plainSchema :
    (World.run (placementRun "http://a.b/" plainSchema_valid)).Agrees := by
  apply store_and_domain_agree
  intro action member
  simp only [placementRun, List.mem_cons, List.not_mem_nil, or_false] at member
  rcases member with rfl | rfl | rfl | rfl
  · trivial
  · trivial
  · rintro _ ⟨⟩
    exact plainSchema_valid
  · trivial

theorem escapedSchema_disagrees : ¬ (World.run (placementRun "http://a%60b/" escapedSchema_valid)).Agrees := by
  intro agrees
  have rereadable := agrees.rereadable (placementRun_row _ _)
  have valid := rereadable "http://a`b/" rfl
  rw [decodedSchema_invalid] at valid
  cases valid

end Placement

end BookSmartz

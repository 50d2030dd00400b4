import BazelRepo.BookSmartz.CloudEvents

namespace BookSmartz

open Library

def extensionFields (extensions : List (String × ExtensionValue)) : List (String × Json) :=
  extensions.map fun entry => (entry.1, extensionJson entry.2)

/-- What decoding has checked of an envelope, and what lets its encoding be decoded again. -/
structure WellFormed [Calendar] (envelope : Envelope) : Prop where
  id : envelope.id.isEmpty = false
  source : envelope.source.isEmpty = false
  ty : envelope.ty.isEmpty = false
  subject : ∃ subject, envelope.subject = some subject ∧ subject.isEmpty = false
  time : ∃ text time, envelope.time = some time ∧ Calendar.parse text = some time
  datacontenttype : envelope.datacontenttype = some "application/json"
  names : ∀ entry ∈ envelope.extensions, entry.1 ∉ reserved
  extensions : ∀ entry ∈ extensionFields envelope.extensions, validateExtension entry = .ok ()
  trace : validateTraceContext (extensionFields envelope.extensions) = .ok ()

theorem forM_eq_ok {ε α : Type} {f : α → Except ε PUnit} :
    ∀ {inputs : List α}, inputs.forM f = .ok () ↔ ∀ a ∈ inputs, f a = .ok () := by
  intro inputs
  induction inputs with
  | nil => simp [pure, Except.pure]
  | cons a rest ih =>
    rw [List.forM, bind_eq_ok]
    constructor
    · rintro ⟨_, first, others⟩ b member
      rcases List.mem_cons.mp member with rfl | later
      · exact first
      · exact ih.mp others b later
    · intro all
      exact ⟨(), all a List.mem_cons_self, ih.mpr fun b member => all b (List.mem_cons_of_mem _ member)⟩

theorem checkRequired_eq_ok {fields : List (String × Json)} {name : String} :
    checkRequired fields name = .ok () ↔
      ∃ text, fields.lookup name = some (.string text) ∧ text.isEmpty = false := by
  unfold checkRequired
  cases found : fields.lookup name with
  | none => simp
  | some value => cases value <;> simp [Json.asStr]

theorem extensionValue_json {value : Json} {extension : ExtensionValue}
    (converted : extensionValue value = some extension) : extensionJson extension = value := by
  unfold extensionValue at converted
  split at converted
  · cases converted
    rfl
  · cases converted
    rfl
  · rename_i number
    rw [Option.map_eq_some_iff] at converted
    rcases converted with ⟨word, fits, rfl⟩
    rw [extensionJson, tryFrom_eq_some.mp fits]
  · cases converted

theorem json_extensionValue (extension : ExtensionValue) :
    extensionValue (extensionJson extension) = some extension := by
  cases extension with
  | boolean value => rfl
  | string value => rfl
  | integer value =>
    have same : tryFrom value.toInt = some value := tryFrom_eq_some.mpr rfl
    rw [extensionJson, extensionValue, same]
    rfl

theorem mapM_extensions {fields : List (String × Json)} {extensions : List (String × ExtensionValue)}
    (converted : fields.mapM (fun entry => (extensionValue entry.2).map fun value => (entry.1, value)) =
      some extensions) : extensionFields extensions = fields := by
  induction fields generalizing extensions with
  | nil =>
    cases converted
    rfl
  | cons entry rest ih =>
    rw [List.mapM_cons] at converted
    simp only [Option.bind_eq_bind, Option.bind_eq_some_iff, Option.map_eq_some_iff] at converted
    rcases converted with ⟨first, ⟨value, found, rfl⟩, others, later, same⟩
    cases same
    rw [extensionFields, List.map_cons, extensionValue_json found]
    exact congrArg _ (ih later)

theorem extensions_mapM (extensions : List (String × ExtensionValue)) :
    (extensionFields extensions).mapM (fun entry => (extensionValue entry.2).map fun value => (entry.1, value)) =
      some extensions := by
  induction extensions with
  | nil => rfl
  | cons entry rest ih =>
    unfold extensionFields at ih
    rw [extensionFields, List.map_cons, List.mapM_cons, json_extensionValue, ih]
    rfl

theorem mapM_some_eq_some {α β : Type} {f : α → Option β} {a : α} {result : Option β} :
    (some a).mapM f = some result ↔ ∃ b, f a = some b ∧ result = some b := by
  have unfolded : (some a).mapM f = (f a).map some := rfl
  rw [unfolded, Option.map_eq_some_iff]
  simp only [eq_comm (a := result)]

theorem parseEnvelope_wellFormed [UrlParser] [Calendar] {members : List (String × Json)} {envelope : Envelope}
    (parsed : parseEnvelope members = .ok envelope) : WellFormed envelope := by
  unfold parseEnvelope at parsed
  simp only [reject_eq_ok, bind_eq_ok, okOr_eq_ok] at parsed
  rcases parsed with ⟨_, ⟨⟩, required, _, json, ⟨⟩, _, ⟨⟩, extensions, ⟨⟩, trace, read⟩
  generalize members.filter (fun entry => !entry.2.isNull) = fields at required json extensions trace read
  rw [forM_eq_ok] at required extensions
  rcases checkRequired_eq_ok.mp (required "id" (by simp)) with ⟨id, idFound, idFilled⟩
  rcases checkRequired_eq_ok.mp (required "source" (by simp)) with ⟨source, sourceFound, sourceFilled⟩
  rcases checkRequired_eq_ok.mp (required "type" (by simp)) with ⟨ty, tyFound, tyFilled⟩
  rcases checkRequired_eq_ok.mp (required "subject" (by simp)) with ⟨subject, subjectFound, subjectFilled⟩
  rcases checkRequired_eq_ok.mp (required "time" (by simp)) with ⟨text, timeFound, _⟩
  rcases checkRequired_eq_ok.mp (required "datacontenttype" (by simp)) with ⟨content, contentFound, _⟩
  unfold deserialize at read
  rw [idFound, sourceFound, tyFound, subjectFound, timeFound, contentFound] at read
  rw [contentFound] at json
  simp only [Option.bind_eq_bind, Option.bind_some, Json.asStr, Option.bind_eq_some_iff, mapM_some_eq_some,
    Option.some.injEq, exists_eq_left', exists_eq_left] at read
  rcases read with ⟨_, ⟨instant, stamped, rfl⟩, schema, _, converted, listed, rfl⟩
  have same := mapM_extensions listed
  refine ⟨idFilled, sourceFilled, tyFilled, ⟨subject, rfl, subjectFilled⟩, ⟨text, instant, rfl, stamped⟩, ?_, ?_, ?_, ?_⟩
  · simpa [Json.asStr] using json
  · intro entry member
    have encoded : (entry.1, extensionJson entry.2) ∈ extensionFields converted := List.mem_map_of_mem member
    rw [same, List.mem_filter] at encoded
    simpa using encoded.2
  · rw [same]
    exact extensions
  · rw [same]
    exact trace

theorem lookup_extensionFields {extensions : List (String × ExtensionValue)} {name : String}
    (names : ∀ entry ∈ extensions, entry.1 ≠ name) : (extensionFields extensions).lookup name = none := by
  rw [List.lookup_eq_none_iff]
  intro entry member
  rcases List.mem_map.mp member with ⟨extension, listed, rfl⟩
  simpa using (names extension listed).symm

theorem extensionFields_notNull (extensions : List (String × ExtensionValue)) :
    (extensionFields extensions).filter (fun entry => !entry.2.isNull) = extensionFields extensions := by
  rw [List.filter_eq_self]
  intro entry member
  rcases List.mem_map.mp member with ⟨⟨name, value⟩, _, rfl⟩
  cases value <;> rfl

theorem extensionFields_unreserved {extensions : List (String × ExtensionValue)}
    (names : ∀ entry ∈ extensions, entry.1 ∉ reserved) :
    (extensionFields extensions).filter (fun entry => entry.1 ∉ reserved) = extensionFields extensions := by
  rw [List.filter_eq_self]
  intro entry member
  rcases List.mem_map.mp member with ⟨extension, listed, rfl⟩
  simpa using names extension listed

theorem encodeWire_eq [Calendar] {envelope : Envelope} {subject content : String} {time : Timestamp} {data : Json}
    (subjected : envelope.subject = some subject) (timed : envelope.time = some time)
    (typed : envelope.datacontenttype = some content) (filled : envelope.data = some data) :
    encodeWire envelope =
      [("specversion", .string "1.0"), ("id", .string envelope.id), ("type", .string envelope.ty),
          ("source", .string envelope.source), ("datacontenttype", .string content)] ++
        optionalField "dataschema" .string envelope.dataschema ++
        [("subject", .string subject), ("time", .string (Calendar.render time)), ("data", data)] ++
        extensionFields envelope.extensions := by
  simp [encodeWire, optionalField, extensionFields, subjected, timed, typed, filled]

theorem lookup_map_extensions (extensions : List (String × ExtensionValue)) (name : String) :
    (extensionFields extensions).lookup name = (extensions.lookup name).map extensionJson := by
  induction extensions with
  | nil => rfl
  | cons entry rest ih =>
    rw [extensionFields, List.map_cons, List.lookup_cons, List.lookup_cons]
    cases name == entry.1 with
    | true => rfl
    | false => exact ih

theorem lookup_optionalField {α : Type} {name other : String} (apart : other ≠ name) (render : α → Json)
    (value : Option α) : (optionalField name render value).lookup other = none := by
  have differs : (other == name) = false := by simpa using apart
  cases value with
  | none => rfl
  | some value => rw [optionalField, List.lookup_cons, differs, List.lookup_nil]

theorem lookup_encodeWire [Calendar] (envelope : Envelope) {name : String} (extension : name ∉ reserved) :
    (encodeWire envelope).lookup name = (envelope.extensions.lookup name).map extensionJson := by
  have apart : ∀ other ∈ reserved, name ≠ other := by
    intro other member same
    rw [same] at extension
    exact extension member
  have fixed : List.lookup name [("specversion", Json.string "1.0"), ("id", .string envelope.id),
      ("type", .string envelope.ty), ("source", .string envelope.source)] = none := by
    rw [List.lookup_eq_none_iff]
    intro entry member
    have known : entry.1 ∈ reserved := by
      simp only [List.mem_cons, List.not_mem_nil, or_false] at member
      rcases member with rfl | rfl | rfl | rfl <;> simp [reserved]
    simpa using apart entry.1 known
  have encoded := lookup_map_extensions envelope.extensions name
  unfold extensionFields at encoded
  simp only [encodeWire, List.lookup_append]
  rw [fixed, lookup_optionalField (apart "datacontenttype" (by simp [reserved])),
    lookup_optionalField (apart "dataschema" (by simp [reserved])),
    lookup_optionalField (apart "subject" (by simp [reserved])),
    lookup_optionalField (apart "time" (by simp [reserved])),
    lookup_optionalField (apart "data" (by simp [reserved])), encoded]
  rfl

theorem parse_of_validAbsoluteUri [UrlParser] {uri : String} (valid : validAbsoluteUri uri = true) :
    ∃ normalized, UrlParser.parse uri = some normalized := by
  unfold validAbsoluteUri at valid
  rw [← Option.isSome_iff_exists]
  repeat' split at valid
  all_goals first | exact valid | cases valid

theorem parseEnvelope_encodeWire [UrlParser] [Calendar] {envelope : Envelope} (wellFormed : WellFormed envelope)
    (years : ∀ time, envelope.time = some time → time.inRfc3339Years) {data : List (String × Json)}
    (object : envelope.data = some (.object data))
    (schema : ∀ uri, envelope.dataschema = some uri → validAbsoluteUri uri) :
    parseEnvelope (encodeWire envelope) =
      .ok { envelope with dataschema := envelope.dataschema.bind UrlParser.parse } := by
  rcases wellFormed.subject with ⟨subject, subjected, subjectFilled⟩
  rcases wellFormed.time with ⟨text, time, timed, read⟩
  have readBack : Calendar.parse (Calendar.render time) = some time :=
    Calendar.parse_render text time read (years time timed)
  have rendered : (Calendar.render time).isEmpty = false := by
    by_contra empty
    rw [Bool.not_eq_false, String.isEmpty_iff] at empty
    rw [empty, Calendar.parse_empty] at readBack
    cases readBack
  have members := encodeWire_eq subjected timed wellFormed.datacontenttype object
  have notNull : (encodeWire envelope).filter (fun entry => !entry.2.isNull) = encodeWire envelope := by
    rw [members, List.filter_append, extensionFields_notNull]
    cases envelope.dataschema <;> rfl
  have unreserved : (encodeWire envelope).filter (fun entry => entry.1 ∉ reserved) =
      extensionFields envelope.extensions := by
    rw [members, List.filter_append, extensionFields_unreserved wellFormed.names]
    cases envelope.dataschema <;> rfl
  have absent : (extensionFields envelope.extensions).lookup "dataschema" = none := by
    apply lookup_extensionFields
    intro entry member same
    exact wellFormed.names entry member (by rw [same]; decide)
  have unencoded : (encodeWire envelope).lookup "data_base64" = none := by
    have others : (extensionFields envelope.extensions).lookup "data_base64" = none := by
      apply lookup_extensionFields
      intro entry member same
      have valid := wellFormed.extensions _ (List.mem_map_of_mem member)
      rw [validateExtension, reject_eq_ok] at valid
      exact valid.1 (.inl same)
    rw [members, List.lookup_append, others]
    cases envelope.dataschema <;> rfl
  have version : (encodeWire envelope).lookup "specversion" = some (.string "1.0") := by
    rw [members]
    rfl
  have id : (encodeWire envelope).lookup "id" = some (.string envelope.id) := by
    rw [members]
    rfl
  have ty : (encodeWire envelope).lookup "type" = some (.string envelope.ty) := by
    rw [members]
    rfl
  have source : (encodeWire envelope).lookup "source" = some (.string envelope.source) := by
    rw [members]
    rfl
  have content : (encodeWire envelope).lookup "datacontenttype" = some (.string "application/json") := by
    rw [members]
    rfl
  have subjectFound : (encodeWire envelope).lookup "subject" = some (.string subject) := by
    rw [members]
    cases envelope.dataschema <;> rfl
  have timeFound : (encodeWire envelope).lookup "time" = some (.string (Calendar.render time)) := by
    rw [members]
    cases envelope.dataschema <;> rfl
  have dataFound : (encodeWire envelope).lookup "data" = some (.object data) := by
    rw [members]
    cases envelope.dataschema <;> rfl
  have schemaFound : (encodeWire envelope).lookup "dataschema" = envelope.dataschema.map .string := by
    rw [members, List.lookup_append, absent]
    cases envelope.dataschema <;> rfl
  have required : ["specversion", "id", "source", "type", "subject", "time", "datacontenttype"].forM
      (checkRequired (encodeWire envelope)) = .ok () := by
    rw [forM_eq_ok]
    intro name member
    rw [checkRequired_eq_ok]
    simp only [List.mem_cons, List.not_mem_nil, or_false] at member
    rcases member with rfl | rfl | rfl | rfl | rfl | rfl | rfl
    · exact ⟨_, version, rfl⟩
    · exact ⟨_, id, wellFormed.id⟩
    · exact ⟨_, source, wellFormed.source⟩
    · exact ⟨_, ty, wellFormed.ty⟩
    · exact ⟨_, subjectFound, subjectFilled⟩
    · exact ⟨_, timeFound, rendered⟩
    · exact ⟨_, content, rfl⟩
  have checked : checkSchema (encodeWire envelope) = .ok () := by
    rw [checkSchema, schemaFound]
    cases present : envelope.dataschema with
    | none => rfl
    | some uri => simp [Json.asStr, schema uri present]
  have parsedSchema : (envelope.dataschema.map Json.string).mapM (fun value => value.asStr.bind UrlParser.parse) =
      some (envelope.dataschema.bind UrlParser.parse) := by
    cases present : envelope.dataschema with
    | none => rfl
    | some uri =>
      rcases parse_of_validAbsoluteUri (schema uri present) with ⟨normalized, parsed⟩
      exact mapM_some_eq_some.mpr ⟨normalized, parsed, parsed⟩
  have read : deserialize (encodeWire envelope) =
      some { envelope with dataschema := envelope.dataschema.bind UrlParser.parse } := by
    unfold deserialize
    rw [id, source, ty, subjectFound, timeFound, content, schemaFound, dataFound, unreserved, parsedSchema,
      extensions_mapM]
    have instant : (some (Json.string (Calendar.render time))).mapM (fun value => value.asStr.bind Calendar.parse) =
        some (some time) := mapM_some_eq_some.mpr ⟨time, readBack, rfl⟩
    rw [instant, subjected, timed, object, wellFormed.datacontenttype]
    rfl
  have extensions : (extensionFields envelope.extensions).forM validateExtension = .ok () :=
    forM_eq_ok.mpr wellFormed.extensions
  unfold parseEnvelope
  rw [unencoded, notNull]
  dsimp only
  rw [required, version, content, checked, unreserved, extensions, wellFormed.trace, read]
  rfl

theorem eventData_eq_ok {envelope : Envelope} {data : List (String × Json)} :
    eventData envelope = .ok data ↔ envelope.data = some (.object data) := by
  unfold eventData
  split
  · rename_i found
    simp [found]
  · rename_i found
    simp [found]
  · rename_i others _
    constructor
    · intro impossible
      cases impossible
    · intro found
      exact (others data found).elim

theorem eventOfEnvelope_inv {envelope : Envelope} {event : RankingEvent}
    (decoded : eventOfEnvelope envelope = .ok event) :
    envelope.id = toString event.metadata.id.val ∧ envelope.time = some event.metadata.time ∧
      event.metadata.time.inRfc3339Years ∧ (∃ data, envelope.data = some (.object data)) ∧
      envelope.source = sourceOf event.metadata.readerId ∧ envelope.subject = some (subjectOf event.candidate) := by
  unfold eventOfEnvelope at decoded
  simp only [bind_eq_ok, okOr_eq_ok, reject_eq_ok, Except.ok.injEq, not_not] at decoded
  rcases decoded with ⟨id, identified, time, timed, years, data, object, payload, _, _, _, reader, _, _, _, candidate, _,
    _, _, sequence, _, source, subject, _, kind, _, rfl⟩
  refine ⟨?_, timed, years, ⟨data, eventData_eq_ok.mp object⟩, source, subject⟩
  unfold parseUuid at identified
  simp only [bind_eq_ok, okOr_eq_ok, reject_eq_ok, Except.ok.injEq, not_not] at identified
  rcases identified with ⟨_, _, same, rfl⟩
  exact same.symm

theorem lookup_setExtension (envelope : Envelope) (name : String) (value : ExtensionValue) :
    (envelope.setExtension name value).extensions.lookup name = some value := by
  simp [Envelope.setExtension]

/-- The sequence extension says nothing new, so stamping it changes no event; neither does a schema. -/
theorem eventOfEnvelope_stamp {envelope : Envelope} {event : RankingEvent}
    (decoded : eventOfEnvelope envelope = .ok event) (schema : Option String) :
    eventOfEnvelope { stampSequence envelope event.metadata.sequence with dataschema := schema } = .ok event := by
  unfold eventOfEnvelope at decoded
  simp only [bind_eq_ok, okOr_eq_ok, reject_eq_ok, Except.ok.injEq, not_not] at decoded
  rcases decoded with ⟨id, identified, time, timed, years, data, object, payload, wired, readerText, readerFilled, reader,
    readerParsed, candidateText, candidateFilled, candidate, candidateParsed, sequenceText, sequenceFilled, sequence,
    sequenceParsed, source, subject, _, kind, typed, rfl⟩
  have stamped : ((stampSequence envelope sequence).extensions.lookup "sequence").any
      (fun extension => extension ≠ .string (padded sequence.value)) = false := by
    rw [stampSequence, lookup_setExtension]
    simp
  have objectStamped : eventData { stampSequence envelope sequence with dataschema := schema } = .ok data := object
  unfold eventOfEnvelope
  rw [objectStamped]
  simp only [stampSequence, Envelope.setExtension] at stamped ⊢
  simp [identified, timed, years, okOr, wired, readerFilled, readerParsed, candidateFilled, candidateParsed,
    sequenceFilled, sequenceParsed, source, subject, typed]

theorem lookup_setExtension_other (envelope : Envelope) {name other : String} (apart : other ≠ name)
    (value : ExtensionValue) :
    (envelope.setExtension name value).extensions.lookup other = envelope.extensions.lookup other := by
  have differs : (other == name) = false := by simpa using apart
  simp only [Envelope.setExtension, List.lookup_cons, differs]
  induction envelope.extensions with
  | nil => rfl
  | cons entry rest ih =>
    by_cases same : entry.1 = name
    · have skipped : (other == entry.1) = false := by
        rw [same]
        exact differs
      rw [List.filter_cons_of_neg (by simpa using same), List.lookup_cons, skipped]
      exact ih
    · rw [List.filter_cons_of_pos (by simpa using same), List.lookup_cons, List.lookup_cons, ih]

theorem validateTraceContext_congr {left right : List (String × Json)}
    (parent : left.lookup "traceparent" = right.lookup "traceparent")
    (state : left.lookup "tracestate" = right.lookup "tracestate") :
    validateTraceContext left = validateTraceContext right := by
  unfold validateTraceContext validateTrace
  rw [parent, state]

theorem plain_padded (n : UInt64) : invalidContextString (padded n) = false := by
  rw [invalidContextString, toList_padded, List.any_eq_false]
  intro c member
  have digit := isAsciiDigit_fixedDigits member
  simp only [isAsciiDigit, Bool.and_eq_true, decide_eq_true_eq] at digit
  simp only [Bool.or_eq_true, Bool.and_eq_true, decide_eq_true_eq]
  omega

theorem stampSequence_wellFormed [Calendar] {envelope : Envelope} (wellFormed : WellFormed envelope)
    (sequence : Sequence) : WellFormed (stampSequence envelope sequence) := by
  have padding : validateExtension ("sequence", .string (padded sequence.value)) = .ok () := by
    have plain : validExtensionValue (.string (padded sequence.value)) = true := by
      rw [validExtensionValue, plain_padded]
      rfl
    have named : validExtensionName "sequence" = true := by decide
    rw [validateExtension, if_neg]
    simp [named, plain]
  have unseen : ∀ name, name ≠ "sequence" →
      (extensionFields (stampSequence envelope sequence).extensions).lookup name =
        (extensionFields envelope.extensions).lookup name := by
    intro name apart
    rw [lookup_map_extensions, lookup_map_extensions, stampSequence, lookup_setExtension_other envelope apart]
  refine ⟨wellFormed.id, wellFormed.source, wellFormed.ty, wellFormed.subject, wellFormed.time,
    wellFormed.datacontenttype, ?_, ?_, ?_⟩
  · intro entry member
    rcases List.mem_cons.mp member with rfl | kept
    · show "sequence" ∉ reserved
      decide
    · exact wellFormed.names entry (List.mem_of_mem_filter kept)
  · intro entry member
    rcases List.mem_map.mp member with ⟨extension, listed, rfl⟩
    rcases List.mem_cons.mp listed with rfl | kept
    · exact padding
    · exact wellFormed.extensions _ (List.mem_map_of_mem (List.mem_of_mem_filter kept))
  · rw [validateTraceContext_congr (unseen "traceparent" (by decide)) (unseen "tracestate" (by decide))]
    exact wellFormed.trace

/-- The condition on which a stored document can be read again: its schema URI, as the URL parser
spelled it, is still one the codec accepts. -/
def Rereadable [UrlParser] (envelope : Envelope) : Prop :=
  ∀ uri, envelope.dataschema = some uri → validAbsoluteUri uri

theorem decodeEvent_inv [UrlParser] [Calendar] {value : Json} {event : RankingEvent} {envelope : Envelope}
    (decoded : decodeEvent value = .ok (event, envelope)) :
    WellFormed envelope ∧ eventOfEnvelope envelope = .ok event := by
  unfold decodeEvent at decoded
  simp only [bind_eq_ok, Except.ok.injEq, Prod.mk.injEq] at decoded
  rcases decoded with ⟨fields, _, parsed, read, found, kind, rfl, rfl⟩
  exact ⟨parseEnvelope_wellFormed read, kind⟩

def CloudEventDocument.readBack [UrlParser] [Calendar] (document : CloudEventDocument) : Envelope :=
  { stampSequence document.envelope document.event.metadata.sequence with
    dataschema := document.envelope.dataschema.bind UrlParser.parse }

theorem decodeEvent_encodeDocument [UrlParser] [Calendar] (document : CloudEventDocument)
    (rereadable : Rereadable document.envelope) :
    decodeEvent (encodeDocument document) = .ok (document.event, document.readBack) := by
  rcases document.validated with ⟨value, decoded⟩
  rcases decodeEvent_inv decoded with ⟨wellFormed, kind⟩
  rcases eventOfEnvelope_inv kind with ⟨_, timed, years, ⟨data, object⟩, _⟩
  have dated : ∀ time, (stampSequence document.envelope document.event.metadata.sequence).time = some time →
      time.inRfc3339Years := by
    intro time found
    have same : document.envelope.time = some time := found
    rw [timed] at same
    cases same
    exact years
  have parsed : parseEnvelope (encodeWire (stampSequence document.envelope document.event.metadata.sequence)) =
      .ok document.readBack :=
    parseEnvelope_encodeWire (stampSequence_wellFormed wellFormed document.event.metadata.sequence) dated object
      rereadable
  have event : eventOfEnvelope document.readBack = .ok document.event := eventOfEnvelope_stamp kind _
  rw [decodeEvent, encodeDocument, Json.asObject, okOr, ok_bind, parsed, ok_bind, event, ok_bind]

theorem deserialize_schema [UrlParser] [Calendar] {fields : List (String × Json)} {envelope : Envelope}
    (read : deserialize fields = some envelope) (absent : fields.lookup "dataschema" = none) :
    envelope.dataschema = none := by
  unfold deserialize at read
  rw [absent] at read
  simp only [Option.mapM_none, Option.pure_def, Option.bind_eq_bind, Option.bind_eq_some_iff, Option.some.injEq,
    exists_eq_left'] at read
  rcases read with ⟨_, _, _, _, _, _, _, _, _, _, _, _, _, _, rfl⟩
  rfl

theorem decodeEvent_schema [UrlParser] [Calendar] {members : List (String × Json)} {event : RankingEvent}
    {envelope : Envelope} (decoded : decodeEvent (.object members) = .ok (event, envelope))
    (absent : members.lookup "dataschema" = none) : envelope.dataschema = none := by
  unfold decodeEvent parseEnvelope at decoded
  simp only [Json.asObject, okOr, ok_bind, bind_eq_ok, reject_eq_ok, Except.ok.injEq, Prod.mk.injEq] at decoded
  rcases decoded with ⟨read, ⟨_, _, _, _, _, _, _, _, _, _, _, found⟩, _, _, _, rfl⟩
  have missing : (members.filter fun entry => !entry.2.isNull).lookup "dataschema" = none := by
    rw [List.lookup_eq_none_iff] at absent ⊢
    intro entry member
    exact absent entry (List.mem_of_mem_filter member)
  have same := okOr_eq_ok.mp found
  exact deserialize_schema same missing

theorem uuid_filled (id : Uuid) : (toString id).isEmpty = false := by
  by_contra empty
  rw [Bool.not_eq_false, String.isEmpty_iff] at empty
  have read := Uuid.parse_toString id
  rw [empty] at read
  cases read

theorem sequence_filled (n : UInt64) : (toString n).isEmpty = false := by
  by_contra empty
  rw [Bool.not_eq_false, String.isEmpty_iff] at empty
  have read := parseU64_toString n
  rw [empty] at read
  cases read

theorem head_toDigits {n : Nat} (positive : 0 < n) : (Nat.toDigits 10 n).head? ≠ some '0' := by
  induction n using Nat.strongRecOn with
  | ind n ih =>
    by_cases small : n < 10
    · have digit : ∀ d < 10, 0 < d → some (Nat.digitChar d) ≠ some '0' := by decide
      rw [Nat.toDigits_of_lt_base small]
      exact digit n small positive
    · rw [Nat.toDigits_of_base_le (by decide) (by omega), List.head?_append_of_ne_nil _ Nat.toDigits_ne_nil]
      exact ih (n / 10) (by omega) (by omega)

theorem required_filled {text : String} (filled : text.isEmpty = false) (name : String) :
    required (some text) name = .ok text := by
  simp [required, filled]

theorem parseUuid_toString (id : Uuid) (field : String) : parseUuid (toString id) field = .ok id := by
  rw [parseUuid, Uuid.parse_toString, okOr, ok_bind, if_neg (not_not.mpr rfl)]

theorem parseSequence_toString (sequence : Sequence) :
    parseSequence (toString sequence.value) = .ok sequence := by
  have positive : 0 < sequence.value.toNat := by
    apply Nat.pos_of_ne_zero
    intro zero
    exact sequence.positive (UInt64.toNat_inj.mp zero)
  have digits : (Nat.toDigits 10 sequence.value.toNat).all isAsciiDigit = true := by
    rw [List.all_eq_true]
    exact fun c member => isAsciiDigit_of_mem_toDigits member
  rw [parseSequence, toList_toString_u64, if_neg, parseU64_toString, okOr, ok_bind, Sequence.new,
    dif_pos sequence.positive]
  · rfl
  · simp [sequence_filled, digits, head_toDigits positive]

theorem eventKind_built (metadata : EventMetadata) (candidate : BookId) (kind : EventKind) :
    ∃ payload, wireData (commonData metadata candidate ++ answerData kind) = .ok payload ∧
      payload.readerId = some (toString metadata.readerId.val) ∧
      payload.candidateBookId = some (toString candidate.val) ∧
      payload.sequence = some (toString metadata.sequence.value) ∧
      eventKind (eventType kind) payload = .ok kind := by
  cases kind with
  | placementStarted => exact ⟨_, rfl, rfl, rfl, rfl, rfl⟩
  | placementPaused => exact ⟨_, rfl, rfl, rfl, rfl, rfl⟩
  | placementResumed => exact ⟨_, rfl, rfl, rfl, rfl, rfl⟩
  | comparisonAnswered opponent choice =>
    refine ⟨_, rfl, rfl, rfl, rfl, ?_⟩
    have chosen : required (some (choiceText choice)) "choice" = .ok (choiceText choice) := by
      cases choice <;> rfl
    have parsed : parseChoice (choiceText choice) = .ok choice := by
      cases choice <;> rfl
    show answerKind _ = _
    unfold answerKind
    dsimp only
    rw [required_filled (uuid_filled opponent.val), ok_bind, parseUuid_toString, ok_bind, chosen, ok_bind, parsed]
    rfl

theorem eventOfEnvelope_built {event : RankingEvent} (years : event.metadata.time.inRfc3339Years = true) :
    eventOfEnvelope (builtEnvelope event) = .ok event := by
  rcases eventKind_built event.metadata event.candidate event.kind with
    ⟨payload, wired, reader, candidate, sequence, kind⟩
  have data : eventData (builtEnvelope event) =
      .ok (commonData event.metadata event.candidate ++ answerData event.kind) := rfl
  unfold eventOfEnvelope
  rw [data]
  simp only [builtEnvelope, parseUuid_toString, ok_bind, okOr, years, wired, reader, candidate, sequence,
    required_filled (uuid_filled _), required_filled (sequence_filled _), parseSequence_toString, kind]
  simp

theorem builtEnvelope_wellFormed [Calendar] {event : RankingEvent} {text : String}
    (readable : Calendar.parse text = some event.metadata.time) : WellFormed (builtEnvelope event) where
  id := uuid_filled _
  source := by
    have spelled : toString "urn:uuid:" ≠ "" := by decide
    simp [builtEnvelope, sourceOf, spelled]
  ty := by
    unfold builtEnvelope eventType
    cases event.kind <;> rfl
  subject := by
    have spelled : toString "books/" ≠ "" := by decide
    exact ⟨_, rfl, by simp [subjectOf, spelled]⟩
  time := ⟨text, _, rfl, readable⟩
  datacontenttype := rfl
  names := by simp [builtEnvelope]
  extensions := by simp [builtEnvelope, extensionFields]
  trace := rfl

def Envelope.withSchema (envelope : Envelope) (schema : Option String) : Envelope :=
  { envelope with dataschema := schema }

theorem stampSequence_built [Calendar] {event : RankingEvent} {text : String}
    (readable : Calendar.parse text = some event.metadata.time) (schema : Option String) :
    WellFormed ((stampSequence (builtEnvelope event) event.metadata.sequence).withSchema schema) := by
  have wellFormed := stampSequence_wellFormed (builtEnvelope_wellFormed readable) event.metadata.sequence
  exact ⟨wellFormed.id, wellFormed.source, wellFormed.ty, wellFormed.subject, wellFormed.time,
    wellFormed.datacontenttype, wellFormed.names, wellFormed.extensions, wellFormed.trace⟩

theorem decodeEvent_built [UrlParser] [Calendar] {event : RankingEvent} {text : String}
    (years : event.metadata.time.inRfc3339Years = true)
    (readable : Calendar.parse text = some event.metadata.time) {schema : Option String}
    (valid : ∀ uri, schema = some uri → validAbsoluteUri uri) :
    decodeEvent (.object (encodeWire ((stampSequence (builtEnvelope event) event.metadata.sequence).withSchema schema))) =
      .ok (event, (stampSequence (builtEnvelope event) event.metadata.sequence).withSchema
        (schema.bind UrlParser.parse)) := by
  have dated : ∀ time, some event.metadata.time = some time → time.inRfc3339Years := by
    rintro _ ⟨⟩
    exact years
  have parsed := parseEnvelope_encodeWire (stampSequence_built readable schema) dated rfl valid
  have typed := eventOfEnvelope_stamp (eventOfEnvelope_built years) (schema.bind UrlParser.parse)
  unfold Envelope.withSchema at parsed ⊢
  rw [decodeEvent, Json.asObject, okOr, ok_bind, parsed, ok_bind]
  dsimp only
  rw [typed]
  rfl

end BookSmartz

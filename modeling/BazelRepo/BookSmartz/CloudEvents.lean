import BazelRepo.BookSmartz.Event

namespace BookSmartz

open Library

inductive CodecError where
  | malformedJson (message : String)
  | missingField (name : String)
  | invalidField (name : String)
  | unsupportedSpecVersion
  | unsupportedEventType (ty : String)
  | invalidExtension (name : String)
  deriving DecidableEq

/-- The URL parser, by the text its result serializes to. -/
class UrlParser where
  parse : String → Option String

/-- The calendar, by the RFC 3339 texts it writes and reads; it writes back an instant it has read. -/
class Calendar where
  render : Timestamp → String
  parse : String → Option Timestamp
  parse_empty : parse "" = none
  parse_render : ∀ text time, parse text = some time → time.inRfc3339Years → parse (render time) = some time

structure Envelope where
  id : String
  source : String
  ty : String
  subject : Option String
  time : Option Timestamp
  datacontenttype : Option String
  dataschema : Option String
  data : Option Json
  extensions : List (String × ExtensionValue)

def Envelope.setExtension (envelope : Envelope) (name : String) (value : ExtensionValue) : Envelope :=
  { envelope with extensions := (name, value) :: envelope.extensions.filter fun entry => entry.1 != name }

def extensionJson : ExtensionValue → Json
  | .boolean value => .bool value
  | .string value => .string value
  | .integer value => .number (.integer value.toInt)

def optionalField {α : Type} (name : String) (render : α → Json) : Option α → List (String × Json)
  | some value => [(name, render value)]
  | none => []

def encodeWire [Calendar] (wire : Envelope) : List (String × Json) :=
  [("specversion", .string "1.0"), ("id", .string wire.id), ("type", .string wire.ty),
      ("source", .string wire.source)] ++
    optionalField "datacontenttype" .string wire.datacontenttype ++
    optionalField "dataschema" .string wire.dataschema ++
    optionalField "subject" .string wire.subject ++
    optionalField "time" (fun time => .string (Calendar.render time)) wire.time ++
    optionalField "data" id wire.data ++
    wire.extensions.map fun entry => (entry.1, extensionJson entry.2)

def reserved : List String :=
  ["specversion", "id", "source", "type", "subject", "time", "datacontenttype", "dataschema", "data"]

def extensionValue : Json → Option ExtensionValue
  | .bool value => some (.boolean value)
  | .string value => some (.string value)
  | .number (.integer value) => (tryFrom value).map ExtensionValue.integer
  | _ => none

def deserialize [UrlParser] [Calendar] (fields : List (String × Json)) : Option Envelope := do
  let id ← (fields.lookup "id").bind Json.asStr
  let source ← (fields.lookup "source").bind Json.asStr
  let ty ← (fields.lookup "type").bind Json.asStr
  let subject ← (fields.lookup "subject").mapM Json.asStr
  let time ← (fields.lookup "time").mapM fun value => value.asStr.bind Calendar.parse
  let datacontenttype ← (fields.lookup "datacontenttype").mapM Json.asStr
  let dataschema ← (fields.lookup "dataschema").mapM fun value => value.asStr.bind UrlParser.parse
  let extensions ← (fields.filter fun entry => entry.1 ∉ reserved).mapM fun entry =>
    (extensionValue entry.2).map fun value => (entry.1, value)
  some ⟨id, source, ty, subject, time, datacontenttype, dataschema, fields.lookup "data", extensions⟩

def required (value : Option String) (name : String) : Except CodecError String :=
  match value with
  | some text => if text.isEmpty then .error (.missingField name) else .ok text
  | none => .error (.missingField name)

def parseUuid (value field : String) : Except CodecError Uuid := do
  let uuid ← okOr (Uuid.parse value) (.invalidField field)
  if toString uuid ≠ value then .error (.invalidField field) else .ok uuid

def parseSequence (value : String) : Except CodecError Sequence :=
  if value.isEmpty ∨ value.toList.head? = some '0' ∨ ¬ value.toList.all isAsciiDigit then
    .error (.invalidField "sequence")
  else do
    let parsed ← okOr (parseU64 value) (.invalidField "sequence")
    (Sequence.new parsed).mapError fun _ => .invalidField "sequence"

def validExtensionName (name : String) : Bool :=
  !name.isEmpty && name.toList.all fun c => (0x61 ≤ c.toNat && c.toNat ≤ 0x7A) || isAsciiDigit c

def isUriCharacter (c : Char) : Bool :=
  isAsciiDigit c || (0x41 ≤ c.toNat && c.toNat ≤ 0x5A) || (0x61 ≤ c.toNat && c.toNat ≤ 0x7A) ||
    "-._~:/?[]@!$&'()*+,;=".toList.contains c

/-- Percent signs start an encoded byte; everything else is a character of a URI. -/
def validUriCharacters : List Char → Bool
  | '%' :: first :: second :: rest =>
    isAsciiHexdigit first && isAsciiHexdigit second && validUriCharacters rest
  | c :: rest => isUriCharacter c && validUriCharacters rest
  | [] => true

/-- What follows the authority, where there is one with at most one `@`. -/
def afterAuthority (remainder : List Char) : Option (List Char) :=
  match remainder with
  | '/' :: '/' :: rest =>
    let authority := rest.takeWhile fun c => c != '/' && c != '?'
    if 1 < authority.count '@' then none else some (rest.drop authority.length)
  | _ => some remainder

def validAbsoluteUri [UrlParser] (value : String) : Bool :=
  if value.isEmpty || value.toList.contains '#' then false
  else if !validUriCharacters value.toList then false
  else if !value.toList.contains ':' then false
  else
    match afterAuthority ((value.toList.dropWhile (· != ':')).drop 1) with
    | none => false
    | some rest =>
      if rest.any fun c => c == '[' || c == ']' then false else (UrlParser.parse value).isSome

def invalidContextString (value : String) : Bool :=
  value.toList.any fun c =>
    c.toNat ≤ 0x1F || (0x7F ≤ c.toNat && c.toNat ≤ 0x9F) || (0xFDD0 ≤ c.toNat && c.toNat ≤ 0xFDEF) ||
      0xFFFE ≤ c.toNat % 0x10000

def validExtensionValue : Json → Bool
  | .string value => !invalidContextString value
  | .bool _ => true
  | .number number => number.asI32.isSome
  | _ => false

def validateExtension (entry : String × Json) : Except CodecError Unit :=
  if entry.1 = "data_base64" ∨ ¬ validExtensionName entry.1 ∨ ¬ validExtensionValue entry.2 then
    .error (.invalidExtension entry.1)
  else .ok ()

def validateTrace (extensions : List (String × Json)) (name : String) : Except CodecError Unit :=
  match extensions.lookup name with
  | some value =>
    if (value.asStr.map String.isEmpty).getD true then .error (.invalidExtension name) else .ok ()
  | none => .ok ()

def validateTraceContext (extensions : List (String × Json)) : Except CodecError Unit := do
  validateTrace extensions "traceparent"
  validateTrace extensions "tracestate"
  if (extensions.lookup "tracestate").isSome ∧ (extensions.lookup "traceparent").isNone then
    .error (.invalidExtension "traceparent")
  else .ok ()

def checkRequired (fields : List (String × Json)) (name : String) : Except CodecError Unit :=
  match fields.lookup name with
  | none => .error (.missingField name)
  | some value =>
    if (value.asStr.map String.isEmpty).getD true then .error (.invalidField name) else .ok ()

def checkSchema [UrlParser] (fields : List (String × Json)) : Except CodecError Unit :=
  match fields.lookup "dataschema" with
  | some schema =>
    if (schema.asStr.map validAbsoluteUri).getD false then .ok () else .error (.invalidField "dataschema")
  | none => .ok ()

def parseEnvelope [UrlParser] [Calendar] (members : List (String × Json)) : Except CodecError Envelope :=
  if (members.lookup "data_base64").isSome then .error (.invalidField "data_base64")
  else do
    let fields := members.filter fun entry => !entry.2.isNull
    ["specversion", "id", "source", "type", "subject", "time", "datacontenttype"].forM (checkRequired fields)
    if (fields.lookup "specversion").bind Json.asStr ≠ some "1.0" then .error .unsupportedSpecVersion
    else if (fields.lookup "datacontenttype").bind Json.asStr ≠ some "application/json" then
      .error (.invalidField "datacontenttype")
    else
      checkSchema fields
      let extensions := fields.filter fun entry => entry.1 ∉ reserved
      extensions.forM validateExtension
      validateTraceContext extensions
      okOr (deserialize fields) (.malformedJson "event")

structure WireData where
  readerId : Option String
  candidateBookId : Option String
  sequence : Option String
  opponentBookId : Option String
  choice : Option String

def optionalText (data : List (String × Json)) (name : String) : Except CodecError (Option String) :=
  match data.lookup name with
  | none | some .null => .ok none
  | some (.string value) => .ok (some value)
  | some _ => .error (.invalidField "data")

def wireData (data : List (String × Json)) : Except CodecError WireData := do
  let readerId ← optionalText data "readerId"
  let candidateBookId ← optionalText data "candidateBookId"
  let sequence ← optionalText data "sequence"
  let opponentBookId ← optionalText data "opponentBookId"
  let choice ← optionalText data "choice"
  .ok ⟨readerId, candidateBookId, sequence, opponentBookId, choice⟩

def eventData (envelope : Envelope) : Except CodecError (List (String × Json)) :=
  match envelope.data with
  | some (.object data) => .ok data
  | none => .error (.missingField "data")
  | _ => .error (.invalidField "data")

def choiceText : ComparisonChoice → String
  | .preferCandidate => "prefer_candidate"
  | .preferOpponent => "prefer_opponent"
  | .skip => "skip"

def parseChoice (text : String) : Except CodecError ComparisonChoice :=
  match text with
  | "prefer_candidate" => .ok .preferCandidate
  | "prefer_opponent" => .ok .preferOpponent
  | "skip" => .ok .skip
  | _ => .error (.invalidField "choice")

def eventType : EventKind → String
  | .placementStarted => "bookranking.placement.started.v1"
  | .comparisonAnswered .. => "bookranking.comparison.answered.v1"
  | .placementPaused => "bookranking.placement.paused.v1"
  | .placementResumed => "bookranking.placement.resumed.v1"

def answerKind (payload : WireData) : Except CodecError EventKind := do
  let opponent ← required payload.opponentBookId "opponentBookId"
  let opponent ← parseUuid opponent "opponentBookId"
  let choice ← required payload.choice "choice"
  let choice ← parseChoice choice
  .ok (.comparisonAnswered ⟨opponent⟩ choice)

def eventKind (ty : String) (payload : WireData) : Except CodecError EventKind :=
  match ty with
  | "bookranking.placement.started.v1" => .ok .placementStarted
  | "bookranking.comparison.answered.v1" => answerKind payload
  | "bookranking.placement.paused.v1" => .ok .placementPaused
  | "bookranking.placement.resumed.v1" => .ok .placementResumed
  | _ => .error (.unsupportedEventType ty)

def sourceOf (reader : ReaderId) : String := s!"urn:uuid:{reader.val}"

def subjectOf (candidate : BookId) : String := s!"books/{candidate.val}"

/-- The event an envelope carries; every redundant attribute must agree with its data. -/
def eventOfEnvelope (envelope : Envelope) : Except CodecError RankingEvent := do
  let id ← parseUuid envelope.id "id"
  let time ← okOr envelope.time (.missingField "time")
  if ¬ time.inRfc3339Years then .error (.invalidField "time")
  else
    let data ← eventData envelope
    let payload ← wireData data
    let readerText ← required payload.readerId "readerId"
    let reader ← parseUuid readerText "readerId"
    let candidateText ← required payload.candidateBookId "candidateBookId"
    let candidate ← parseUuid candidateText "candidateBookId"
    let sequenceText ← required payload.sequence "sequence"
    let sequence ← parseSequence sequenceText
    if envelope.source ≠ sourceOf ⟨reader⟩ then .error (.invalidField "source")
    else if envelope.subject ≠ some (subjectOf ⟨candidate⟩) then .error (.invalidField "subject")
    else if (envelope.extensions.lookup "sequence").any fun extension =>
        extension ≠ .string (padded sequence.value) then
      .error (.invalidExtension "sequence")
    else
      let kind ← eventKind envelope.ty payload
      .ok ⟨⟨⟨id⟩, ⟨reader⟩, sequence, time⟩, ⟨candidate⟩, kind⟩

def decodeEvent [UrlParser] [Calendar] (value : Json) : Except CodecError (RankingEvent × Envelope) := do
  let fields ← okOr value.asObject (.invalidField "envelope")
  let envelope ← parseEnvelope fields
  let event ← eventOfEnvelope envelope
  .ok (event, envelope)

/-- A validated envelope and the event in it; decoding is the only way to one. -/
structure CloudEventDocument [UrlParser] [Calendar] where
  event : RankingEvent
  envelope : Envelope
  validated : ∃ value, decodeEvent value = .ok (event, envelope)

def commonData (metadata : EventMetadata) (candidate : BookId) : List (String × Json) :=
  [("readerId", .string (toString metadata.readerId.val)),
    ("candidateBookId", .string (toString candidate.val)),
    ("sequence", .string (toString metadata.sequence.value))]

def answerData : EventKind → List (String × Json)
  | .comparisonAnswered opponent choice =>
    [("opponentBookId", .string (toString opponent.val)), ("choice", .string (choiceText choice))]
  | _ => []

def stampSequence (envelope : Envelope) (sequence : Sequence) : Envelope :=
  envelope.setExtension "sequence" (.string (padded sequence.value))

def builtEnvelope (event : RankingEvent) : Envelope where
  id := toString event.metadata.id.val
  source := sourceOf event.metadata.readerId
  ty := eventType event.kind
  subject := some (subjectOf event.candidate)
  time := some event.metadata.time
  datacontenttype := some "application/json"
  dataschema := none
  data := some (.object (commonData event.metadata event.candidate ++ answerData event.kind))
  extensions := []

def toCloudEvent (event : RankingEvent) : Except CodecError Envelope :=
  if ¬ event.metadata.time.inRfc3339Years then .error (.invalidField "time")
  else .ok (stampSequence (builtEnvelope event) event.metadata.sequence)

def encodeEvent [Calendar] (event : RankingEvent) : Except CodecError Json := do
  let envelope ← toCloudEvent event
  .ok (.object (encodeWire envelope))

def encodeDocument [UrlParser] [Calendar] (document : CloudEventDocument) : Json :=
  .object (encodeWire (stampSequence document.envelope document.event.metadata.sequence))

end BookSmartz

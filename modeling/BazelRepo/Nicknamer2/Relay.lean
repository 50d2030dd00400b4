import BazelRepo.Library.Base64
import BazelRepo.Library.Checked
import BazelRepo.Library.Json

namespace Nicknamer2

open Library

def asBytes (text : String) : List UInt8 := text.toUTF8.data.toList

def fromUtf8 (bytes : List UInt8) : Option String := String.fromUTF8? ⟨bytes.toArray⟩

theorem fromUtf8_asBytes (text : String) : fromUtf8 (asBytes text) = some text :=
  dif_pos text.isValidUTF8

/-- The text of an object with one unsigned member, as the serializer writes it. -/
def memberText (name : String) (value : UInt64) : String :=
  "\x7b\"" ++ name ++ "\":" ++ toString value ++ "\x7d"

/-- The reader of JSON texts. It reads what the serializer writes. -/
class SerdeJson where
  parse : String → Option Json
  parse_memberText : ∀ (name : String) (value : UInt64), (∀ c ∈ name.toList, c.isAlphanum ∨ c = '_') →
    parse (memberText name value) = some (.object [(name, .number (.integer value.toNat))])

def readMember (text : String) : Option Json :=
  match text.toList with
  | _ :: _ :: rest => (splitAtFirst (· == '"') rest).bind fun found =>
    (parseU64 (String.ofList found.2.tail.dropLast)).map fun value =>
      .object [(String.ofList found.1, .number (.integer value.toNat))]
  | _ => none

theorem readMember_memberText (name : String) (value : UInt64) (plain : ∀ c ∈ name.toList, c.isAlphanum ∨ c = '_') :
    readMember (memberText name value) = some (.object [(name, .number (.integer value.toNat))]) := by
  have fresh : ∀ c ∈ name.toList, (c == '"') = false := by
    intro c member
    rw [beq_eq_false_iff_ne]
    rintro rfl
    exact absurd (plain _ member) (by decide)
  have spelled : (memberText name value).toList =
      '\x7b' :: '"' :: (name.toList ++ '"' :: ':' :: ((toString value).toList ++ ['\x7d'])) := by
    simp [memberText]
  unfold readMember
  rw [spelled]
  dsimp only
  rw [splitAtFirst_append fresh rfl, Option.bind_some]
  dsimp only
  rw [List.tail_cons, List.dropLast_concat, String.ofList_toList, String.ofList_toList, parseU64_toString, Option.map_some]

abbrev memberReader : SerdeJson := ⟨readMember, readMember_memberText⟩

/-- A record with one unsigned field, from an object with the member or an array of the value. -/
def fieldValue (name : String) : Json → Option UInt64
  | .object fields => ((fields.lookup name).bind Json.asU64).map UInt64.ofNat
  | .array [value] => value.asU64.map UInt64.ofNat
  | _ => none

def base64Encode (bytes : List UInt8) : String := String.ofList (Base64.encode bytes)

def base64Decode (text : String) : Option (List UInt8) := Base64.decode text.toList

theorem base64Decode_encode (bytes : List UInt8) : base64Decode (base64Encode bytes) = some bytes := by
  unfold base64Decode base64Encode
  rw [String.toList_ofList, Base64.decode_encode]

def encodeCursor (field : String) (id : UInt64) : String := base64Encode (asBytes (memberText field id))

def decodeCursor [SerdeJson] (field kind encoded : String) : Except String UInt64 := do
  let bytes ← okOr (base64Decode encoded) s!"Invalid base64 encoding in {kind}"
  let json ← okOr (fromUtf8 bytes) s!"Invalid UTF-8 in {kind}"
  okOr ((SerdeJson.parse json).bind (fieldValue field)) s!"Invalid JSON in {kind}"

theorem asU64_toNat (id : UInt64) : (Json.number (.integer id.toNat)).asU64 = some id.toNat := by
  have bound := id.toNat_lt
  have range : (0 : Int) ≤ id.toNat ∧ (id.toNat : Int) < 2 ^ 64 := by omega
  unfold Json.asU64
  dsimp only
  rw [if_pos range, Int.toNat_natCast]

theorem decodeCursor_encodeCursor [SerdeJson] {field : String} (kind : String) (id : UInt64)
    (plain : ∀ c ∈ field.toList, c.isAlphanum ∨ c = '_') :
    decodeCursor field kind (encodeCursor field id) = .ok id := by
  have value : fieldValue field (.object [(field, .number (.integer id.toNat))]) = some id := by
    unfold fieldValue
    dsimp only
    rw [List.lookup_cons_self, Option.bind_some, asU64_toNat, Option.map_some, UInt64.ofNat_toNat]
  unfold decodeCursor encodeCursor
  simp only [base64Decode_encode, fromUtf8_asBytes, SerdeJson.parse_memberText field id plain, okOr_some, ok_bind,
    Option.bind_some, value]

structure Cursor where
  discordId : UInt64
  deriving DecidableEq

def Cursor.encode (cursor : Cursor) : String := encodeCursor "discord_id" cursor.discordId

def Cursor.decode [SerdeJson] (encoded : String) : Except String Cursor :=
  (decodeCursor "discord_id" "cursor" encoded).map Cursor.mk

structure ServerCursor where
  serverId : UInt64
  deriving DecidableEq

def ServerCursor.encode (cursor : ServerCursor) : String := encodeCursor "server_id" cursor.serverId

def ServerCursor.decode [SerdeJson] (encoded : String) : Except String ServerCursor :=
  (decodeCursor "server_id" "server cursor" encoded).map ServerCursor.mk

theorem Cursor.decode_encode [SerdeJson] (cursor : Cursor) : Cursor.decode cursor.encode = .ok cursor := by
  unfold Cursor.decode Cursor.encode
  rw [decodeCursor_encodeCursor _ _ (by simp)]
  rfl

theorem ServerCursor.decode_encode [SerdeJson] (cursor : ServerCursor) :
    ServerCursor.decode cursor.encode = .ok cursor := by
  unfold ServerCursor.decode ServerCursor.encode
  rw [decodeCursor_encodeCursor _ _ (by simp)]
  rfl

inductive RawId where
  | name (discordId discordServer : UInt64)
  | server (discordServer : UInt64)
  deriving DecidableEq

structure RelayId where
  typeName : String
  rawId : RawId
  deriving DecidableEq

def nameText (discordId discordServer : UInt64) : String :=
  "Name:" ++ toString discordId ++ ":" ++ toString discordServer

def serverText (discordServer : UInt64) : String := "Server:" ++ toString discordServer

def RelayId.encodeName (discordId discordServer : UInt64) : String :=
  base64Encode (asBytes (nameText discordId discordServer))

def RelayId.encodeServer (discordServer : UInt64) : String := base64Encode (asBytes (serverText discordServer))

def RelayId.decode (encoded : String) : Except String RelayId := do
  let bytes ← okOr (base64Decode encoded) "Invalid base64 encoding"
  let plain ← okOr (fromUtf8 bytes) "Invalid UTF-8 in decoded ID"
  match (plain.toList.splitOn ':').map String.ofList with
  | ["Name", discordId, discordServer] =>
    let discordId ← okOr (parseU64 discordId) "Invalid Discord ID format"
    let discordServer ← okOr (parseU64 discordServer) "Invalid server ID format"
    return { typeName := "Name", rawId := .name discordId discordServer }
  | ["Server", discordServer] =>
    let discordServer ← okOr (parseU64 discordServer) "Invalid server ID format"
    return { typeName := "Server", rawId := .server discordServer }
  | _ => throw s!"Unknown type in global ID: {plain}"

def RelayId.asName (relayId : RelayId) : Except String (UInt64 × UInt64) :=
  match relayId.rawId with
  | .name discordId discordServer => .ok (discordId, discordServer)
  | .server _ => .error "ID is not a Name type"

def RelayId.asServer (relayId : RelayId) : Except String UInt64 :=
  match relayId.rawId with
  | .server discordServer => .ok discordServer
  | .name _ _ => .error "ID is not a Server type"

theorem colon_not_mem_toString (n : UInt64) : ':' ∉ (toString n).toList := by
  intro member
  rw [toList_toString_u64] at member
  exact absurd (isAsciiDigit_of_mem_toDigits member) (by decide)

theorem split_colons {pieces : List String} (plain : ∀ piece ∈ pieces, ':' ∉ piece.toList) (some : pieces ≠ []) :
    (([':'].intercalate (pieces.map String.toList)).splitOn ':').map String.ofList = pieces := by
  rw [List.splitOn_intercalate]
  · rw [List.map_map]
    have texts : String.ofList ∘ String.toList = id := by
      funext piece
      exact String.ofList_toList
    rw [texts, List.map_id]
  · intro characters member
    rcases List.mem_map.mp member with ⟨piece, listed, rfl⟩
    exact plain piece listed
  · simpa using some

theorem split_name (discordId discordServer : UInt64) :
    ((nameText discordId discordServer).toList.splitOn ':').map String.ofList =
      ["Name", toString discordId, toString discordServer] := by
  have joined : (nameText discordId discordServer).toList =
      [':'].intercalate (["Name", toString discordId, toString discordServer].map String.toList) := by
    simp [nameText, List.intercalate]
  rw [joined, split_colons]
  · simp [colon_not_mem_toString]
  · exact List.cons_ne_nil _ _

theorem RelayId.decode_encodeName (discordId discordServer : UInt64) :
    RelayId.decode (RelayId.encodeName discordId discordServer) =
      .ok { typeName := "Name", rawId := .name discordId discordServer } := by
  unfold RelayId.decode RelayId.encodeName
  simp only [base64Decode_encode, fromUtf8_asBytes, okOr_some, ok_bind, split_name, parseU64_toString]
  rfl

theorem split_server (discordServer : UInt64) :
    ((serverText discordServer).toList.splitOn ':').map String.ofList = ["Server", toString discordServer] := by
  have joined : (serverText discordServer).toList =
      [':'].intercalate (["Server", toString discordServer].map String.toList) := by
    simp [serverText, List.intercalate]
  rw [joined, split_colons]
  · simp [colon_not_mem_toString]
  · exact List.cons_ne_nil _ _

theorem RelayId.decode_encodeServer (discordServer : UInt64) :
    RelayId.decode (RelayId.encodeServer discordServer) =
      .ok { typeName := "Server", rawId := .server discordServer } := by
  unfold RelayId.decode RelayId.encodeServer
  simp only [base64Decode_encode, fromUtf8_asBytes, okOr_some, ok_bind, split_server, parseU64_toString]
  rfl

end Nicknamer2

import BazelRepo.Library.Fitting
import BazelRepo.Library.JsonSyntax

namespace PoolReceipt

open Library

abbrev Failure := List String

abbrev Result (α : Type) := Except Failure α

def brief (failure : Failure) : String := failure.head?.getD ""

def full (failure : Failure) : String := ": ".intercalate failure

/-- What other packages and the platform compute: a value read from bytes, an identifier read from a text, and a text for bytes
that may not be one. -/
class Libraries where
  json : List UInt8 → Except String Json
  uuid : String → Except String Uuid
  lossy : List UInt8 → String

def maxOutput : Nat := 8192

def excerpt (value : String) (limit : Nat) : String :=
  String.ofList (fitting Char.utf8Size limit 0 value.toList)

def ensure (condition : Prop) [Decidable condition] (message : String) : Result Unit :=
  if condition then .ok () else .error [message]

/-- A member of an object in the place of its name, or instead of the one with that name. -/
def setField (name : String) (value : Json) : List (String × Json) → List (String × Json)
  | [] => [(name, value)]
  | (other, held) :: rest =>
    if name = other then (name, value) :: rest
    else if name < other then (name, value) :: (other, held) :: rest
    else (other, held) :: setField name value rest

def set (object : Json) (name : String) (value : Json) : Json :=
  .object (setField name value (object.asObject.getD []))

def object (fields : List (String × Json)) : Json :=
  fields.foldl (fun value field => set value field.1 field.2) (.object [])

theorem lookup_setField (name other : String) (value : Json) (fields : List (String × Json)) :
    (setField name value fields).lookup other = if other = name then some value else fields.lookup other := by
  induction fields with
  | nil => simp only [setField, List.lookup_cons, List.lookup_nil, beq_eq_decide]; split <;> simp_all
  | cons field rest ih =>
    rcases field with ⟨held, value'⟩
    unfold setField
    by_cases same : name = held
    · subst same
      rw [if_pos rfl, List.lookup_cons, List.lookup_cons]
      by_cases found : other = name
      · simp [found]
      · simp [found, beq_false_of_ne found]
    · rw [if_neg same]
      by_cases before : name < held
      · rw [if_pos before, List.lookup_cons]
        by_cases found : other = name
        · simp [found]
        · simp [found, beq_false_of_ne found]
      · rw [if_neg before, List.lookup_cons, List.lookup_cons, ih]
        by_cases found : other = held
        · subst found
          simp [Ne.symm same]
        · simp [beq_false_of_ne found]

@[simp] theorem member_set (value : Json) (name other : String) (held : Json) :
    (set value name held).member other = if other = name then some held else value.member other := by
  cases value with
  | object fields => exact lookup_setField name other held fields
  | _ =>
    show (setField name held []).lookup other = _
    rw [lookup_setField]
    rfl

@[simp] theorem field_set (value : Json) (name other : String) (held : Json) :
    (set value name held).field other = if other = name then held else value.field other := by
  unfold Json.field
  rw [member_set]
  split <;> rfl

theorem mem_setField {name : String} {value : Json} {field : String × Json} {fields : List (String × Json)}
    (member : field ∈ setField name value fields) : field = (name, value) ∨ field ∈ fields := by
  induction fields with
  | nil => exact .inl (List.mem_singleton.mp member)
  | cons first rest ih =>
    unfold setField at member
    split at member
    · rcases List.mem_cons.mp member with same | later
      · exact .inl same
      · exact .inr (List.mem_cons_of_mem _ later)
    split at member
    · exact List.mem_cons.mp member
    · rcases List.mem_cons.mp member with same | later
      · exact .inr (same ▸ List.mem_cons_self)
      · exact (ih later).imp_right (List.mem_cons_of_mem _)

theorem integral_set {value held : Json} (name : String) (sound : value.integral = true) (also : held.integral = true) :
    (set value name held).integral = true := by
  apply integralFields_iff.mpr
  intro field member
  rcases mem_setField member with rfl | there
  · exact also
  · cases value with
    | object fields => exact integralFields_iff.mp sound field there
    | _ => cases there

theorem integral_object {fields : List (String × Json)} (sound : ∀ field ∈ fields, field.2.integral = true) :
    (object fields).integral = true := by
  have kept : ∀ (fields : List (String × Json)) (value : Json), (∀ field ∈ fields, field.2.integral = true) →
      value.integral = true → (fields.foldl (fun value field => set value field.1 field.2) value).integral = true := by
    intro fields
    induction fields with
    | nil => exact fun value _ whole => whole
    | cons field rest ih =>
      intro value sound whole
      exact ih _ (fun other member => sound other (List.mem_cons_of_mem _ member))
        (integral_set _ whole (sound field List.mem_cons_self))
  exact kept fields (.object []) sound rfl

/-- At most what the members of an object take, each with what separates it from the next. -/
def fieldsLen (fields : List (String × Json)) : Nat :=
  (fields.map fun field => utf8Len (quote field.1) + utf8Len field.2.render + 2).sum

theorem fieldsLen_setField (name : String) (value : Json) (fields : List (String × Json)) :
    fieldsLen (setField name value fields) ≤ utf8Len (quote name) + utf8Len value.render + 2 + fieldsLen fields := by
  induction fields with
  | nil => exact Nat.le_refl _
  | cons field rest ih =>
    unfold setField
    split
    · simp only [fieldsLen, List.map_cons, List.sum_cons]
      omega
    split
    · simp only [fieldsLen, List.map_cons, List.sum_cons]
      omega
    · simp only [fieldsLen, List.map_cons, List.sum_cons] at ih ⊢
      omega

theorem utf8Len_renderFields (fields : List (String × Json)) : utf8Len (Json.renderFields fields) ≤ fieldsLen fields := by
  have colon : utf8Len [':'] = 1 := by decide
  have comma : utf8Len [','] = 1 := by decide
  induction fields with
  | nil => exact Nat.zero_le _
  | cons field rest ih =>
    have size : fieldsLen (field :: rest) = utf8Len (quote field.1) + utf8Len field.2.render + 2 + fieldsLen rest := by
      simp only [fieldsLen, List.map_cons, List.sum_cons]
    rw [size]
    cases rest with
    | nil =>
      rw [Json.renderFields, utf8Len_append, ← List.singleton_append, utf8Len_append, colon]
      omega
    | cons next others =>
      have text : Json.renderFields (field :: next :: others) =
          quote field.1 ++ [':'] ++ field.2.render ++ [','] ++ Json.renderFields (next :: others) := by
        simp [Json.renderFields]
      rw [text]
      simp only [utf8Len_append, colon, comma]
      omega

theorem utf8Len_object (fields : List (String × Json)) : utf8Len (object fields).render ≤ fieldsLen fields + 2 := by
  have filled : ∀ (fields held : List (String × Json)), ∃ whole,
      fields.foldl (fun value field => set value field.1 field.2) (.object held) = .object whole ∧
        fieldsLen whole ≤ fieldsLen fields + fieldsLen held := by
    intro fields
    induction fields with
    | nil => exact fun held => ⟨held, rfl, by simp [fieldsLen]⟩
    | cons field rest ih =>
      intro held
      rcases ih (setField field.1 field.2 held) with ⟨whole, same, within⟩
      refine ⟨whole, same, ?_⟩
      have first := fieldsLen_setField field.1 field.2 held
      simp only [fieldsLen, List.map_cons, List.sum_cons] at within first ⊢
      omega
  rcases filled fields [] with ⟨whole, same, within⟩
  have braces : utf8Len ['\x7b'] = 1 ∧ utf8Len ['\x7d'] = 1 := by decide
  have inside := utf8Len_renderFields whole
  have none : fieldsLen [] = 0 := rfl
  rw [object, same, Json.render, ← List.singleton_append, utf8Len_append, utf8Len_append, braces.1, braces.2]
  omega

def number (value : Int) : Json := .number (.integer value)

def optional {α : Type} (f : α → Json) (value : Option α) : Json := (value.map f).getD .null

def isPresent (value : Option Json) : Bool := value.any fun held => !held.isNull

/-- What `field == text` compares. -/
def isText (value : Json) (text : String) : Bool := decide (value.asStr = some text)

section

variable [Libraries]

def parseUuid (text : String) : Result Uuid := (Libraries.uuid text).mapError fun error => [error]

def identity (value : Json) (key : String) : Result String := do
  let text ← okOr (value.field key).asStr [s!"missing identity: {key}"]
  let _ ← (parseUuid text).mapError fun failure => s!"invalid identity: {key}" :: failure
  ensure (text.utf8ByteSize = 36) s!"identity is not canonical: {key}"
  .ok text

def handleOf (row : Json) : Option Uuid := (row.field "assignment_handle").asStr.bind fun text => (parseUuid text).toOption

def candidates (data : Json) : List Json :=
  (data.member "assignment").toList ++ (data.field "assignments").asArray.getD []

def selected (value : Json) (requested : Option String) : Result (Option Json) :=
  let data := value.field "data"
  match requested with
  | some requested => do
    let wanted ← parseUuid requested
    match (candidates data).filter fun row => decide (handleOf row = some wanted) with
    | [row] => .ok (some row)
    | _ => .error ["selected assignment is missing or ambiguous"]
  | none => .ok ((data.member "assignment").filter fun held => !held.isNull)

/-- The bytes of an absolute path: a slash first, and no null. -/
def losslessBytes (bytes : List Json) : Bool :=
  decide (bytes.head?.bind Json.asU64 = some 47) && bytes.all fun byte => byte.asU64.any fun n => decide (0 < n ∧ n ≤ 255)

def assignment (value : Json) : Result Json := do
  let handle ← identity value "assignment_handle"
  let operation ← identity value "operation_id"
  let repository ← identity value "repository_id"
  let worktree ← identity value "worktree_id"
  let state ← okOr (value.field "state").asStr ["assignment state missing"]
  ensure (state ∈ ["active", "preparing", "released"]) "assignment state is unknown"
  let path := value.field "path"
  let bytes ← okOr (path.field "bytes").asArray ["lossless path bytes missing"]
  ensure (isText (path.field "encoding") "unix-bytes" = true ∧ losslessBytes bytes = true) "lossless path bytes invalid"
  .ok (object [("assignment_handle", .string handle), ("operation_id", .string operation), ("repository_id", .string repository),
    ("worktree_id", .string worktree), ("state", .string state),
    ("path", object [("display_informational", optional (fun text => .string (excerpt text 512)) (path.field "display").asStr),
      ("lossless_receipt", .string "selected-assignment.json")])])

def addIdentities (value : Json) (keys : List String) (item : Json) : Result Json :=
  keys.foldlM (fun item key =>
    if isPresent (value.member key) = true then do
      let text ← identity value key
      .ok (set item key (.string text))
    else .ok item) item

/-- The operations that are not settled: the first ones and their number. -/
def addPending (state : List Json × Nat) (row : Json) : Result (List Json × Nat) := do
  let (pending, count) := state
  let status ← okOr (row.field "state").asStr ["operation state missing"]
  if status ∈ ["completed", "rejected", "reconciled", "abandoned"] then .ok (pending, count)
  else if pending.length < 8 then do
    let operation ← identity row "operation_id"
    let item := object [("operation_id", .string operation), ("state", .string (excerpt status 64)),
      ("last_checkpoint", optional (fun text => .string (excerpt text 80)) (row.field "last_checkpoint").asStr)]
    let item ← addIdentities row ["assignment_handle", "repository_id", "worktree_id"] item
    .ok (pending ++ [item], count + 1)
  else .ok (pending, count + 1)

def repeats (value : Json) (catalog : Option String) (conflict : String) : Result Unit := do
  let repeated ← identity value "catalog_id"
  ensure (some repeated = catalog) conflict

/-- The identity of the catalog, where there is one; it must be the same wherever it is repeated. -/
def catalogIdentity (context data : Json) : Result (Option String) := do
  let catalog ← (if isPresent (context.member "catalog_id") = true then (identity context "catalog_id").map some
    else .ok none : Result (Option String))
  (if isPresent (data.member "catalog_id") = true then repeats data catalog "catalog identities conflict"
    else .ok () : Result Unit)
  (data.member "authority").elim (.ok ()) fun authority => repeats authority catalog "catalog authority identities conflict"
  .ok catalog

def catalog (value : Json) : Result Json := do
  let context := value.field "context"
  let data := value.field "data"
  let authority := data.member "authority"
  let catalog ← catalogIdentity context data
  let rows := (data.field "operations").asArray
  let (pending, count) ← (rows.getD []).foldlM addPending ([], 0)
  let path := ((authority.map fun authority => authority.field "catalog_path").or (context.member "catalog_path")).or
    (context.member "selected_catalog_path")
  .ok (object [("catalog_id", optional .string catalog), ("identity_missing", .bool catalog.isNone),
    ("path", object [
      ("display_informational", optional (fun text => .string (excerpt text 256)) (path.bind fun path => (path.field "display").asStr)),
      ("lossless_receipt", .string "stdout")]),
    ("phase", optional (fun text => .string (excerpt text 64)) (authority.bind fun authority => (authority.field "phase").asStr)),
    ("mutations_available", optional .bool (data.field "catalog_mutations_available").asBool),
    ("pending_count", optional number (rows.map fun _ => (count : Int))), ("pending_operations", .array pending),
    ("pending_summary_truncated", .bool (decide (8 < count))), ("pending_inventory_returned", .bool rows.isSome)])

def expectedExit : String → Option Int
  | "completed" => some 0
  | "rejected" => some 2
  | "pending" => some 3
  | "unknown" => some 4
  | _ => none

def followUp (expected : Int) : String :=
  if expected = 0 then
    "Apply ownership and authority checks before further effects. Completion does not transfer an assignment."
  else if expected = 2 then "Inspect the rejection receipt. Do not retry until its cause is resolved."
  else "Stop effects. Inspect the recorded operation and assignment. Do not retry uncertain mutations or recover without exact human approval."

def isBlocked (catalog : Json) : Bool :=
  (catalog.field "pending_count").asU64.any (fun n => decide (0 < n)) ||
    decide ((catalog.field "mutations_available").asBool = some false) ||
    (catalog.field "phase").asStr.any fun phase => decide (phase ≠ "active")

def addAssignment (value : Json) (expected : Int) (requested : Option String) (requiresAssignment : Bool) (result : Json) :
    Result (Json × Option Json) :=
  match selected value requested with
  | .ok (some row) => do
    let summary ← assignment row
    let status := if requested.isSome then "explicit_handle" else "command_result"
    .ok (set (set result "assignment" summary) "selection_status" (.string status), some row)
  | .ok none => do
    ensure (requiresAssignment = false ∨ expected ≠ 0) "completed command did not return its required assignment identity"
    .ok (result, none)
  | .error failure =>
    if expected = 0 then .error failure
    else
      .ok (set (set result "selection_status" (.string "missing_or_ambiguous")) "selection_failure"
        (.string (excerpt (brief failure) 160)), none)

def interpret (value : Json) (code : Option Int32) (requested : Option String) (requiresAssignment : Bool) :
    Result (Json × Option Json) := do
  ensure ((value.field "schema_version").asU64 = some 1) "unsupported or missing pool schema"
  let outcome ← okOr (value.field "outcome").asStr ["pool outcome missing"]
  let expected ← okOr (expectedExit outcome) ["pool outcome is unknown"]
  ensure (code.map Int32.toInt = some expected) "pool outcome and exit status conflict"
  let command ← okOr (value.field "command").asStr ["reported command missing"]
  let reason ← okOr (value.field "reason_code").asStr ["reason code missing"]
  let catalog ← catalog value
  let result := object [("pool_outcome", .string outcome), ("reported_command", .string (excerpt command 80)),
    ("reason_code", .string (excerpt reason 128)), ("catalog", catalog), ("selection_status", .string "not_requested"),
    ("assignment", .null)]
  ensure (expected ≠ 0 ∨ ((catalog.field "identity_missing").asBool.getD true) = false)
    "completed command did not return its catalog identity"
  let (result, full) ← addAssignment value expected requested requiresAssignment result
  let context ← addIdentities (value.field "context") ["operation_id", "assignment_handle", "repository_id", "worktree_id"]
    (.object [])
  let blocked := isBlocked catalog
  let result := set (set result "command_identity" context) "wrapper_exit" (number expected)
  let result := set (set result "follow_up" (.string (followUp expected))) "known_catalog_blocker" (.bool blocked)
  let result := if blocked then
      set result "follow_up" (.string "Stop effects. Inspect the recorded catalog and pending operations. Preserve ownership and obtain exact human approval before recovery.")
    else result
  .ok (result, full)

end

def overflow (result : Json) (directory : Option String) : Json :=
  object [("schema_version", number 1), ("wrapper_exit", number 4), ("pool_exit", result.field "pool_exit"),
    ("pool_outcome", result.field "pool_outcome"), ("capture_complete", result.field "capture_complete"),
    ("pool_started", result.field "pool_started"), ("receipt_directory", optional .string directory),
    ("summary_overflow", .bool true), ("follow_up", .string "Stop effects. Read the complete receipt before further action.")]

/-- The text that is reported: the result, or a short one in its place. -/
def bounded (result : Json) (directory : Option String) : Json :=
  let result := set result "receipt_directory" (optional .string directory)
  if maxOutput ≤ utf8Len result.render then overflow result directory else result

def encode (result : Json) (directory : Option String) : Result (List Char) := do
  let text := (bounded result directory).render
  ensure (utf8Len text < maxOutput) "summary cannot fit the output budget"
  .ok (text ++ ['\n'])

end PoolReceipt

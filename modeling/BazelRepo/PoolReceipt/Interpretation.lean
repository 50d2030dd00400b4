import BazelRepo.PoolReceipt.Capture

namespace PoolReceipt

open Library

variable [Libraries]

structure Identifies (value : Json) (key text : String) : Prop where
  held : (value.field key).asStr = some text
  canonical : text.utf8ByteSize = 36
  known : ∃ id, Libraries.uuid text = .ok id

structure CatalogAgrees (answer : Json) : Prop where
  identity : ∃ id, Identifies (answer.field "context") "catalog_id" id ∧
    (∀ held, (answer.field "data").member "catalog_id" = some held → held = .null ∨ held = .string id) ∧
    ∀ authority, (answer.field "data").member "authority" = some authority → authority.field "catalog_id" = .string id

/-- An assignment that names its parts and tells its state and the bytes of its path. -/
structure WellFormedRow (row : Json) : Prop where
  identities : ∀ key ∈ ["assignment_handle", "operation_id", "repository_id", "worktree_id"], ∃ text, Identifies row key text
  state : ∃ state ∈ ["active", "preparing", "released"], (row.field "state").asStr = some state
  encoding : isText ((row.field "path").field "encoding") "unix-bytes" = true
  bytes : ∃ bytes, ((row.field "path").field "bytes").asArray = some bytes ∧ losslessBytes bytes = true

/-- The one row that an answer gives: that of the requested handle, or the one it returns. -/
def Selects (data : Json) : Option String → Json → Prop
  | some handle, row => ∃ wanted, Libraries.uuid handle = .ok wanted ∧
      (candidates data).filter (fun row => decide (handleOf row = some wanted)) = [row]
  | none, row => data.member "assignment" = some row ∧ row.isNull = false

omit [Libraries] in
theorem ensure_eq_ok {condition : Prop} [Decidable condition] {message : String} {u : Unit} :
    ensure condition message = .ok u ↔ condition := by
  unfold ensure
  by_cases holds : condition
  · simp [holds]
  · simp [holds]

omit [Libraries] in
theorem asStr_eq_some {value : Json} {text : String} : value.asStr = some text ↔ value = .string text := by
  cases value <;> simp [Json.asStr]

theorem parseUuid_eq_ok {text : String} {id : Uuid} : parseUuid text = .ok id ↔ Libraries.uuid text = .ok id :=
  mapError_eq_ok

theorem identity_ok {value : Json} {key text : String} (read : identity value key = .ok text) : Identifies value key text := by
  simp only [identity, bind_eq_ok, okOr_eq_ok, mapError_eq_ok, parseUuid_eq_ok, ensure_eq_ok] at read
  rcases read with ⟨held, there, id, known, _, canonical, same⟩
  cases same
  exact ⟨there, canonical, id, known⟩

theorem addIdentities_integral {value item result : Json} {keys : List String} (sound : item.integral = true)
    (added : addIdentities value keys item = .ok result) : result.integral = true := by
  apply foldlM_invariant _ keys item result sound added
  intro item key item' whole step
  split at step
  · rcases bind_eq_ok.mp step with ⟨text, _, set⟩
    cases set
    exact integral_set _ whole rfl
  · cases step
    exact whole

omit [Libraries] in
theorem integral_optional {α : Type} {f : α → Json} (sound : ∀ a, (f a).integral = true) (value : Option α) :
    (optional f value).integral = true := by
  cases value with
  | none => rfl
  | some a => exact sound a

theorem addPending_integral {state state' : List Json × Nat} {row : Json} (sound : ∀ item ∈ state.1, item.integral = true)
    (step : addPending state row = .ok state') : ∀ item ∈ state'.1, item.integral = true := by
  unfold addPending at step
  rcases bind_eq_ok.mp step with ⟨status, _, step⟩
  split at step
  · cases step
    exact sound
  split at step
  · rcases bind_eq_ok.mp step with ⟨operation, _, step⟩
    rcases bind_eq_ok.mp step with ⟨item, added, step⟩
    cases step
    intro other member
    rcases List.mem_append.mp member with earlier | last
    · exact sound other earlier
    · rw [List.mem_singleton.mp last]
      apply addIdentities_integral _ added
      apply integral_object
      simp only [List.forall_mem_cons]
      exact ⟨rfl, rfl, integral_optional (fun _ => rfl) _, nofun⟩
  · cases step
    exact sound

omit [Libraries] in
theorem isPresent_eq_false {value : Option Json} : isPresent value = false ↔ value = none ∨ value = some .null := by
  unfold isPresent
  cases value with
  | none => simp
  | some held => cases held <;> simp [Json.isNull]

theorem repeats_ok {value : Json} {catalog : Option String} {conflict : String} {u : Unit}
    (agreed : repeats value catalog conflict = .ok u) : ∃ id, catalog = some id ∧ value.field "catalog_id" = .string id := by
  rcases bind_eq_ok.mp agreed with ⟨repeated, known, same⟩
  exact ⟨repeated, (ensure_eq_ok.mp same).symm, asStr_eq_some.mp (identity_ok known).held⟩

theorem catalogIdentity_ok {answer : Json} {id : String}
    (read : catalogIdentity (answer.field "context") (answer.field "data") = .ok (some id)) : CatalogAgrees answer := by
  unfold catalogIdentity at read
  rcases bind_eq_ok.mp read with ⟨catalog, first, rest⟩
  rcases bind_eq_ok.mp rest with ⟨_, second, rest⟩
  rcases bind_eq_ok.mp rest with ⟨_, third, same⟩
  cases same
  refine ⟨id, ?_, ?_, ?_⟩
  · split at first
    · cases named : identity (answer.field "context") "catalog_id" with
      | error failure =>
        rw [named] at first
        cases first
      | ok text =>
        rw [named] at first
        cases first
        exact identity_ok named
    · cases first
  · intro held there
    split at second
    · rcases repeats_ok second with ⟨_, same, repeated⟩
      cases same
      right
      rw [Json.field, there] at repeated
      exact repeated
    · rename_i absent
      rcases isPresent_eq_false.mp (Bool.eq_false_of_not_eq_true absent) with none | null
      · rw [none] at there
        cases there
      · rw [null] at there
        exact .inl (Option.some.inj there).symm
  · intro authority there
    rw [there] at third
    rcases repeats_ok third with ⟨_, same, repeated⟩
    cases same
    exact repeated

/-- What the summary of a catalog tells is an object without fractions; it says whether the catalog is named. -/
theorem catalog_ok {answer summary : Json} (read : catalog answer = .ok summary) :
    summary.integral = true ∧ ((summary.field "identity_missing").asBool = some false → CatalogAgrees answer) := by
  unfold catalog at read
  rcases bind_eq_ok.mp read with ⟨named, identity, rest⟩
  rcases bind_eq_ok.mp rest with ⟨⟨pending, count⟩, counted, same⟩
  cases same
  constructor
  · have whole : ∀ item ∈ pending, item.integral = true :=
      foldlM_invariant (P := fun state : List Json × Nat => ∀ item ∈ state.1, item.integral = true)
        (fun _ _ _ sound step => addPending_integral sound step) _ _ _ (fun _ none => absurd none List.not_mem_nil) counted
    apply integral_object
    simp only [List.forall_mem_cons]
    refine ⟨integral_optional (fun _ => rfl) _, rfl, ?_, integral_optional (fun _ => rfl) _, integral_optional (fun _ => rfl) _,
      integral_optional (fun _ => rfl) _, integralValues_iff.mpr whole, rfl, rfl, nofun⟩
    apply integral_object
    simp only [List.forall_mem_cons]
    exact ⟨integral_optional (fun _ => rfl) _, rfl, nofun⟩
  · intro present
    cases named with
    | none =>
      simp [object, Json.asBool] at present
    | some id => exact catalogIdentity_ok identity

theorem assignment_ok {row summary : Json} (read : assignment row = .ok summary) :
    WellFormedRow row ∧ summary.integral = true := by
  unfold assignment at read
  rcases bind_eq_ok.mp read with ⟨handle, first, rest⟩
  rcases bind_eq_ok.mp rest with ⟨operation, second, rest⟩
  rcases bind_eq_ok.mp rest with ⟨repository, third, rest⟩
  rcases bind_eq_ok.mp rest with ⟨worktree, fourth, rest⟩
  rcases bind_eq_ok.mp rest with ⟨state, held, rest⟩
  rcases bind_eq_ok.mp rest with ⟨_, known, rest⟩
  rcases bind_eq_ok.mp rest with ⟨bytes, there, rest⟩
  rcases bind_eq_ok.mp rest with ⟨_, lossless, same⟩
  rcases ensure_eq_ok.mp lossless with ⟨encoding, all⟩
  cases same
  constructor
  · refine ⟨?_, ⟨state, ensure_eq_ok.mp known, okOr_eq_ok.mp held⟩, encoding, ⟨bytes, okOr_eq_ok.mp there, all⟩⟩
    simp only [List.forall_mem_cons]
    exact ⟨⟨_, identity_ok first⟩, ⟨_, identity_ok second⟩, ⟨_, identity_ok third⟩, ⟨_, identity_ok fourth⟩, nofun⟩
  · apply integral_object
    simp only [List.forall_mem_cons]
    refine ⟨rfl, rfl, rfl, rfl, rfl, ?_, nofun⟩
    apply integral_object
    simp only [List.forall_mem_cons]
    exact ⟨integral_optional (fun _ => rfl) _, rfl, nofun⟩

theorem selected_ok {answer row : Json} {requested : Option String} (found : selected answer requested = .ok (some row)) :
    Selects (answer.field "data") requested row := by
  unfold selected at found
  cases requested with
  | none =>
    have kept := Option.filter_eq_some_iff.mp (Except.ok.inj found)
    exact ⟨kept.1, by simpa using kept.2⟩
  | some handle =>
    rcases bind_eq_ok.mp found with ⟨wanted, read, rest⟩
    refine ⟨wanted, parseUuid_eq_ok.mp read, ?_⟩
    split at rest
    · rename_i only
      rw [only]
      cases rest
      rfl
    · cases rest

theorem addAssignment_ok {answer result result' : Json} {expected : Int} {requested : Option String} {requires : Bool}
    {row : Option Json} (added : addAssignment answer expected requested requires result = .ok (result', row)) :
    (result.integral = true → result'.integral = true) ∧
      result'.field "pool_outcome" = result.field "pool_outcome" ∧
      (row = none → requires = true → expected ≠ 0) ∧
      ∀ found, row = some found → Selects (answer.field "data") requested found ∧ WellFormedRow found := by
  unfold addAssignment at added
  split at added
  · rename_i found selection
    rcases bind_eq_ok.mp added with ⟨summary, read, same⟩
    cases same
    rcases assignment_ok read with ⟨sound, whole⟩
    refine ⟨fun held => integral_set _ (integral_set _ held whole) rfl, by simp, nofun, ?_⟩
    rintro _ ⟨⟩
    exact ⟨selected_ok selection, sound⟩
  · rcases bind_eq_ok.mp added with ⟨_, enough, same⟩
    cases same
    refine ⟨id, rfl, ?_, nofun⟩
    intro _ required
    rcases ensure_eq_ok.mp enough with free | other
    · rw [free] at required
      cases required
    · exact other
  · split at added
    · cases added
    · rename_i other
      cases added
      exact ⟨fun held => integral_set _ (integral_set _ held rfl) rfl, by simp, fun _ _ => other, nofun⟩

structure Interpreted (answer : Json) (code : Option Int32) (requested : Option String) (requires : Bool) (result : Json)
    (row : Option Json) (outcome : String) (expected : Int) : Prop where
  reported : (answer.field "outcome").asStr = some outcome
  known : expectedExit outcome = some expected
  agreed : code.map Int32.toInt = some expected
  integral : result.integral = true
  wrapper_exit : result.field "wrapper_exit" = number expected
  pool_outcome : result.field "pool_outcome" = .string outcome
  catalog : expected = 0 → CatalogAgrees answer
  required : expected = 0 → requires = true → row ≠ none
  selection : ∀ found, row = some found → Selects (answer.field "data") requested found ∧ WellFormedRow found

theorem interpret_ok {answer result : Json} {code : Option Int32} {requested : Option String} {requires : Bool}
    {row : Option Json} (read : interpret answer code requested requires = .ok (result, row)) :
    ∃ outcome expected, Interpreted answer code requested requires result row outcome expected := by
  unfold interpret at read
  rcases bind_eq_ok.mp read with ⟨_, _, rest⟩
  rcases bind_eq_ok.mp rest with ⟨outcome, reported, rest⟩
  rcases bind_eq_ok.mp rest with ⟨expected, known, rest⟩
  rcases bind_eq_ok.mp rest with ⟨_, agreed, rest⟩
  rcases bind_eq_ok.mp rest with ⟨command, _, rest⟩
  rcases bind_eq_ok.mp rest with ⟨reason, _, rest⟩
  rcases bind_eq_ok.mp rest with ⟨summary, cataloged, rest⟩
  rcases bind_eq_ok.mp rest with ⟨_, named, rest⟩
  rcases bind_eq_ok.mp rest with ⟨⟨assigned, found⟩, added, rest⟩
  rcases bind_eq_ok.mp rest with ⟨context, identified, same⟩
  rcases catalog_ok cataloged with ⟨whole, agrees⟩
  rcases addAssignment_ok added with ⟨sound, kept, required, selection⟩
  have first : assigned.integral = true := by
    apply sound
    apply integral_object
    simp only [List.forall_mem_cons]
    exact ⟨rfl, rfl, rfl, whole, rfl, rfl, nofun⟩
  have second : context.integral = true := addIdentities_integral rfl identified
  have third : ∀ text blocked, (set (set (set (set assigned "command_identity" context) "wrapper_exit" (number expected)) "follow_up"
      (.string text)) "known_catalog_blocker" (.bool blocked)).integral = true := fun _ _ =>
    integral_set _ (integral_set _ (integral_set _ (integral_set _ first second) rfl) rfl) rfl
  cases same
  refine ⟨outcome, expected, okOr_eq_ok.mp reported, okOr_eq_ok.mp known, ensure_eq_ok.mp agreed, ?_, ?_, ?_, ?_, ?_, selection⟩
  · split
    · exact integral_set _ (third _ _) rfl
    · exact third _ _
  · split <;> simp
  · have outcomes : assigned.field "pool_outcome" = .string outcome := by
      rw [kept]
      simp [object]
    split <;> simp [outcomes]
  · intro completed
    apply agrees
    rcases ensure_eq_ok.mp named with other | present
    · exact absurd completed other
    · cases shown : (summary.field "identity_missing").asBool with
      | none =>
        rw [shown] at present
        cases present
      | some missing =>
        rw [shown] at present
        exact congrArg some present
  · intro completed requested none
    exact required none requested completed

end PoolReceipt

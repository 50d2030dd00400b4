import BazelRepo.PoolReceipt.Interpretation

namespace PoolReceipt

open Library

namespace Session

variable {α β : Type}

/-- A session holds a property of the receipt from its start to its end, also where it fails. -/
def Keeps (P : Receipt → Prop) (session : Session α) : Prop := ∀ receipt, P receipt → P (session.run receipt).2

theorem run_pair (session : Session α) (receipt : Receipt) :
    ∃ (outcome : Except Failure α) (final : Receipt), session.run receipt = (outcome, final) := ⟨_, _, rfl⟩

theorem run_bind {first : Session α} {receipt middle : Receipt} {a : α} (next : α → Session β)
    (ran : first.run receipt = (.ok a, middle)) : (first >>= next).run receipt = (next a).run middle := by
  have unfolded : (first >>= next).run receipt = (ExceptT.bindCont next (first.run receipt).1) (first.run receipt).2 := rfl
  rw [unfolded, ran]
  rfl

theorem run_bind_error {first : Session α} {receipt middle : Receipt} {failure : Failure} (next : α → Session β)
    (ran : first.run receipt = (.error failure, middle)) : (first >>= next).run receipt = (.error failure, middle) := by
  have unfolded : (first >>= next).run receipt = (ExceptT.bindCont next (first.run receipt).1) (first.run receipt).2 := rfl
  rw [unfolded, ran]
  rfl

theorem run_tryCatch {session : Session α} {receipt middle : Receipt} {a : α} (handler : Failure → Session α)
    (ran : session.run receipt = (.ok a, middle)) : (tryCatch session handler).run receipt = (.ok a, middle) := by
  rw [ExceptT.run_tryCatch]
  show StateT.bind session.run _ receipt = _
  unfold StateT.bind
  rw [ran]
  rfl

theorem run_tryCatch_error {session : Session α} {receipt middle : Receipt} {failure : Failure}
    (handler : Failure → Session α) (ran : session.run receipt = (.error failure, middle)) :
    (tryCatch session handler).run receipt = (handler failure).run middle := by
  rw [ExceptT.run_tryCatch]
  show StateT.bind session.run _ receipt = _
  unfold StateT.bind
  rw [ran]
  rfl

theorem bind_ok {first : Session α} {next : α → Session β} {receipt final : Receipt} {b : β}
    (ran : (first >>= next).run receipt = (.ok b, final)) :
    ∃ a middle, first.run receipt = (.ok a, middle) ∧ (next a).run middle = (.ok b, final) := by
  rcases run_pair first receipt with ⟨outcome, middle, same⟩
  cases outcome with
  | ok a => exact ⟨a, middle, same, run_bind next same ▸ ran⟩
  | error failure =>
    rw [run_bind_error next same] at ran
    cases ran

theorem lift_ok {result : Result α} {receipt final : Receipt} {a : α} (ran : (lift result).run receipt = (.ok a, final)) :
    result = .ok a ∧ final = receipt := by
  cases ran
  exact ⟨rfl, rfl⟩

theorem Keeps.bind {P : Receipt → Prop} {first : Session α} {next : α → Session β} (before : Keeps P first)
    (after : ∀ a, Keeps P (next a)) : Keeps P (first >>= next) := by
  intro receipt holds
  rcases run_pair first receipt with ⟨outcome, middle, same⟩
  have kept : P middle := by
    have there := before receipt holds
    rwa [same] at there
  cases outcome with
  | ok a =>
    rw [run_bind next same]
    exact after a middle kept
  | error failure =>
    rw [run_bind_error next same]
    exact kept

theorem Keeps.tryCatch {P : Receipt → Prop} {session : Session α} {handler : Failure → Session α} (before : Keeps P session)
    (after : ∀ failure, Keeps P (handler failure)) : Keeps P (tryCatch session handler) := by
  intro receipt holds
  rcases run_pair session receipt with ⟨outcome, middle, same⟩
  have kept : P middle := by
    have there := before receipt holds
    rwa [same] at there
  cases outcome with
  | ok a =>
    rw [run_tryCatch handler same]
    exact kept
  | error failure =>
    rw [run_tryCatch_error handler same]
    exact after failure middle kept

theorem keeps_lift {P : Receipt → Prop} (result : Result α) : Keeps P (lift result) := fun _ holds => holds

theorem keeps_pure {P : Receipt → Prop} (a : α) : Keeps P (pure a) := fun _ holds => holds

theorem keeps_get {P : Receipt → Prop} : Keeps P get := fun _ holds => holds

theorem keeps_modify {P : Receipt → Prop} {f : Receipt → Receipt} (kept : ∀ receipt, P receipt → P (f receipt)) :
    Keeps P (modify f) := kept

end Session

open Session

section

variable (system : System)

theorem save_ok {name : String} {value : Json} {receipt final : Receipt} {u : Unit}
    (ran : (save system name value).run receipt = (.ok u, final)) :
    final = { receipt with saved := receipt.saved ++ [(name, value)] } := by
  rcases bind_ok ran with ⟨_, middle, first, last⟩
  rcases lift_ok first with ⟨_, rfl⟩
  cases last
  rfl

def In (directory : String) (receipt : Receipt) : Prop := receipt.directory = directory

theorem keeps_record {directory : String} {f : Receipt → Receipt} (same : ∀ receipt, (f receipt).directory = receipt.directory) :
    Keeps (In directory) (modify f) :=
  keeps_modify fun receipt there => (same receipt).trans there

theorem keeps_save {directory : String} (name : String) (value : Json) : Keeps (In directory) (save system name value) :=
  (keeps_lift _).bind fun _ => keeps_record fun _ => rfl

theorem keeps_finish {directory : String} (pid : UInt32) : Keeps (In directory) (finish system pid) := by
  unfold finish
  refine Keeps.bind (keeps_record fun _ => rfl) fun _ => ?_
  refine Keeps.bind (keeps_lift _) fun _ => ?_
  refine Keeps.bind (keeps_record fun _ => rfl) fun _ => ?_
  refine Keeps.bind (keeps_lift _) fun _ => ?_
  refine Keeps.bind (keeps_lift _) fun _ => ?_
  refine Keeps.bind (keeps_save system _ _) fun _ => ?_
  exact keeps_record fun _ => rfl

variable [Libraries]

theorem keeps_run {directory : String} (args : List (List UInt8)) (task : String) (selected : Option String) :
    Keeps (In directory) (run system args task selected) := by
  unfold run
  refine Keeps.bind (keeps_save system _ _) fun _ => ?_
  refine Keeps.bind (keeps_lift _) fun _ => ?_
  refine Keeps.bind (keeps_lift _) fun _ => ?_
  refine Keeps.bind (keeps_lift _) fun _ => ?_
  refine Keeps.bind (keeps_lift _) fun _ => ?_
  refine Keeps.bind (keeps_lift _) fun _ => ?_
  refine Keeps.bind (keeps_lift _) fun _ => ?_
  cases system.spawn with
  | error error => exact (keeps_save system _ _).bind fun _ => keeps_lift _
  | ok pid => exact keeps_finish system pid

theorem keeps_interpreted {directory : String} (cli : Cli) (value : Json) :
    Keeps (In directory) (interpreted system cli value) := by
  unfold interpreted
  refine Keeps.bind keeps_get fun receipt => Keeps.bind (keeps_lift _) ?_
  rintro ⟨result, selected⟩
  cases selected with
  | none => exact keeps_pure _
  | some row => exact (keeps_save system _ _).bind fun _ => keeps_pure _

theorem keeps_execute {directory : String} (cli : Cli) : Keeps (In directory) (execute system cli) := by
  unfold execute
  refine Keeps.bind (keeps_run system _ _ _) fun _ => ?_
  refine Keeps.bind (keeps_lift _) fun _ => ?_
  refine Keeps.bind (keeps_lift _) fun _ => ?_
  refine Keeps.bind (keeps_lift _) fun _ => ?_
  refine Keeps.bind (keeps_lift _) fun _ => ?_
  refine Keeps.bind (keeps_lift _) fun value => ?_
  exact (keeps_interpreted system cli value).tryCatch fun _ => keeps_pure _

theorem run_ok {args : List (List UInt8)} {task : String} {selected : Option String} {receipt final : Receipt} {u : Unit}
    (ran : (run system args task selected).run receipt = (.ok u, final)) : final.complete = true ∧ final.code = system.code := by
  rcases bind_ok ran with ⟨_, _, _, ran⟩
  rcases bind_ok ran with ⟨_, _, _, ran⟩
  rcases bind_ok ran with ⟨_, _, _, ran⟩
  rcases bind_ok ran with ⟨_, _, _, ran⟩
  rcases bind_ok ran with ⟨_, _, _, ran⟩
  rcases bind_ok ran with ⟨_, _, _, ran⟩
  rcases bind_ok ran with ⟨_, _, _, ran⟩
  cases spawned : system.spawn with
  | error error =>
    rw [spawned] at ran
    rcases bind_ok ran with ⟨_, _, _, stopped⟩
    cases stopped
  | ok pid =>
    rw [spawned] at ran
    rcases bind_ok ran with ⟨_, _, _, ran⟩
    rcases bind_ok ran with ⟨_, _, _, ran⟩
    rcases bind_ok ran with ⟨_, _, recorded, ran⟩
    rcases bind_ok ran with ⟨_, _, first, ran⟩
    rcases bind_ok ran with ⟨_, _, second, ran⟩
    rcases bind_ok ran with ⟨_, _, saved, completed⟩
    cases recorded
    cases (lift_ok first).2
    cases (lift_ok second).2
    cases save_ok system saved
    cases completed
    exact ⟨rfl, rfl⟩

/-- What an exit status of the wrapper tells about the pool: a success about its answer, the catalog and the assignment, and
a rejection or a pending operation that the pool's own status agrees. -/
inductive Justified (cli : Cli) (receipt : Receipt) : Int → Prop where
  | completed (answer : Json) (read : Libraries.json system.stdout = .ok answer) (complete : receipt.complete = true)
      (status : system.code.map Int32.toInt = some 0) (outcome : (answer.field "outcome").asStr = some "completed")
      (catalog : CatalogAgrees answer)
      (assignment : requiresAssignment cli = true → ∃ row, Selects (answer.field "data") cli.assignment row ∧ WellFormedRow row ∧
        ("selected-assignment.json", row) ∈ receipt.saved) : Justified cli receipt 0
  | rejected (answer : Json) (read : Libraries.json system.stdout = .ok answer)
      (status : system.code.map Int32.toInt = some 2) (outcome : (answer.field "outcome").asStr = some "rejected") :
      Justified cli receipt 2
  | pending (answer : Json) (read : Libraries.json system.stdout = .ok answer)
      (status : system.code.map Int32.toInt = some 3) (outcome : (answer.field "outcome").asStr = some "pending") :
      Justified cli receipt 3
  | stopped : Justified cli receipt 4

theorem interpreted_ok {cli : Cli} {value result : Json} {receipt final : Receipt}
    (ran : (interpreted system cli value).run receipt = (.ok result, final)) :
    ∃ row, interpret value receipt.code cli.assignment (requiresAssignment cli) = .ok (result, row) ∧
      final.complete = receipt.complete ∧ ∀ found, row = some found → ("selected-assignment.json", found) ∈ final.saved := by
  rcases bind_ok ran with ⟨_, _, got, ran⟩
  cases got
  rcases bind_ok ran with ⟨⟨result', selected⟩, _, read, ran⟩
  rcases lift_ok read with ⟨interpretation, rfl⟩
  cases selected with
  | none =>
    cases ran
    exact ⟨none, interpretation, rfl, nofun⟩
  | some row =>
    rcases bind_ok ran with ⟨_, _, saved, same⟩
    cases save_ok system saved
    cases same
    refine ⟨some row, interpretation, rfl, ?_⟩
    rintro _ ⟨⟩
    exact List.mem_append_right _ (List.mem_singleton_self _)

theorem Interpreted.justified {cli : Cli} {answer result : Json} {row : Option Json} {outcome : String} {expected : Int}
    {receipt : Receipt} (read : Libraries.json system.stdout = .ok answer) (complete : receipt.complete = true)
    (interpreted : Interpreted answer system.code cli.assignment (requiresAssignment cli) result row outcome expected)
    (saved : ∀ found, row = some found → ("selected-assignment.json", found) ∈ receipt.saved) :
    Justified system cli receipt expected := by
  have known := interpreted.known
  have reported := interpreted.reported
  have agreed := interpreted.agreed
  unfold expectedExit at known
  split at known
  · cases known
    apply Justified.completed answer read complete agreed reported (interpreted.catalog rfl)
    intro required
    cases found : row with
    | none => exact absurd found (interpreted.required rfl required)
    | some held =>
      rcases interpreted.selection held found with ⟨selects, sound⟩
      exact ⟨held, selects, sound, saved held found⟩
  · cases known
    exact .rejected answer read agreed reported
  · cases known
    exact .pending answer read agreed reported
  · cases known
    exact .stopped
  · cases known

structure Concluded (cli : Cli) (receipt : Receipt) (result : Json) : Prop where
  integral : result.integral = true
  pool_outcome : result.field "pool_outcome" = .null ∨ ∃ outcome ∈ knownOutcomes, result.field "pool_outcome" = .string outcome
  wrapper_exit : ∃ exit, result.field "wrapper_exit" = number exit ∧ Justified system cli receipt exit

theorem uninterpreted_concluded (cli : Cli) (receipt : Receipt) (value : Json) (failure : Failure) :
    Concluded system cli receipt (uninterpreted value failure) where
  integral := by
    apply integral_object
    simp only [List.forall_mem_cons]
    exact ⟨rfl, integral_optional (fun _ => rfl) _, rfl, rfl, nofun⟩
  pool_outcome := by
    have found : (uninterpreted value failure).field "pool_outcome" =
        optional .string ((value.field "outcome").asStr.filter fun outcome => decide (outcome ∈ knownOutcomes)) := by
      simp [uninterpreted, object]
    rw [found]
    cases kept : (value.field "outcome").asStr.filter fun outcome => decide (outcome ∈ knownOutcomes) with
    | none => exact .inl rfl
    | some outcome =>
      have known := (Option.filter_eq_some_iff.mp kept).2
      exact .inr ⟨outcome, of_decide_eq_true known, rfl⟩
  wrapper_exit := ⟨4, by simp [uninterpreted, object], .stopped⟩

theorem failed_concluded (cli : Cli) (receipt : Receipt) (failure : Failure) :
    Concluded system cli receipt (failed receipt failure) where
  integral := by
    apply integral_set _ _ rfl
    apply integral_object
    simp only [List.forall_mem_cons]
    exact ⟨rfl, rfl, nofun⟩
  pool_outcome := by
    left
    unfold failed
    split <;> rfl
  wrapper_exit := by
    refine ⟨4, ?_, .stopped⟩
    unfold failed
    split <;> rfl

theorem execute_concluded {cli : Cli} {receipt final : Receipt} {value : Json}
    (ran : (execute system cli).run receipt = (.ok value, final)) : Concluded system cli final value := by
  rcases bind_ok ran with ⟨_, captured, capture, ran⟩
  rcases run_ok system capture with ⟨complete, status⟩
  rcases bind_ok ran with ⟨_, _, unchanged, ran⟩
  rw [(lift_ok unchanged).2] at ran
  rcases bind_ok ran with ⟨_, _, unchanged, ran⟩
  rw [(lift_ok unchanged).2] at ran
  rcases bind_ok ran with ⟨_, _, unchanged, ran⟩
  rw [(lift_ok unchanged).2] at ran
  rcases bind_ok ran with ⟨_, _, unchanged, ran⟩
  rw [(lift_ok unchanged).2] at ran
  rcases bind_ok ran with ⟨answer, _, parsed, ran⟩
  rw [(lift_ok parsed).2] at ran
  have read : Libraries.json system.stdout = .ok answer := mapError_eq_ok.mp (mapError_eq_ok.mp (lift_ok parsed).1)
  rcases run_pair (interpreted system cli answer) captured with ⟨outcome, middle, same⟩
  cases outcome with
  | error failure =>
    rw [run_tryCatch_error _ same] at ran
    cases ran
    exact uninterpreted_concluded system cli final answer failure
  | ok result =>
    rw [run_tryCatch _ same] at ran
    cases ran
    rcases interpreted_ok system same with ⟨row, interpretation, kept, saved⟩
    rcases interpret_ok interpretation with ⟨outcome, expected, interpreted⟩
    rw [status] at interpreted
    refine ⟨interpreted.integral, .inr ⟨outcome, ?_, interpreted.pool_outcome⟩, expected, interpreted.wrapper_exit, ?_⟩
    · have known := interpreted.known
      unfold expectedExit at known
      split at known
      · decide
      · decide
      · decide
      · decide
      · cases known
    · exact interpreted.justified system read (kept.trans complete) saved

structure Reportable (cli : Cli) (receipt : Receipt) (result : Json) : Prop extends Concluded system cli receipt result where
  pool_exit : ∃ code, result.field "pool_exit" = int32 code
  flags : ∀ name ∈ ["capture_complete", "pool_started"], ∃ flag, result.field name = .bool flag

omit [Libraries] in
theorem integral_int32 (value : Option Int32) : (int32 value).integral = true := integral_optional (fun _ => rfl) _

omit [Libraries] in
theorem integral_uint32 (value : Option UInt32) : (uint32 value).integral = true := integral_optional (fun _ => rfl) _

theorem Concluded.described {cli : Cli} {receipt : Receipt} {result : Json} (concluded : Concluded system cli receipt result) :
    Reportable system cli receipt (described cli receipt result) where
  integral := by
    unfold PoolReceipt.described
    apply integral_set _ _ rfl
    apply integral_set _ _ rfl
    apply integral_set _ _ (integral_uint32 _)
    apply integral_set _ _ (integral_int32 _)
    apply integral_set _ _ (integral_int32 _)
    apply integral_set _ _ rfl
    exact integral_set _ concluded.integral rfl
  pool_outcome := by
    have kept : (PoolReceipt.described cli receipt result).field "pool_outcome" = result.field "pool_outcome" := by
      simp [PoolReceipt.described]
    rw [kept]
    exact concluded.pool_outcome
  wrapper_exit := by
    have kept : (PoolReceipt.described cli receipt result).field "wrapper_exit" = result.field "wrapper_exit" := by
      simp [PoolReceipt.described]
    rw [kept]
    exact concluded.wrapper_exit
  pool_exit := ⟨receipt.code, by simp [PoolReceipt.described]⟩
  flags := by
    simp only [List.forall_mem_cons]
    exact ⟨⟨_, by simp [PoolReceipt.described]; rfl⟩, ⟨_, by simp [PoolReceipt.described]; rfl⟩, nofun⟩

theorem Reportable.set {cli : Cli} {receipt : Receipt} {result held : Json} {name : String}
    (reportable : Reportable system cli receipt result) (whole : held.integral = true)
    (apart : name ∉ ["pool_outcome", "wrapper_exit", "pool_exit", "capture_complete", "pool_started"]) :
    Reportable system cli receipt (PoolReceipt.set result name held) := by
  have others : ∀ other ∈ ["pool_outcome", "wrapper_exit", "pool_exit", "capture_complete", "pool_started"],
      (PoolReceipt.set result name held).field other = result.field other := by
    intro other member
    have different : other ≠ name := fun same => apart (same ▸ member)
    rw [field_set, if_neg different]
  refine ⟨⟨integral_set _ reportable.integral whole, ?_, ?_⟩, ?_, ?_⟩
  · rw [others _ (by decide)]
    exact reportable.pool_outcome
  · rw [others _ (by decide)]
    exact reportable.wrapper_exit
  · rw [others _ (by decide)]
    exact reportable.pool_exit
  · intro flag member
    have known : flag ∈ ["pool_outcome", "wrapper_exit", "pool_exit", "capture_complete", "pool_started"] :=
      List.mem_of_mem_drop (i := 3) member
    rw [others _ known]
    exact reportable.flags flag member

end

structure Placed (directory : String) : Prop where
  short : directory.utf8ByteSize ≤ 2085
  visible : ∀ c ∈ directory.toList, 0x20 ≤ c.toNat

theorem visible_of_control {c : Char} (plain : isControl c = false) : 0x20 ≤ c.toNat := by
  simp only [isControl, Bool.or_eq_false_iff, decide_eq_false_iff_not] at plain
  omega

theorem uuid_placed (id : Uuid) : (toString id).utf8ByteSize = 36 ∧ ∀ c ∈ (toString id).toList, 0x20 ≤ c.toNat := by
  have text : (toString id).toList = hyphenate (fixedDigits 16 32 id.bits.toNat) := String.toList_ofList
  have bounds : ∀ c ∈ (toString id).toList, 0x20 ≤ c.toNat ∧ c.toNat ≤ 0x7F := by
    intro c member
    rcases Uuid.mem_toString member with rfl | digit
    · decide
    · simp only [isAsciiHexdigit, isAsciiDigit, Bool.or_eq_true, Bool.and_eq_true, decide_eq_true_eq] at digit
      omega
  constructor
  · rw [← utf8Len_toList, utf8Len_of_ascii fun c member => (bounds c member).2, text, length_hyphenate (length_fixedDigits 16 32 _)]
  · exact fun c member => (bounds c member).1

theorem join_placed {label : String} (short : label.utf8ByteSize ≤ 2048) (plain : label.toList.any isControl = false) (id : Uuid) :
    Placed (Receipt.join label (toString id)) := by
  rcases uuid_placed id with ⟨size, visible⟩
  have slash : "/".utf8ByteSize = 1 ∧ ∀ c ∈ "/".toList, 0x20 ≤ c.toNat := by
    refine ⟨by decide, ?_⟩
    intro c member
    have only : c = '/' := List.mem_singleton.mp member
    rw [only]
    decide
  have first : ∀ c ∈ label.toList, 0x20 ≤ c.toNat := by
    intro c member
    exact visible_of_control (Bool.eq_false_of_not_eq_true fun control => by
      rw [List.any_eq_false] at plain
      exact plain c member control)
  unfold Receipt.join
  split
  · constructor
    · rw [String.utf8ByteSize_append, size]
      omega
    · intro c member
      rw [String.toList_append] at member
      rcases List.mem_append.mp member with before | after
      · exact first c before
      · exact visible c after
  · constructor
    · rw [String.utf8ByteSize_append, String.utf8ByteSize_append, size, slash.1]
      omega
    · intro c member
      rw [String.toList_append, String.toList_append] at member
      rcases List.mem_append.mp member with before | after
      · rcases List.mem_append.mp before with earlier | between
        · exact first c earlier
        · exact slash.2 c between
      · exact visible c after

theorem new_ok [Libraries] {system : System} {root : List UInt8} {receipt : Receipt}
    (accepted : Receipt.new system root = .ok receipt) : Placed receipt.directory := by
  unfold Receipt.new at accepted
  rcases bind_eq_ok.mp accepted with ⟨label, _, accepted⟩
  rcases bind_eq_ok.mp accepted with ⟨_, _, accepted⟩
  rcases bind_eq_ok.mp accepted with ⟨_, suited, accepted⟩
  rcases bind_eq_ok.mp accepted with ⟨_, _, accepted⟩
  rcases bind_eq_ok.mp accepted with ⟨_, _, accepted⟩
  rcases bind_eq_ok.mp accepted with ⟨_, _, accepted⟩
  rcases bind_eq_ok.mp accepted with ⟨_, _, accepted⟩
  rcases bind_eq_ok.mp accepted with ⟨_, _, accepted⟩
  rcases bind_eq_ok.mp accepted with ⟨_, _, accepted⟩
  rcases bind_eq_ok.mp accepted with ⟨_, _, accepted⟩
  rcases bind_eq_ok.mp accepted with ⟨_, _, same⟩
  rcases ensure_eq_ok.mp suited with ⟨_, short, plain⟩
  cases same
  exact join_placed short plain system.id

theorem utf8Len_repr {n k : Nat} (positive : 0 < k) (bound : n < 10 ^ k) : utf8Len (toString n).toList ≤ k := by
  have digits : (toString n).toList = Nat.toDigits 10 n := Nat.toList_repr
  rw [digits, utf8Len_of_ascii]
  · exact (Nat.length_toDigits_le_iff (by decide) positive).mpr bound
  · intro c member
    have bounds := digit_bounds (isAsciiDigit_of_mem_toDigits member)
    omega

theorem utf8Len_number {value : Int} (lower : -2^31 ≤ value) (upper : value < 2^31) : utf8Len (number value).render ≤ 11 := by
  show utf8Len (toString value).toList ≤ 11
  cases value with
  | ofNat n =>
    have bound : n < 10 ^ 10 := by
      simp only [Int.ofNat_eq_natCast] at upper
      omega
    exact (utf8Len_repr (by decide) bound).trans (by decide)
  | negSucc n =>
    have digits : utf8Len (toString (n + 1)).toList ≤ 10 := utf8Len_repr (by decide) (by omega)
    have text : (toString (Int.negSucc n)).toList = '-' :: (toString (n + 1)).toList := by
      show ("-" ++ toString (n + 1)).toList = _
      rw [String.toList_append]
      rfl
    have dash : utf8Len ['-'] = 1 := by decide
    rw [text, ← List.singleton_append, utf8Len_append, dash]
    omega

theorem utf8Len_int32 (value : Option Int32) : utf8Len (int32 value).render ≤ 11 := by
  cases value with
  | none => decide
  | some code => exact utf8Len_number code.le_toInt code.toInt_lt

theorem utf8Len_directory {directory : Option String} (placed : ∀ path, directory = some path → Placed path) :
    utf8Len (optional .string directory).render ≤ 4172 := by
  cases directory with
  | none => decide
  | some path =>
    have within := utf8Len_quote (placed path rfl).visible
    have short := (placed path rfl).short
    show utf8Len (quote path) ≤ 4172
    omega

section

variable [Libraries] {system : System} {cli : Cli} {receipt : Receipt} {result : Json} {directory : Option String}

theorem utf8Len_overflow (reportable : Reportable system cli receipt result)
    (placed : ∀ path, directory = some path → Placed path) : utf8Len (overflow result directory).render < maxOutput := by
  have whole := utf8Len_object [("schema_version", number 1), ("wrapper_exit", number 4), ("pool_exit", result.field "pool_exit"),
    ("pool_outcome", result.field "pool_outcome"), ("capture_complete", result.field "capture_complete"),
    ("pool_started", result.field "pool_started"), ("receipt_directory", optional .string directory),
    ("summary_overflow", .bool true), ("follow_up", .string "Stop effects. Read the complete receipt before further action.")]
  have names : ∀ name ∈ ["schema_version", "wrapper_exit", "pool_exit", "pool_outcome", "capture_complete", "pool_started",
      "receipt_directory", "summary_overflow", "follow_up"], utf8Len (quote name) ≤ 19 := by decide
  simp only [List.forall_mem_cons] at names
  have one : utf8Len (number 1).render ≤ 11 := utf8Len_number (by decide) (by decide)
  have four : utf8Len (number 4).render ≤ 11 := utf8Len_number (by decide) (by decide)
  have advice : utf8Len (Json.string "Stop effects. Read the complete receipt before further action.").render ≤ 64 := by decide
  have truth : ∀ flag : Bool, utf8Len (Json.bool flag).render ≤ 5 := by decide
  have place := utf8Len_directory placed
  have status : utf8Len (result.field "pool_exit").render ≤ 11 := by
    rcases reportable.pool_exit with ⟨code, same⟩
    rw [same]
    exact utf8Len_int32 code
  have flags : ∀ name ∈ ["capture_complete", "pool_started"], utf8Len (result.field name).render ≤ 5 := by
    intro name member
    rcases reportable.flags name member with ⟨flag, same⟩
    rw [same]
    exact truth flag
  simp only [List.forall_mem_cons] at flags
  have outcome : utf8Len (result.field "pool_outcome").render ≤ 11 := by
    rcases reportable.pool_outcome with null | ⟨outcome, known, same⟩
    · rw [null]
      decide
    · have short : ∀ outcome ∈ knownOutcomes, utf8Len (Json.string outcome).render ≤ 11 := by decide
      rw [same]
      exact short outcome known
  have flag := truth true
  simp only [fieldsLen, List.map_cons, List.map_nil, List.sum_cons, List.sum_nil] at whole
  unfold overflow maxOutput
  omega

omit [Libraries] in
theorem bounded_eq (result : Json) (directory : Option String) :
    ∃ whole, whole = set result "receipt_directory" (optional .string directory) ∧
      bounded result directory = if maxOutput ≤ utf8Len whole.render then overflow whole directory else whole :=
  ⟨_, rfl, by simp only [bounded]⟩

theorem bounded_fits (reportable : Reportable system cli receipt result)
    (placed : ∀ path, directory = some path → Placed path) :
    (bounded result directory).integral = true ∧ utf8Len (bounded result directory).render < maxOutput := by
  rcases bounded_eq result directory with ⟨whole, same, chosen⟩
  have located : Reportable system cli receipt whole := by
    rw [same]
    exact reportable.set system (integral_optional (fun _ => rfl) _) (by decide)
  rw [chosen]
  split
  · refine ⟨?_, utf8Len_overflow located placed⟩
    have known : (whole.field "pool_outcome").integral = true := by
      rcases located.pool_outcome with null | ⟨outcome, _, same⟩
      · rw [null]
        rfl
      · rw [same]
        rfl
    have flags : ∀ name ∈ ["capture_complete", "pool_started"], (whole.field name).integral = true := by
      intro name member
      rcases located.flags name member with ⟨flag, same⟩
      rw [same]
      rfl
    simp only [List.forall_mem_cons] at flags
    rcases located.pool_exit with ⟨code, same⟩
    apply integral_object
    simp only [List.forall_mem_cons]
    exact ⟨rfl, rfl, same ▸ integral_int32 code, known, flags.1, flags.2.1, integral_optional (fun _ => rfl) _, rfl, rfl, nofun⟩
  · rename_i fits
    exact ⟨located.integral, Nat.lt_of_not_le fits⟩

omit [Libraries] in
theorem bounded_exit (result : Json) (directory : Option String) :
    (bounded result directory).field "wrapper_exit" = number 4 ∨
      (bounded result directory).field "wrapper_exit" = result.field "wrapper_exit" := by
  rcases bounded_eq result directory with ⟨whole, same, chosen⟩
  rw [chosen]
  split
  · exact .inl (by simp [overflow, object])
  · exact .inr (by simp [same])

omit [Libraries] in
theorem asI64_number {value four : Int} (read : (number value).asI64 = some four) : value = four := by
  simp only [number, Json.asI64] at read
  split at read
  · exact Option.some.inj read
  · cases read

theorem saveError_reportable (system : System) {cli : Cli} {receipt : Receipt} {value : Json}
    (reportable : Reportable system cli receipt value) : ∃ final, (saveError system value receipt).receipt = some final ∧
      (saveError system value receipt).directory = some receipt.directory ∧
      Reportable system cli final (saveError system value receipt).result := by
  unfold saveError
  split
  · rename_i stops
    rcases reportable.wrapper_exit with ⟨exit, shown, _⟩
    rw [shown] at stops
    rw [asI64_number stops] at shown
    rcases run_pair (save system "wrapper-error.json" value) receipt with ⟨outcome, final, saved⟩
    have still : final.directory = receipt.directory := by
      have stays := keeps_save system "wrapper-error.json" value receipt (rfl : In receipt.directory receipt)
      rwa [saved] at stays
    rw [saved]
    have stopped : Reportable system cli final value :=
      ⟨⟨reportable.integral, reportable.pool_outcome, 4, shown, .stopped⟩, reportable.pool_exit, reportable.flags⟩
    cases outcome with
    | ok _ => exact ⟨final, rfl, congrArg some still, stopped⟩
    | error failure => exact ⟨final, rfl, congrArg some still, stopped.set system rfl (by decide)⟩
  · exact ⟨receipt, rfl, rfl, reportable⟩

theorem observe_reportable (system : System) (cli : Cli) (receipt : Receipt) :
    ∃ final, (observe system cli receipt).receipt = some final ∧
      (observe system cli receipt).directory = some receipt.directory ∧
      Reportable system cli final (observe system cli receipt).result := by
  rcases run_pair (execute system cli) receipt with ⟨outcome, final, ran⟩
  have there : final.directory = receipt.directory := by
    have kept := keeps_execute system cli receipt (rfl : In receipt.directory receipt)
    rwa [ran] at kept
  unfold observe
  rw [ran, ← there]
  cases outcome with
  | ok value => exact saveError_reportable system (execute_concluded system ran).described
  | error failure => exact saveError_reportable system (failed_concluded system cli final failure).described

theorem encode_ok (reportable : Reportable system cli receipt result)
    (placed : ∀ path, directory = some path → Placed path) :
    encode result directory = .ok ((bounded result directory).render ++ ['\n']) ∧
      JsonSyntax.Value (bounded result directory).render ∧
      utf8Len ((bounded result directory).render ++ ['\n']) ≤ 8192 := by
  rcases bounded_fits reportable placed with ⟨integral, short⟩
  have newline : utf8Len ['\n'] = 1 := by decide
  refine ⟨?_, render_value _ integral, ?_⟩
  · show (ensure _ _ >>= fun _ => Except.ok _) = _
    rw [(ensure_eq_ok (u := ())).mpr short]
    rfl
  · unfold maxOutput at short
    rw [utf8Len_append, newline]
    omega

theorem report_ok {observation : Observation} {text : List Char} {value : Json} {exit : Int}
    (encoded : encode observation.result observation.directory = .ok text)
    (shown : value.field "wrapper_exit" = number exit) (bounds : -2^63 ≤ exit ∧ exit < 2^63)
    (read : Libraries.json (String.ofList text).toUTF8.data.toList = .ok value) : report observation = .ok (text, exit) := by
  have status : (number exit).asI64 = some exit := if_pos bounds
  unfold report
  rw [encoded, ok_bind, read]
  show (okOr (value.field "wrapper_exit").asI64 ["wrapper exit missing"] >>= fun status => .ok (text, status)) = _
  rw [shown, status]
  rfl

theorem Justified.bounds {exit : Int} (justified : Justified system cli receipt exit) : -2^63 ≤ exit ∧ exit < 2^63 := by
  cases justified <;> decide

theorem main_reportable (system : System) (root : Result (List UInt8)) (cli : Cli) :
    ∃ receipt, Reportable system cli receipt (main system root cli).result ∧
      (∀ path, (main system root cli).directory = some path → Placed path) ∧
      ((main system root cli).result.field "wrapper_exit" = number 4 ∨ (main system root cli).receipt = some receipt) := by
  unfold main
  cases started : root.bind (Receipt.new system) with
  | ok receipt =>
    rcases bind_eq_ok.mp started with ⟨path, _, accepted⟩
    rcases observe_reportable system cli receipt with ⟨final, kept, placed, reportable⟩
    refine ⟨final, reportable, ?_, .inr kept⟩
    intro other there
    rw [placed] at there
    cases there
    exact new_ok accepted
  | error failure =>
    dsimp only
    refine ⟨{ directory := "" }, ⟨⟨?_, .inl ?_, 4, ?_, .stopped⟩, ⟨none, ?_⟩, ?_⟩, by simp, .inl ?_⟩
    · apply integral_object
      simp only [List.forall_mem_cons]
      exact ⟨rfl, rfl, rfl, rfl, rfl, rfl, List.forall_mem_nil _⟩
    · simp [object]
      rfl
    · simp [object]
    · simp [object]
      rfl
    · simp only [List.forall_mem_cons]
      exact ⟨⟨false, by simp [object]⟩, ⟨false, by simp [object]⟩, List.forall_mem_nil _⟩
    · simp [object]

/-- Whatever the pool writes and however it ends, the report is a line of JSON that fits, and the status that it gives is
justified by the receipt. -/
theorem report_justified (system : System) (root : Result (List UInt8)) (cli : Cli) :
    ∃ (value : Json) (exit : Int),
      encode (main system root cli).result (main system root cli).directory = .ok (value.render ++ ['\n']) ∧
      JsonSyntax.Value value.render ∧ JsonSyntax.Visible value.render ∧ utf8Len (value.render ++ ['\n']) ≤ 8192 ∧
      value.field "wrapper_exit" = number exit ∧
      (exit = 4 ∨ ∃ receipt, (main system root cli).receipt = some receipt ∧ Justified system cli receipt exit) ∧
      (Libraries.json (String.ofList (value.render ++ ['\n'])).toUTF8.data.toList = .ok value →
        report (main system root cli) = .ok (value.render ++ ['\n'], exit)) := by
  rcases main_reportable system root cli with ⟨receipt, reportable, placed, kept⟩
  rcases encode_ok reportable placed with ⟨encoded, syntactic, fits⟩
  have stopped : ∀ value : Json, value = bounded (main system root cli).result (main system root cli).directory →
      value.field "wrapper_exit" = number 4 ∨ (main system root cli).receipt = some receipt ∧
        value.field "wrapper_exit" = (main system root cli).result.field "wrapper_exit" := by
    rintro _ rfl
    rcases bounded_exit (main system root cli).result (main system root cli).directory with four | same
    · exact .inl four
    · rcases kept with four | there
      · exact .inl (same.trans four)
      · exact .inr ⟨there, same⟩
  rcases stopped _ rfl with four | ⟨there, same⟩
  · exact ⟨_, 4, encoded, syntactic, syntactic.visible, fits, four, .inl rfl, report_ok encoded four (by decide)⟩
  · rcases reportable.wrapper_exit with ⟨exit, shown, justified⟩
    exact ⟨_, exit, encoded, syntactic, syntactic.visible, fits, same.trans shown, .inr ⟨receipt, there, justified⟩,
      report_ok encoded (same.trans shown) justified.bounds⟩

end

end PoolReceipt

import BazelRepo.Coverage.BaselineCoverage
import Mathlib.Data.List.Flatten

namespace Coverage

open Library

theorem utf8_encode (text : String) : utf8 (NativeReport.encode text) = some text := by
  have bytes : (⟨(NativeReport.encode text).toArray⟩ : ByteArray) = text.toUTF8 := by
    rw [NativeReport.encode, Array.toArray_toList]
  unfold utf8 String.fromUTF8?
  rw [bytes, dif_pos (show text.toUTF8.IsValidUTF8 from text.isValidUTF8)]
  rfl

theorem newlines_cons {c : Char} {rest : List Char} (plain : c ≠ '\r') : newlines (c :: rest) = c :: newlines rest := by
  conv_lhs => unfold newlines
  split
  · rename_i same
    cases same
    exact absurd rfl plain
  · rename_i same
    cases same
    exact absurd rfl plain
  · rename_i same
    cases same
    rfl
  · rename_i same
    cases same

theorem newlines_of_free {text : List Char} (free : '\r' ∉ text) : newlines text = text := by
  induction text with
  | nil => rfl
  | cons c rest ih =>
    rw [List.mem_cons, not_or] at free
    rw [newlines_cons (Ne.symm free.1), ih free.2]

theorem newlines_free (text : List Char) : '\r' ∉ newlines text := by
  fun_induction newlines text with
  | case1 rest ih => simpa using ih
  | case2 rest _ ih => simpa using ih
  | case3 c rest _ plain ih =>
    rw [List.mem_cons, not_or]
    exact ⟨fun same => plain same.symm, ih⟩
  | case4 => exact List.not_mem_nil

theorem readText_free {disk : Disk} {path text : String} (read : disk.readText path = .ok text) : '\r' ∉ text.toList := by
  unfold Disk.readText at read
  cases found : disk.readToString path with
  | error error =>
    rw [found] at read
    cases read
  | ok content =>
    rw [found] at read
    cases read
    rw [String.toList_ofList]
    exact newlines_free content.toList

theorem readText_written {disk : Disk} {path : String} {text : List Char}
    (written : disk path = some (NativeReport.encode (String.ofList text))) (free : '\r' ∉ text) :
    disk.readText path = .ok (String.ofList text) := by
  unfold Disk.readText Disk.readToString Disk.read
  rw [written, okOr_some, ok_bind, utf8_encode, okOr_some]
  show Except.ok (String.ofList (newlines (String.ofList text).toList)) = _
  rw [String.toList_ofList, newlines_of_free free]

theorem endOfRecord_ne_nil : endOfRecord ≠ [] := by decide

theorem borderless_endOfRecord : Borderless endOfRecord := by decide

theorem mem_joinRecords {c : Char} {separator trailer : List Char} {records others : List (List Char)}
    (subset : records ⊆ others) (member : c ∈ joinRecords separator records trailer) :
    c ∈ joinRecords separator others trailer := by
  unfold joinRecords at member ⊢
  rcases List.mem_append.mp member with inside | last
  · rcases List.mem_flatMap.mp inside with ⟨record, there, inside⟩
    exact List.mem_append_left _ (List.mem_flatMap.mpr ⟨record, subset there, inside⟩)
  · exact List.mem_append_right _ last

namespace NativeReport

/-- The records of a text and what follows them, none of which has the end of a record in it. -/
structure Records (text : List Char) (records : List (List Char)) (trailer : List Char) : Prop where
  pieces : splitText endOfRecord text = records ++ [trailer]

theorem Records.spec {text trailer : List Char} {records : List (List Char)} (cut : Records text records trailer) :
    text = joinRecords endOfRecord records trailer ∧ (∀ record ∈ records, ¬ endOfRecord <:+: record) ∧
      ¬ endOfRecord <:+: trailer := by
  rcases splitText_spec endOfRecord_ne_nil text with ⟨records', trailer', pieces, joined, free, last⟩
  rw [cut.pieces] at pieces
  rcases List.append_inj' pieces rfl with ⟨rfl, same⟩
  cases same
  exact ⟨joined, free, last⟩

theorem Records.retained {text trailer : List Char} {records : List (List Char)} (cut : Records text records trailer)
    (excluded : Finset String) :
    Records (retainedReport excluded records trailer) (records.filter (keeps excluded)) trailer := by
  rcases cut.spec with ⟨_, free, last⟩
  exact ⟨splitText_joinRecords endOfRecord_ne_nil borderless_endOfRecord
    (fun record member => free record (List.mem_of_mem_filter member)) last⟩

theorem retainedReport_free {text trailer : List Char} {records : List (List Char)} (cut : Records text records trailer)
    (excluded : Finset String) (free : '\r' ∉ text) : '\r' ∉ retainedReport excluded records trailer := by
  intro member
  apply free
  rw [cut.spec.1]
  exact mem_joinRecords List.filter_sublist.subset member

section Writes

variable {faults : Faults} {arguments : Arguments} {disk : Disk}

def Writable (faults : Faults) (root : String) (arguments : Arguments) : Prop :=
  faults (push root arguments.report) = none ∧ ∀ path ∈ arguments.expectedOutput, faults (push root path) = none

theorem write_ok {path text : String} : (Disk.write faults disk path text).1 = .ok () ↔ faults path = none := by
  unfold Disk.write
  cases faults path with
  | none => simp
  | some left => simp

theorem write_disk {path text : String} (writable : faults path = none) :
    Disk.write faults disk path text = (.ok (), Function.update disk path (some (encode text))) := by
  unfold Disk.write
  rw [writable]

/-- What the disk holds after a run: the report, and all but the receipt as before. -/
structure Published (root : String) (arguments : Arguments) (disk disk' : Disk) (text : List Char) : Prop where
  report : disk' (push root arguments.report) = some (encode (String.ofList text))
  others : ∀ path, path ≠ push root arguments.report → (∀ receipt ∈ arguments.expectedOutput, path ≠ push root receipt) →
    disk' path = disk path

theorem publish {root receipt : String} {text : List Char} {result : Result Unit} {disk' : Disk}
    (written : Publication.write faults ⟨arguments.expectedOutput.map fun path => (push root path, receipt),
      (push root arguments.report, String.ofList text)⟩ disk = (result, disk')) :
    (result = .ok () ↔ Writable faults root arguments) ∧ (result = .ok () → Published root arguments disk disk' text) := by
  unfold Publication.write at written
  unfold Writable
  cases expected : arguments.expectedOutput with
  | none =>
    rw [expected] at written
    dsimp only [Option.map_none] at written
    have outcome := @write_ok faults disk (push root arguments.report) (String.ofList text)
    rw [written] at outcome
    constructor
    · rw [outcome]
      simp
    · intro done
      rw [write_disk (outcome.mp done)] at written
      cases written
      exact ⟨Function.update_self _ _ _, fun path apart _ => Function.update_of_ne apart _ _⟩
  | some path =>
    rw [expected] at written
    dsimp only [Option.map_some] at written
    cases blocked : faults (push root path) with
    | some left =>
      have failed : Disk.write faults disk (push root path) receipt =
          (.error (.io (push root path)), Function.update disk (push root path) left) := by
        unfold Disk.write
        rw [blocked]
      rw [failed] at written
      cases written
      simp [blocked]
    | none =>
      rw [write_disk blocked] at written
      dsimp only at written
      have outcome := @write_ok faults (Function.update disk (push root path) (some (encode receipt)))
        (push root arguments.report) (String.ofList text)
      rw [written] at outcome
      constructor
      · rw [outcome]
        simp [blocked]
      · intro done
        rw [write_disk (outcome.mp done)] at written
        cases written
        refine ⟨Function.update_self _ _ _, ?_⟩
        intro other apart receipts
        rw [Function.update_of_ne apart, Function.update_of_ne]
        exact receipts path (by rw [expected]; rfl)

end Writes

section Run

variable [Documents] [Formats] [Evidence] {faults : Faults} {workspace : Workspace} {arguments : Arguments} {disk : Disk}

theorem prepare_eq_ok {publication : Publication} : prepare workspace arguments disk = .ok publication ↔
    ∃ root baseline original records trailer, readInputs workspace arguments disk = .ok (root, baseline) ∧
      disk.readText (push root arguments.report) = .ok original ∧ Records original.toList records trailer ∧
      Passes arguments.language baseline records trailer ∧
      publication = ⟨arguments.expectedOutput.map fun path =>
          (push root path, Documents.receipt ⟨baseline.limits, baseline.expected, baseline.roots⟩ ++ "\n"),
        (push root arguments.report, String.ofList (retainedReport baseline.excluded records trailer))⟩ := by
  unfold prepare
  constructor
  · intro prepared
    rcases bind_eq_ok.mp prepared with ⟨⟨root, baseline⟩, inputs, prepared⟩
    rcases bind_eq_ok.mp prepared with ⟨original, found, prepared⟩
    rcases bind_eq_ok.mp prepared with ⟨retained, filtered, same⟩
    cases same
    rcases filterReport_eq_ok.mp filtered with ⟨records, trailer, pieces, passes, rfl⟩
    exact ⟨root, baseline, original, records, trailer, inputs, found, ⟨pieces⟩, passes, rfl⟩
  · rintro ⟨root, baseline, original, records, trailer, inputs, found, cut, passes, rfl⟩
    rw [inputs, ok_bind]
    dsimp only
    rw [found, ok_bind, filterReport_eq_ok.mpr ⟨records, trailer, cut.pieces, passes, rfl⟩]
    rfl

theorem run_eq_ok {disk' : Disk} (ran : run faults workspace arguments disk = (.ok (), disk')) :
    ∃ root baseline original records trailer, readInputs workspace arguments disk = .ok (root, baseline) ∧
      disk.readText (push root arguments.report) = .ok original ∧ Records original.toList records trailer ∧
      Passes arguments.language baseline records trailer ∧ Writable faults root arguments ∧
      Published root arguments disk disk' (retainedReport baseline.excluded records trailer) := by
  unfold run at ran
  cases prepared : prepare workspace arguments disk with
  | error error =>
    rw [prepared] at ran
    cases ran
  | ok publication =>
    rw [prepared] at ran
    rcases prepare_eq_ok.mp prepared with ⟨root, baseline, original, records, trailer, inputs, found, cut, passes, rfl⟩
    rcases publish ran with ⟨writable, published⟩
    exact ⟨root, baseline, original, records, trailer, inputs, found, cut, passes, writable.mp rfl, published rfl⟩

theorem exists_run_ok {root original : String} {baseline : Baselines} {records : List (List Char)} {trailer : List Char}
    (inputs : readInputs workspace arguments disk = .ok (root, baseline))
    (found : disk.readText (push root arguments.report) = .ok original) (cut : Records original.toList records trailer)
    (passes : Passes arguments.language baseline records trailer) (writable : Writable faults root arguments) :
    ∃ disk', run faults workspace arguments disk = (.ok (), disk') := by
  have prepared := prepare_eq_ok.mpr ⟨root, baseline, original, records, trailer, inputs, found, cut, passes, rfl⟩
  unfold run
  rw [prepared]
  dsimp only
  have outcome := publish (Prod.mk.eta (p := Publication.write faults ⟨arguments.expectedOutput.map fun path =>
      (push root path, Documents.receipt ⟨baseline.limits, baseline.expected, baseline.roots⟩ ++ "\n"),
    (push root arguments.report, String.ofList (retainedReport baseline.excluded records trailer))⟩ disk)).symm
  exact ⟨_, Prod.ext (outcome.1.mpr writable) rfl⟩

end Run

/-- The report of a run: in their order the records that are not excluded, each source of the language once and clean, and
among them all that the artifacts of the roots require. -/
structure ExactReport [Documents] (root : String) (arguments : Arguments) (inventory : Inventory)
    (selected : List BaselineArtifacts) (disk disk' : Disk) (records retained : List (List Char)) (trailer : List Char) :
    Prop where
  sourced : ∀ record ∈ records, ∃ name, sourcesOf record = [name]
  exact : ∃ excluded : Finset String,
    (∀ name, name ∈ excluded ↔ Excludes disk inventory arguments.language selected name) ∧
      retained = records.filter (keeps excluded)
  written : disk' (push root arguments.report) = some (encode (String.ofList (joinRecords endOfRecord retained trailer)))
  others : ∀ path, path ≠ push root arguments.report → (∀ receipt ∈ arguments.expectedOutput, path ≠ push root receipt) →
    disk' path = disk path
  once : ∀ name, endsWith name arguments.language.extension = true →
    (retained.filter fun record => decide (sourcesOf record = [name])).length ≤ 1
  clean : ∀ record ∈ retained, ∀ name, sourcesOf record = [name] → endsWith name arguments.language.extension = true →
    CleanRecord (lines record) true
  covered : ∀ artifacts ∈ selected, ∀ record, InArtifacts disk (recordPaths arguments.language artifacts) record →
    ∀ name, sourcesOf record = [name] → ¬ Excludes disk inventory arguments.language selected name →
      ∃ other ∈ retained, sourcesOf other = [name] ∧ lineNumbers (lines record) ⊆ lineNumbers (lines other)

theorem sources_replicate {name : String} : ∀ {records : List (List Char)}, (∀ record ∈ records, sourcesOf record = [name]) →
    records.flatMap sourcesOf = List.replicate records.length name := by
  intro records
  induction records with
  | nil =>
    intro _
    rfl
  | cons record others ih =>
    intro sources
    rw [List.flatMap_cons, sources record List.mem_cons_self, ih fun other member => sources other (List.mem_cons_of_mem _ member)]
    rfl

theorem Acceptable.once {language : Language} {excluded : Finset String} {records : List (List Char)}
    (acceptable : Acceptable language excluded records) {name : String} (native : endsWith name language.extension = true) :
    ((records.filter (keeps excluded)).filter fun record => decide (sourcesOf record = [name])).length ≤ 1 := by
  have part : ((records.filter (keeps excluded)).filter fun record => decide (sourcesOf record = [name])).Sublist
      (records.filter (judged language excluded)) := by
    rw [List.filter_filter]
    apply List.monotone_filter_right
    intro record both
    rw [Bool.and_eq_true, decide_eq_true_eq] at both
    exact (judged_of_source both.1).mpr ⟨(keeps_of_source both.1).mp both.2, native⟩
  have distinct := acceptable.distinct.sublist (part.flatMap sourcesOf)
  rw [sources_replicate fun record member => of_decide_eq_true (List.mem_filter.mp member).2, List.nodup_replicate] at distinct
  exact distinct

section Exactness

variable [Documents] [Formats] [Evidence]

theorem readInputs_eq_ok {workspace : Workspace} {arguments : Arguments} {disk : Disk} {root : String} {baseline : Baselines}
    (read : readInputs workspace arguments disk = .ok (root, baseline)) : workspace.root = .ok root ∧
      ∃ text inventory, disk.readText (push root arguments.inventory) = .ok text ∧ Documents.inventory text = some inventory ∧
        Baselines.read disk inventory (push root arguments.events) root arguments.language = .ok baseline := by
  unfold readInputs at read
  rcases bind_eq_ok.mp read with ⟨root', directory, read⟩
  rcases bind_eq_ok.mp read with ⟨text, found, read⟩
  rcases bind_eq_ok.mp read with ⟨inventory, parsed, read⟩
  rcases bind_eq_ok.mp read with ⟨baseline', baselines, same⟩
  cases same
  exact ⟨directory, text, inventory, found, okOr_eq_ok.mp parsed, baselines⟩

theorem run_invalid (faults : Faults) {workspace : Workspace} {arguments : Arguments} {disk : Disk} {error : ReportError}
    (failed : (run (fun _ => none) workspace arguments disk).1 = .error error) :
    run faults workspace arguments disk = (.error error, disk) := by
  cases prepared : prepare workspace arguments disk with
  | error other =>
    unfold run at failed ⊢
    rw [prepared] at failed ⊢
    cases failed
    rfl
  | ok publication =>
    rcases prepare_eq_ok.mp prepared with ⟨root, baseline, original, records, trailer, inputs, found, cut, passes, _⟩
    rcases exists_run_ok inputs found cut passes (show Writable (fun _ => none) root arguments from ⟨rfl, fun _ _ => rfl⟩) with ⟨disk', ran⟩
    rw [ran] at failed
    cases failed

theorem run_exact (faults : Faults) (workspace : Workspace) (arguments : Arguments) (disk : Disk) :
    (∀ error, (run (fun _ => none) workspace arguments disk).1 = .error error →
      run faults workspace arguments disk = (.error error, disk)) ∧
    ∀ disk', run faults workspace arguments disk = (.ok (), disk') →
      ∃ root text inventory selected original records retained trailer, workspace.root = .ok root ∧
        disk.readText (push root arguments.inventory) = .ok text ∧ Documents.inventory text = some inventory ∧
        Baselines.selected disk inventory (push root arguments.events) root arguments.language = .ok selected ∧
        disk.readText (push root arguments.report) = .ok original ∧
        splitText endOfRecord original.toList = records ++ [trailer] ∧
        ExactReport root arguments inventory selected disk disk' records retained trailer := by
  refine ⟨fun error failed => run_invalid faults failed, ?_⟩
  intro disk' ran
  rcases run_eq_ok ran with ⟨root, baseline, original, records, trailer, inputs, found, cut, passes, _, published⟩
  rcases readInputs_eq_ok inputs with ⟨directory, text, inventory, there, parsed, baselines⟩
  rcases read_eq_ok baselines with ⟨selected, chosen, excluded, required⟩
  refine ⟨root, text, inventory, selected, original, records, records.filter (keeps baseline.excluded), trailer, directory,
    there, parsed, chosen, found, cut.pieces, passes.sourced, ⟨baseline.excluded, excluded, rfl⟩, published.report,
    published.others, fun name native => passes.once native, ?_, ?_⟩
  · intro record member name source native
    rcases List.mem_filter.mp member with ⟨member, kept⟩
    have judged_here := (judged_of_source source).mpr ⟨(keeps_of_source source).mp kept, native⟩
    rcases passes.readable record member judged_here with ⟨_, numbers, _, accepted⟩
    exact (lcovLines_clean accepted).1
  · intro artifacts member record inside name source free
    have apart : name ∉ baseline.excluded := fun dropped => free ((excluded name).mp dropped)
    rcases required artifacts member record inside name source with dropped | ⟨numbers, expected, part⟩
    · exact absurd dropped apart
    · rcases passes.covered name numbers expected with ⟨other, there, _, lines, has, whole⟩
      refine ⟨other, List.mem_filter.mpr ⟨there, (keeps_of_source has.1).mpr apart⟩, has.1, ?_⟩
      rw [← (lcovLines_clean has.2).2]
      exact part.trans whole

end Exactness

/-- Documents that exclude a source of each language and require nothing. -/
abbrev twoExcluded : Documents := ⟨fun _ => some ⟨[], ["old.go", "old.rs"], []⟩, fun _ => none, fun _ => ""⟩

abbrev noEvents : Formats := ⟨fun _ => none, fun _ => none⟩

abbrev noEvidence : Evidence := ⟨fun _ => "", fun text => text, fun _ => none, fun _ => false⟩

def reportDisk (report : String) : Disk := fun path => if path = "/w/report" then some (encode report) else some []

def reportArguments (language : Language) : Arguments := ⟨language, "events", "inventory", "report", none⟩

def reportWorkspace : Workspace := ⟨some "/w", .ok "/"⟩

/-- The line endings of the report that is written are made the same, so its records are not those of the file. -/
theorem line_endings_unified :
    let original := "SF:a.py\r\nend_of_record\r\n"
    let outcome := @run twoExcluded noEvents noEvidence (fun _ => none) reportWorkspace (reportArguments .go) (reportDisk original)
    outcome.1.isOk = true ∧ splitText endOfRecord original.toList = ["SF:a.py\r\n".toList] ++ ["\r\n".toList] ∧
      outcome.2 "/w/report" ≠ some (encode (String.ofList (joinRecords endOfRecord ["SF:a.py\r\n".toList] "\r\n".toList))) := by
  decide +kernel

end NativeReport

end Coverage

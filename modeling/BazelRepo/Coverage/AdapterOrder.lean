import BazelRepo.Coverage.NativeRun

namespace Coverage

open Library

namespace NativeReport

def runBoth [Documents] [Formats] [Evidence] (faults : Faults) (workspace : Workspace) (first second : Arguments) (disk : Disk) :
    Result Unit × Disk :=
  match run faults workspace first disk with
  | (.ok (), disk) => run faults workspace second disk
  | (.error error, disk) => (.error error, disk)

theorem passes_filter {language : Language} {baseline : Baselines} {records : List (List Char)} {trailer : List Char}
    {dropped : Finset String} (sourced : ∀ record ∈ records, ∃ name, sourcesOf record = [name])
    (apart : ∀ record ∈ records, judged language baseline.excluded record = true → keeps dropped record = true) :
    Passes language baseline (records.filter (keeps dropped)) trailer ↔
      records.filter (keeps dropped) ≠ [] ∧ Passes language baseline records trailer := by
  have same : (records.filter (keeps dropped)).filter (judged language baseline.excluded) =
      records.filter (judged language baseline.excluded) := by
    rw [List.filter_filter]
    apply List.filter_congr
    intro record member
    cases judged_here : judged language baseline.excluded record with
    | false => rfl
    | true => rw [apart record member judged_here, Bool.true_and]
  constructor
  · intro passes
    have nonempty : records ≠ [] := by
      rintro rfl
      exact passes.nonempty rfl
    have distinct := passes.distinct
    rw [same] at distinct
    refine ⟨passes.nonempty, ⟨sourced, ?_, distinct⟩, nonempty, passes.blank, ?_⟩
    · intro record member judged_here
      exact passes.readable record (List.mem_filter.mpr ⟨member, apart record member judged_here⟩) judged_here
    · intro name numbers expected
      rcases passes.covered name numbers expected with ⟨record, member, rest⟩
      exact ⟨record, List.mem_of_mem_filter member, rest⟩
  · rintro ⟨nonempty, passes⟩
    refine ⟨⟨?_, ?_, ?_⟩, nonempty, passes.blank, ?_⟩
    · intro record member
      exact sourced record (List.mem_of_mem_filter member)
    · intro record member judged_here
      exact passes.readable record (List.mem_of_mem_filter member) judged_here
    · rw [same]
      exact passes.distinct
    · intro name numbers expected
      rcases passes.covered name numbers expected with ⟨record, member, judged_here, rest⟩
      exact ⟨record, List.mem_filter.mpr ⟨member, apart record member judged_here⟩, judged_here, rest⟩

theorem keeps_foreign {language : Language} {excluded dropped : Finset String} {record : List Char}
    (source : ∃ name, sourcesOf record = [name]) (foreign : ∀ name ∈ dropped, endsWith name language.extension = false)
    (judged_here : judged language excluded record = true) : keeps dropped record = true := by
  rcases source with ⟨name, source⟩
  rw [keeps_of_source source]
  intro member
  have native := ((judged_of_source source).mp judged_here).2
  rw [foreign name member] at native
  cases native

theorem endsWith_other {name ending other : String} (ends : endsWith name ending = true) (apart : ending.toList ≠ other.toList)
    (length : ending.toList.length = other.toList.length) : endsWith name other = false := by
  apply decide_eq_false
  intro both
  exact apart ((List.suffix_of_suffix_length_le (of_decide_eq_true ends) both length.le).eq_of_length length)

section Order

variable [Documents] [Formats] [Evidence] (faults : Faults) (workspace : Workspace)

structure Ran (arguments : Arguments) (disk : Disk) (root : String) (baseline : Baselines) (records : List (List Char))
    (trailer : List Char) : Prop where
  inputs : readInputs workspace arguments disk = .ok (root, baseline)
  found : ∃ original, disk.readText (push root arguments.report) = .ok original ∧ Records original.toList records trailer
  passes : Passes arguments.language baseline records trailer
  writable : Writable faults root arguments

/-- What the evidence of an adapter comes to does not depend on what some adapters write. -/
def Steady (writers : List Arguments) (arguments : Arguments) (disk : Disk) : Prop :=
  ∀ root, workspace.root = .ok root → ∀ disk', (∀ path, (∀ writer ∈ writers, path ≠ push root writer.report ∧
    ∀ receipt ∈ writer.expectedOutput, path ≠ push root receipt) → disk' path = disk path) →
      readInputs workspace arguments disk' = readInputs workspace arguments disk

def Leaves (arguments : Arguments) (disk : Disk) : Prop :=
  ∀ root baseline original, readInputs workspace arguments disk = .ok (root, baseline) →
    disk.readText (push root arguments.report) = .ok original →
      ∃ record ∈ (splitText endOfRecord original.toList).dropLast, keeps baseline.excluded record = true

variable {faults workspace} {first second : Arguments} {disk disk' : Disk}

theorem exists_ran : (∃ disk', run faults workspace first disk = (.ok (), disk')) ↔
    ∃ root baseline records trailer, Ran faults workspace first disk root baseline records trailer := by
  constructor
  · rintro ⟨disk', ran⟩
    rcases run_eq_ok ran with ⟨root, baseline, original, records, trailer, inputs, found, cut, passes, writable, _⟩
    exact ⟨root, baseline, records, trailer, inputs, ⟨original, found, cut⟩, passes, writable⟩
  · rintro ⟨root, baseline, records, trailer, inputs, ⟨original, found, cut⟩, passes, writable⟩
    exact exists_run_ok inputs found cut passes writable

theorem Ran.kept {root : String} {baseline : Baselines} {records : List (List Char)} {trailer : List Char}
    (ran : Ran faults workspace first disk root baseline records trailer) (leaves : Leaves workspace first disk) :
    records.filter (keeps baseline.excluded) ≠ [] := by
  rcases ran.found with ⟨original, found, cut⟩
  rcases leaves root baseline original ran.inputs found with ⟨record, member, kept⟩
  rw [cut.pieces, List.dropLast_concat] at member
  exact List.ne_nil_of_mem (List.mem_filter.mpr ⟨member, kept⟩)

theorem after_run (ran : run faults workspace first disk = (.ok (), disk')) (sameReport : second.report = first.report)
    {writers : List Arguments} (writer : first ∈ writers) (steady : Steady workspace writers second disk) :
    ∃ root baseline records trailer, Ran faults workspace first disk root baseline records trailer ∧
      disk' (push root first.report) = some (encode (String.ofList (retainedReport baseline.excluded records trailer))) ∧
      readInputs workspace second disk' = readInputs workspace second disk ∧
      ∃ text, disk'.readText (push root second.report) = .ok text ∧
        Records text.toList (records.filter (keeps baseline.excluded)) trailer := by
  rcases run_eq_ok ran with ⟨root, baseline, original, records, trailer, inputs, found, cut, passes, writable, published⟩
  refine ⟨root, baseline, records, trailer, ⟨inputs, ⟨original, found, cut⟩, passes, writable⟩, published.report, ?_,
    String.ofList (retainedReport baseline.excluded records trailer), ?_, ?_⟩
  · apply steady root (readInputs_eq_ok inputs).1
    intro path untouched
    rcases untouched first writer with ⟨apart, receipts⟩
    exact published.others path apart receipts
  · rw [sameReport]
    exact readText_written published.report (retainedReport_free cut baseline.excluded (readText_free found))
  · rw [String.toList_ofList]
    exact cut.retained baseline.excluded

theorem Ran.same {root root' : String} {baseline baseline' : Baselines} {records records' : List (List Char)}
    {trailer trailer' : List Char} (left : Ran faults workspace first disk root baseline records trailer)
    (right : Ran faults workspace second disk root' baseline' records' trailer') (sameReport : second.report = first.report) :
    root' = root ∧ records' = records ∧ trailer' = trailer := by
  have directory := (readInputs_eq_ok left.inputs).1
  rw [(readInputs_eq_ok right.inputs).1] at directory
  cases directory
  rcases left.found with ⟨original, found, cut⟩
  rcases right.found with ⟨original', found', cut'⟩
  rw [sameReport, found] at found'
  cases found'
  have pieces := cut.pieces
  rw [cut'.pieces] at pieces
  rcases List.append_inj' pieces rfl with ⟨rfl, same⟩
  cases same
  exact ⟨rfl, rfl, rfl⟩

/-- One adapter after another one: each comes through on the report as it was, and the first one leaves a record of it. -/
theorem runBoth_iff (sameReport : second.report = first.report) {writers : List Arguments} (writer : first ∈ writers)
    (steady : Steady workspace writers second disk)
    (apart : ∀ root root' baseline baseline', readInputs workspace first disk = .ok (root, baseline) →
      readInputs workspace second disk = .ok (root', baseline') → ∀ record, (∃ name, sourcesOf record = [name]) →
        judged second.language baseline'.excluded record = true → keeps baseline.excluded record = true) :
    (runBoth faults workspace first second disk).1 = .ok () ↔ ∃ root baseline baseline' records trailer,
      Ran faults workspace first disk root baseline records trailer ∧
        Ran faults workspace second disk root baseline' records trailer ∧ records.filter (keeps baseline.excluded) ≠ [] := by
  unfold runBoth
  constructor
  · intro both
    split at both
    · rename_i next ran
      rcases after_run ran sameReport writer steady with ⟨root, baseline, records, trailer, earlier, _, inputs, text, found, cut⟩
      rcases exists_ran.mp ⟨_, Prod.ext both rfl⟩ with ⟨root', baseline', records', trailer', later⟩
      have inputs' := later.inputs
      rw [inputs] at inputs'
      have directory := (readInputs_eq_ok inputs').1
      rw [(readInputs_eq_ok earlier.inputs).1] at directory
      cases directory
      rcases later.found with ⟨text', found', cut'⟩
      rw [found] at found'
      cases found'
      have pieces := cut.pieces
      rw [cut'.pieces] at pieces
      rcases List.append_inj' pieces rfl with ⟨rfl, same⟩
      cases same
      have passes := (passes_filter earlier.passes.sourced fun record member =>
        apart _ _ _ _ earlier.inputs inputs' record (earlier.passes.sourced record member)).mp later.passes
      refine ⟨root, baseline, baseline', records, trailer, earlier, ⟨inputs', ?_, passes.2, later.writable⟩, passes.1⟩
      rw [sameReport]
      exact earlier.found
    · cases both
  · rintro ⟨root, baseline, baseline', records, trailer, earlier, later, nonempty⟩
    rcases exists_ran.mpr ⟨root, baseline, records, trailer, earlier⟩ with ⟨next, ran⟩
    rw [ran]
    dsimp only
    rcases after_run ran sameReport writer steady with ⟨root₂, baseline₂, records₂, trailer₂, again, _, inputs, text, found, cut⟩
    rcases earlier.same again rfl with ⟨rfl, rfl, rfl⟩
    have inputs₂ := again.inputs
    rw [earlier.inputs] at inputs₂
    cases inputs₂
    have passes := (passes_filter earlier.passes.sourced fun record member =>
      apart _ _ _ _ earlier.inputs later.inputs record (earlier.passes.sourced record member)).mpr ⟨nonempty, later.passes⟩
    have through : Ran faults workspace second next root₂ baseline' (records₂.filter (keeps baseline.excluded)) trailer₂ :=
      ⟨inputs.trans later.inputs, ⟨text, found, cut⟩, passes, later.writable⟩
    rcases exists_ran.mpr ⟨_, _, _, _, through⟩ with ⟨last, done⟩
    rw [done]

theorem runBoth_report (sameReport : second.report = first.report) {writers : List Arguments} (writer : first ∈ writers)
    (steady : Steady workspace writers second disk) (both : (runBoth faults workspace first second disk).1 = .ok ())
    {root : String} {baseline baseline' : Baselines} {records : List (List Char)} {trailer : List Char}
    (earlier : Ran faults workspace first disk root baseline records trailer)
    (later : Ran faults workspace second disk root baseline' records trailer) :
    (runBoth faults workspace first second disk).2 (push root first.report) = some (encode (String.ofList
      (retainedReport baseline'.excluded (records.filter (keeps baseline.excluded)) trailer))) := by
  unfold runBoth at both ⊢
  rcases exists_ran.mpr ⟨root, baseline, records, trailer, earlier⟩ with ⟨next, ran⟩
  rw [ran] at both ⊢
  dsimp only at both ⊢
  rcases after_run ran sameReport writer steady with ⟨root₂, baseline₂, records₂, trailer₂, again, _, inputs, text, found, cut⟩
  rcases earlier.same again rfl with ⟨rfl, rfl, rfl⟩
  have inputs₂ := again.inputs
  rw [earlier.inputs] at inputs₂
  cases inputs₂
  rcases run_eq_ok (Prod.ext both rfl : run faults workspace second next = (.ok (), _))
    with ⟨root₃, baseline₃, original, records₃, trailer₃, inputs₃, found₃, cut₃, _, _, published⟩
  rw [inputs, later.inputs] at inputs₃
  cases inputs₃
  rw [found] at found₃
  cases found₃
  have pieces := cut.pieces
  rw [cut₃.pieces] at pieces
  rcases List.append_inj' pieces rfl with ⟨rfl, same⟩
  cases same
  rw [← sameReport]
  exact published.report

theorem go_excludes {root : String} {baseline : Baselines} (isGo : first.language = .go)
    (inputs : readInputs workspace first disk = .ok (root, baseline)) {name : String} (member : name ∈ baseline.excluded) :
    endsWith name Language.go.extension = true := by
  rcases (readInputs_eq_ok inputs).2 with ⟨text, inventory, _, _, baselines⟩
  rcases read_eq_ok baselines with ⟨selected, _, excluded, _⟩
  rcases (excluded name).mp member with ⟨_, native⟩ | ⟨isRust, _⟩
  · rwa [isGo] at native
  · rw [isGo] at isRust
    cases isRust

theorem run_again {writers : List Arguments} (writer : first ∈ writers) (steady : Steady workspace writers first disk) (leaves : Leaves workspace first disk)
    (ran : run faults workspace first disk = (.ok (), disk')) : ∃ last, run faults workspace first disk' = (.ok (), last) ∧
      ∀ root, workspace.root = .ok root → last (push root first.report) = disk' (push root first.report) := by
  rcases after_run ran rfl writer steady with ⟨root, baseline, records, trailer, earlier, report, _⟩
  have both : (runBoth faults workspace first first disk).1 = .ok () := by
    apply (runBoth_iff rfl writer steady ?_).mpr
    · exact ⟨root, baseline, baseline, records, trailer, earlier, earlier, earlier.kept leaves⟩
    · intro root₁ root₂ baseline₁ baseline₂ left right record _ judged_here
      rw [left] at right
      cases right
      exact (Bool.and_eq_true_iff.mp judged_here).1
  have final := runBoth_report rfl writer steady both earlier earlier
  unfold runBoth at both final
  rw [ran] at both final
  refine ⟨_, Prod.ext both rfl, ?_⟩
  intro root' directory
  rw [(readInputs_eq_ok earlier.inputs).1] at directory
  cases directory
  rw [report]
  apply final.trans
  unfold retainedReport
  rw [List.filter_filter]
  simp only [Bool.and_self]

/-- Two adapters that each leave a record of the report come to the same in either order, and each of them to the same again. -/
theorem adapters_compose (faults : Faults) (workspace : Workspace) (go rust : Arguments) (disk : Disk)
    (isGo : go.language = .go) (isRust : rust.language = .rust) (sameReport : rust.report = go.report)
    (steadyGo : Steady workspace [go, rust] go disk) (steadyRust : Steady workspace [go, rust] rust disk)
    (rustSources : ∀ root baseline, readInputs workspace rust disk = .ok (root, baseline) →
      ∀ name ∈ baseline.excluded, endsWith name Language.rust.extension = true)
    (goLeaves : Leaves workspace go disk) (rustLeaves : Leaves workspace rust disk) :
    ((runBoth faults workspace go rust disk).1 = .ok () ↔ (runBoth faults workspace rust go disk).1 = .ok ()) ∧
    ((runBoth faults workspace go rust disk).1 = .ok () → ∀ root, workspace.root = .ok root →
      (runBoth faults workspace go rust disk).2 (push root go.report) =
        (runBoth faults workspace rust go disk).2 (push root go.report)) ∧
    ∀ arguments ∈ [go, rust], ∀ next, run faults workspace arguments disk = (.ok (), next) →
      ∃ last, run faults workspace arguments next = (.ok (), last) ∧
        ∀ root, workspace.root = .ok root → last (push root arguments.report) = next (push root arguments.report) := by
  have goFirst := @runBoth_iff _ _ _ faults _ _ _ _ sameReport _ List.mem_cons_self steadyRust (by
    intro root root' baseline baseline' left right record source judged_here
    apply keeps_foreign source _ judged_here
    intro name member
    rw [isRust]
    exact endsWith_other (go_excludes isGo left member) (by decide) rfl)
  have rustFirst := @runBoth_iff _ _ _ faults _ _ _ _ sameReport.symm _ (List.mem_cons_of_mem _ List.mem_cons_self) steadyGo (by
    intro root root' baseline baseline' left right record source judged_here
    apply keeps_foreign source _ judged_here
    intro name member
    rw [isGo]
    exact endsWith_other (rustSources root baseline left name member) (by decide) rfl)
  have orders : (runBoth faults workspace go rust disk).1 = .ok () ↔ (runBoth faults workspace rust go disk).1 = .ok () := by
    rw [goFirst, rustFirst]
    constructor
    · rintro ⟨root, baseline, baseline', records, trailer, earlier, later, _⟩
      exact ⟨root, baseline', baseline, records, trailer, later, earlier, later.kept rustLeaves⟩
    · rintro ⟨root, baseline, baseline', records, trailer, earlier, later, _⟩
      exact ⟨root, baseline', baseline, records, trailer, later, earlier, later.kept goLeaves⟩
  refine ⟨orders, ?_, ?_⟩
  · intro both root directory
    rcases goFirst.mp both with ⟨root', baseline, baseline', records, trailer, earlier, later, _⟩
    rw [(readInputs_eq_ok earlier.inputs).1] at directory
    cases directory
    rw [runBoth_report sameReport List.mem_cons_self steadyRust both earlier later, ← sameReport,
      runBoth_report sameReport.symm (List.mem_cons_of_mem _ List.mem_cons_self) steadyGo (orders.mp both) later earlier]
    unfold retainedReport
    rw [List.filter_filter, List.filter_filter]
    simp only [Bool.and_comm]
  · intro arguments member next ran
    rcases List.mem_cons.mp member with rfl | member
    · exact run_again List.mem_cons_self steadyGo goLeaves ran
    · rw [List.mem_singleton.mp member] at ran ⊢
      exact run_again (List.mem_cons_of_mem _ List.mem_cons_self) steadyRust rustLeaves ran

end Order

/-- An adapter that drops the only record leaves a report that the other one rejects, and so does a second run of it. -/
theorem nothing_left_rejected :
    let go := @run twoExcluded noEvents noEvidence (fun _ => none) reportWorkspace (reportArguments .go)
    let both := @runBoth twoExcluded noEvents noEvidence (fun _ => none) reportWorkspace
    let disk := reportDisk "SF:old.go\nend_of_record\n"
    (both (reportArguments .go) (reportArguments .rust) disk).1.isOk = false ∧
      (both (reportArguments .rust) (reportArguments .go) disk).1.isOk = true ∧
      (go disk).1.isOk = true ∧ (go (go disk).2).1.isOk = false := by
  decide +kernel

theorem readInputs_twoExcluded {language : Language} {disk : Disk} (inventory : disk "/w/inventory" = some [])
    (events : disk "/w/events" = some []) :
    @readInputs twoExcluded noEvents noEvidence reportWorkspace (reportArguments language) disk =
      .ok ("/w", @Baselines.initial ⟨[], ["old.go", "old.rs"], []⟩ language) := by
  have inventoryPath : push "/w" (reportArguments language).inventory = "/w/inventory" := (by decide +kernel : push "/w" "inventory" = "/w/inventory")
  have eventsPath : push "/w" (reportArguments language).events = "/w/events" := (by decide +kernel : push "/w" "events" = "/w/events")
  have inventoryText : disk.readText "/w/inventory" = .ok "" := @readText_written _ _ [] inventory nofun
  have eventsText : disk.readText "/w/events" = .ok "" := @readText_written _ _ [] events nofun
  have root : reportWorkspace.root = .ok "/w" := rfl
  unfold readInputs
  rw [root, ok_bind, inventoryPath, inventoryText, ok_bind, eventsPath]
  rw [show okOr (@Documents.inventory twoExcluded "") ReportError.json = .ok ⟨[], ["old.go", "old.rs"], []⟩ from rfl, ok_bind]
  have parsed : @BuildEvents.parse noEvents "" = .ok ⟨[], ∅⟩ := rfl
  have none_selected : ∀ groupName family policy,
      @BuildEvents.baselines noEvidence ⟨[], ∅⟩ disk groupName "/w" family policy ∅ = .ok [] := by
    intro groupName family policy
    unfold BuildEvents.baselines
    simp
  have no_roots : (Baselines.initial ⟨[], ["old.go", "old.rs"], []⟩ language).roots = ∅ := rfl
  have settled : Baselines.settle language (Baselines.initial ⟨[], ["old.go", "old.rs"], []⟩ language) =
      Baselines.initial ⟨[], ["old.go", "old.rs"], []⟩ language := by
    cases language with
    | rust =>
      have empty : ∀ keep : String → Finset Natural → Bool,
          (∅ : BTreeMap String (Finset Natural)).filter keep = ∅ := by
        intro keep
        apply Std.ExtTreeMap.ext_getElem?
        simp
      simp [Baselines.settle, Baselines.initial, empty]
    | go => rfl
  have same : (reportArguments language).language = language := rfl
  unfold Baselines.read Baselines.selected
  rw [eventsText, ok_bind, parsed, ok_bind, same, no_roots, none_selected, ok_bind, List.foldlM_nil]
  show Except.ok ("/w", Baselines.settle language _) = _
  rw [settled]

theorem steady_twoExcluded {language : Language} (report : String) :
    @Steady twoExcluded noEvents noEvidence reportWorkspace [reportArguments .go, reportArguments .rust]
      (reportArguments language) (reportDisk report) := by
  intro root directory disk' untouched
  cases directory
  rw [@readInputs_twoExcluded _ disk', readInputs_twoExcluded]
  · rfl
  · rfl
  · rw [untouched]
    · rfl
    · decide
  · rw [untouched]
    · rfl
    · decide

def threeRecords : String :=
  "SF:old.go\nend_of_record\nSF:new.go\nDA:1,0\nLF:1\nLH:0\nend_of_record\nSF:new.rs\nDA:3,2\nLF:1\nLH:1\nend_of_record\n"

theorem leaves_threeRecords {language : Language} :
    @Leaves twoExcluded noEvents noEvidence reportWorkspace (reportArguments language) (reportDisk threeRecords) := by
  intro root baseline original inputs found
  rw [readInputs_twoExcluded rfl rfl] at inputs
  cases inputs
  have path : push "/w" (reportArguments language).report = "/w/report" := (by decide +kernel : push "/w" "report" = "/w/report")
  have text : (reportDisk threeRecords).readText "/w/report" = .ok threeRecords := by decide +kernel
  rw [path, text] at found
  cases found
  cases language <;> decide +kernel

theorem adapters_compose_here : (@runBoth twoExcluded noEvents noEvidence (fun _ => none) reportWorkspace (reportArguments .go)
      (reportArguments .rust) (reportDisk threeRecords)).1 = .ok () ↔
    (@runBoth twoExcluded noEvents noEvidence (fun _ => none) reportWorkspace (reportArguments .rust)
      (reportArguments .go) (reportDisk threeRecords)).1 = .ok () := by
  apply (@adapters_compose twoExcluded noEvents noEvidence (fun _ => none) reportWorkspace (reportArguments .go)
    (reportArguments .rust) (reportDisk threeRecords) rfl rfl rfl (steady_twoExcluded _) (steady_twoExcluded _) ?_
    leaves_threeRecords leaves_threeRecords).1
  intro root baseline inputs name member
  rw [readInputs_twoExcluded rfl rfl] at inputs
  cases inputs
  exact (by decide : ∀ name ∈ (Baselines.initial ⟨[], ["old.go", "old.rs"], []⟩ .rust).excluded,
    endsWith name Language.rust.extension = true) name member

end NativeReport

end Coverage

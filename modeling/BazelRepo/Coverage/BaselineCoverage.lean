import BazelRepo.Coverage.ReportFilter

namespace Coverage

open Library

namespace NativeReport

structure Below (baseline later : Baselines) : Prop where
  excluded : baseline.excluded ⊆ later.excluded
  expected : ∀ (name : String) (numbers : Finset Natural), baseline.expected[name]? = some numbers →
    ∃ more, later.expected[name]? = some more ∧ numbers ⊆ more

theorem Below.refl (baseline : Baselines) : Below baseline baseline :=
  ⟨Finset.Subset.refl _, fun _ numbers found => ⟨numbers, found, Finset.Subset.refl _⟩⟩

theorem Below.trans {first second third : Baselines} (below : Below first second) (above : Below second third) :
    Below first third := by
  refine ⟨below.excluded.trans above.excluded, ?_⟩
  intro name numbers found
  rcases below.expected name numbers found with ⟨more, found, inside⟩
  rcases above.expected name more found with ⟨most, found, further⟩
  exact ⟨most, found, inside.trans further⟩

/-- The source of a record is excluded or has the lines of the record among its expected ones. -/
def Requires (baseline : Baselines) (record : List Char) : Prop :=
  ∀ name, sourcesOf record = [name] →
    name ∈ baseline.excluded ∨ ∃ numbers, baseline.expected[name]? = some numbers ∧ lineNumbers (lines record) ⊆ numbers

theorem Requires.later {baseline later : Baselines} {record : List Char} (required : Requires baseline record)
    (below : Below baseline later) : Requires later record := by
  intro name source
  rcases required name source with dropped | ⟨numbers, found, inside⟩
  · exact .inl (below.excluded dropped)
  · rcases below.expected name numbers found with ⟨more, found, further⟩
    exact .inr ⟨more, found, inside.trans further⟩

theorem below_require (baseline : Baselines) (name : String) (numbers : Finset Natural) :
    Below baseline (baseline.require name numbers) := by
  refine ⟨Finset.Subset.refl _, ?_⟩
  intro other lines found
  show ∃ more, (baseline.expected.insert name _)[other]? = some more ∧ lines ⊆ more
  rw [BTreeMap.getElem?_insert_eq]
  by_cases same : other = name
  · subst same
    rw [if_pos rfl, found]
    exact ⟨_, rfl, Finset.subset_union_left⟩
  · rw [if_neg same]
    exact ⟨lines, found, Finset.Subset.refl _⟩

theorem require_requires {baseline : Baselines} {record : List Char} {name : String}
    (source : sourcesOf record = [name]) : Requires (baseline.require name (lineNumbers (lines record))) record := by
  intro other named
  rw [source] at named
  cases named
  right
  show ∃ numbers, (baseline.expected.insert name _)[name]? = some numbers ∧ _ ⊆ numbers
  rw [BTreeMap.getElem?_insert_eq, if_pos rfl]
  exact ⟨_, rfl, Finset.subset_union_right⟩

/-- What reading a part of the artifacts does to what is required, while nothing becomes excluded. -/
structure Reading (baseline later : Baselines) (records : List (List Char)) : Prop extends Below baseline later where
  same : later.excluded = baseline.excluded
  required : ∀ record ∈ records, Requires later record

theorem Reading.trans {first second third : Baselines} {records others : List (List Char)} (earlier : Reading first second records)
    (later : Reading second third others) : Reading first third (records ++ others) := by
  refine ⟨earlier.toBelow.trans later.toBelow, later.same.trans earlier.same, ?_⟩
  intro record member
  rcases List.mem_append.mp member with before | after
  · exact (earlier.required record before).later later.toBelow
  · exact later.required record after

theorem Reading.refl (baseline : Baselines) : Reading baseline baseline [] :=
  ⟨Below.refl baseline, rfl, nofun⟩

section Artifacts

variable {language : Language} {label path : String} {metadata : Option (String × RustObject)}

theorem readRecord_reading {baseline later : Baselines} {mapped mapped' : Finset String} {record : List Char}
    (read : Baselines.readRecord language path label metadata (baseline, mapped) record = .ok (later, mapped')) :
    Reading baseline later [record] := by
  unfold Baselines.readRecord at read
  dsimp only at read
  split at read
  · rename_i name source
    split at read
    · cases read
    · split at read
      · rename_i skipped
        cases read
        refine ⟨Below.refl baseline, rfl, ?_⟩
        intro other member
        rw [List.mem_singleton.mp member]
        intro named same
        rw [source] at same
        cases same
        exact .inl skipped.2
      · rcases bind_eq_ok.mp read with ⟨numbers, numbered, read⟩
        rcases bind_eq_ok.mp read with ⟨limits, _, read⟩
        cases read
        rw [(lcovLines_clean numbered).2]
        split
        · rename_i dropped
          refine ⟨⟨Finset.Subset.refl _, (Below.refl baseline).expected⟩, rfl, ?_⟩
          intro other member
          rw [List.mem_singleton.mp member]
          intro named same
          rw [source] at same
          cases same
          exact .inl dropped
        · refine ⟨⟨Finset.Subset.refl _, (below_require baseline name _).expected⟩, rfl, ?_⟩
          intro other member
          rw [List.mem_singleton.mp member]
          exact require_requires source
  · cases read

theorem readRecords_reading {records : List (List Char)} {state later : Baselines × Finset String}
    (read : records.foldlM (Baselines.readRecord language path label metadata) state = .ok later) :
    Reading state.1 later.1 records := by
  have added : ∀ done record rest before after, records = done ++ record :: rest → Reading state.1 before.1 done →
      Baselines.readRecord language path label metadata before record = .ok after →
        Reading state.1 after.1 (done ++ [record]) :=
    fun _ _ _ _ _ _ reading step => reading.trans (readRecord_reading step)
  have kept := foldlM_prefix (P := fun done (state' : Baselines × Finset String) => Reading state.1 state'.1 done)
    (Reading.refl _) added
  exact kept.1 later read

def artifactRecords (text : String) : List (List Char) := (splitText endOfRecord text.toList).dropLast

theorem artifactRecords_blank {text : String} (blank : trim text = "") : artifactRecords text = [] := by
  have free : ¬ endOfRecord <:+: text.toList := by
    intro inside
    have there : 'e' ∈ text.toList := inside.subset (by decide)
    have nothing : ((text.toList.dropWhile isWhiteSpace).reverse.dropWhile isWhiteSpace).reverse = [] := by
      rw [← String.toList_ofList (l := List.reverse _)]
      exact congrArg String.toList blank
    exact absurd (trimmed_eq_nil.mp nothing 'e' there) (by decide)
  rw [artifactRecords, splitText_eq_singleton free]
  rfl

theorem readArtifact_reading {disk : Disk} {state later : Baselines × Finset String}
    (read : Baselines.readArtifact disk language label metadata state path = .ok later) :
    ∃ text, disk.readText path = .ok text ∧ Reading state.1 later.1 (artifactRecords text) := by
  unfold Baselines.readArtifact at read
  rcases bind_eq_ok.mp read with ⟨text, found, read⟩
  refine ⟨text, found, ?_⟩
  dsimp only at read
  split at read
  · rename_i blank
    split at read
    · cases read
    · cases read
      rw [artifactRecords_blank blank]
      exact Reading.refl _
  · split at read
    · cases read
    · rcases bind_eq_ok.mp read with ⟨⟨records, trailer⟩, cut, read⟩
      rw [artifactRecords, (recordsOf_eq_ok.mp cut).1, List.dropLast_concat]
      exact readRecords_reading read

def InArtifacts (disk : Disk) (paths : List String) (record : List Char) : Prop :=
  ∃ path ∈ paths, ∃ text, disk.readText path = .ok text ∧ record ∈ artifactRecords text

structure ReadingAll (disk : Disk) (paths : List String) (baseline later : Baselines) : Prop extends Below baseline later where
  same : later.excluded = baseline.excluded
  required : ∀ record, InArtifacts disk paths record → Requires later record

theorem foldlM_readArtifact {disk : Disk} {paths : List String} {state later : Baselines × Finset String}
    (read : paths.foldlM (Baselines.readArtifact disk language label metadata) state = .ok later) :
    ReadingAll disk paths state.1 later.1 := by
  have added : ∀ done path rest before after, paths = done ++ path :: rest → ReadingAll disk done state.1 before.1 →
      Baselines.readArtifact disk language label metadata before path = .ok after →
        ReadingAll disk (done ++ [path]) state.1 after.1 := by
    intro done path rest before after _ readings step
    rcases readArtifact_reading step with ⟨text, found, reading⟩
    refine ⟨readings.toBelow.trans reading.toBelow, reading.same.trans readings.same, ?_⟩
    rintro record ⟨other, member, content, read_there, there⟩
    rcases List.mem_append.mp member with earlier | latest
    · exact (readings.required record ⟨other, earlier, content, read_there, there⟩).later reading.toBelow
    · rw [List.mem_singleton.mp latest, found] at read_there
      cases read_there
      exact reading.required record there
  have kept := foldlM_prefix (P := fun done (state' : Baselines × Finset String) => ReadingAll disk done state.1 state'.1)
    ⟨Below.refl _, rfl, nofun⟩ added
  exact kept.1 later read

end Artifacts

def recordPaths (language : Language) (artifacts : BaselineArtifacts) : List String :=
  match language with
  | .rust => artifacts.paths.filter fun path => decide (pathExtension path = some "lcov")
  | .go => artifacts.paths

def Generated [Documents] (disk : Disk) (artifacts : BaselineArtifacts) (name : String) : Prop :=
  ∃ path ∈ artifacts.paths, pathExtension path = some "json" ∧
    ∃ data, RustObject.read disk path = .ok data ∧ name ∈ data.generatedSources

/-- A source that the inventory excludes from a language or that the evidence of any object there declares to be generated. -/
def Excludes [Documents] (disk : Disk) (inventory : Inventory) (language : Language) (selected : List BaselineArtifacts)
    (name : String) : Prop :=
  (name ∈ inventory.excluded ∧ endsWith name language.extension = true) ∨
    (language = .rust ∧ ∃ artifacts ∈ selected, Generated disk artifacts name)

section Rules

variable [Documents] {disk : Disk} {inventory : Inventory} {language : Language}

theorem rustMetadata_eq_ok {baseline later : Baselines} {label path : String} {paths artifacts : List String} {data : RustObject}
    (read : baseline.rustMetadata disk label paths = .ok (later, artifacts, path, data)) :
    Below baseline later ∧ artifacts = paths.filter (fun path => decide (pathExtension path = some "lcov")) ∧
      ∀ name, name ∈ later.excluded ↔ name ∈ baseline.excluded ∨ Generated disk ⟨⟨label, none, none⟩, paths⟩ name := by
  unfold Baselines.rustMetadata at read
  split at read
  · rename_i only found
    rcases bind_eq_ok.mp read with ⟨object, evidence, read⟩
    dsimp only at read
    split at read
    · cases read
    · cases read
      refine ⟨⟨Finset.subset_union_left, (Below.refl baseline).expected⟩, rfl, ?_⟩
      intro name
      rw [Finset.mem_union, List.mem_toFinset]
      apply or_congr Iff.rfl
      have there : ∀ other, other ∈ paths ∧ pathExtension other = some "json" ↔ other = path := by
        intro other
        have listed := congrArg (other ∈ ·) found
        simpa using listed
      constructor
      · intro generated
        rcases (there path).mpr rfl with ⟨member, json⟩
        exact ⟨path, member, json, data, evidence, generated⟩
      · rintro ⟨other, member, json, object, read_there, generated⟩
        rw [(there other).mp ⟨member, json⟩, evidence] at read_there
        cases read_there
        exact generated
  · cases read

theorem evidence_eq_ok {baseline later : Baselines} {artifacts : BaselineArtifacts} {paths : List String}
    {metadata : Option (String × RustObject)} (read : baseline.evidence disk language artifacts = .ok (later, paths, metadata)) :
    Below baseline later ∧ paths = recordPaths language artifacts ∧
      ∀ name, name ∈ later.excluded ↔ name ∈ baseline.excluded ∨ (language = .rust ∧ Generated disk artifacts name) := by
  unfold Baselines.evidence at read
  cases language with
  | rust =>
    rcases bind_eq_ok.mp read with ⟨⟨later, paths, path, data⟩, known, same⟩
    cases same
    rcases rustMetadata_eq_ok known with ⟨below, only, excluded⟩
    refine ⟨below, only, ?_⟩
    intro name
    rw [excluded name]
    simp [Generated]
  | go =>
    cases read
    refine ⟨Below.refl _, rfl, ?_⟩
    intro name
    simp

structure ReadingRules [Documents] (disk : Disk) (language : Language) (rules : List BaselineArtifacts)
    (baseline later : Baselines) : Prop extends Below baseline later where
  exact : ∀ name, name ∈ later.excluded ↔
    name ∈ baseline.excluded ∨ (language = .rust ∧ ∃ artifacts ∈ rules, Generated disk artifacts name)
  required : ∀ artifacts ∈ rules, ∀ record, InArtifacts disk (recordPaths language artifacts) record → Requires later record

theorem ReadingRules.trans {first second third : Baselines} {rules others : List BaselineArtifacts}
    (earlier : ReadingRules disk language rules first second) (later : ReadingRules disk language others second third) :
    ReadingRules disk language (rules ++ others) first third := by
  refine ⟨earlier.toBelow.trans later.toBelow, ?_, ?_⟩
  · intro name
    rw [later.exact name, earlier.exact name]
    simp only [List.mem_append, or_and_right, exists_or, and_or_left, or_assoc]
  · intro artifacts member record inside
    rcases List.mem_append.mp member with before | after
    · exact (earlier.required artifacts before record inside).later later.toBelow
    · exact later.required artifacts after record inside

theorem readArtifacts_reading {baseline later : Baselines} {artifacts : BaselineArtifacts}
    (read : Baselines.readArtifacts disk inventory language baseline artifacts = .ok later) :
    ReadingRules disk language [artifacts] baseline later := by
  unfold Baselines.readArtifacts at read
  rcases bind_eq_ok.mp read with ⟨⟨middle, paths, metadata⟩, known, read⟩
  rcases bind_eq_ok.mp read with ⟨⟨last, mapped⟩, run, same⟩
  cases same
  rcases evidence_eq_ok known with ⟨below, rfl, excluded⟩
  have readings := foldlM_readArtifact run
  have further := below.trans readings.toBelow
  refine ⟨⟨further.excluded, further.expected⟩, ?_, ?_⟩
  · intro name
    show name ∈ last.excluded ↔ _
    rw [readings.same, excluded name]
    simp
  · intro other member record inside
    rw [List.mem_singleton.mp member] at inside
    exact readings.required record inside

theorem foldlM_readArtifacts {selected : List BaselineArtifacts} {baseline later : Baselines}
    (read : selected.foldlM (Baselines.readArtifacts disk inventory language) baseline = .ok later) :
    ReadingRules disk language selected baseline later := by
  have added : ∀ done artifacts rest before after, selected = done ++ artifacts :: rest →
      ReadingRules disk language done baseline before →
        Baselines.readArtifacts disk inventory language before artifacts = .ok after →
          ReadingRules disk language (done ++ [artifacts]) baseline after :=
    fun _ _ _ _ _ _ readings step => readings.trans (readArtifacts_reading step)
  have kept := foldlM_prefix (P := fun done later => ReadingRules disk language done baseline later)
    ⟨Below.refl _, by simp, nofun⟩ added
  exact kept.1 later read

omit [Documents] in
theorem settle_excluded (baseline : Baselines) : (Baselines.settle language baseline).excluded = baseline.excluded := by
  cases language <;> rfl

omit [Documents] in
theorem Requires.settle {baseline : Baselines} {record : List Char} (required : Requires baseline record) :
    Requires (Baselines.settle language baseline) record := by
  cases language with
  | go => exact required
  | rust =>
    intro name source
    by_cases dropped : name ∈ baseline.excluded
    · exact .inl dropped
    · rcases required name source with excluded | ⟨numbers, found, inside⟩
      · exact absurd excluded dropped
      · right
        refine ⟨numbers, ?_, inside⟩
        show (baseline.expected.filter _)[name]? = some numbers
        rw [Std.ExtTreeMap.getElem?_filter', found]
        exact Option.filter_some_pos (decide_eq_true dropped)

/-- What the baselines of a language come to: exactly what is excluded, and every record of an artifact required. -/
theorem read_eq_ok [Formats] [Evidence] {events root : String} {baseline : Baselines}
    (read : Baselines.read disk inventory events root language = .ok baseline) :
    ∃ selected, Baselines.selected disk inventory events root language = .ok selected ∧
      (∀ name, name ∈ baseline.excluded ↔ Excludes disk inventory language selected name) ∧
        ∀ artifacts ∈ selected, ∀ record, InArtifacts disk (recordPaths language artifacts) record → Requires baseline record := by
  unfold Baselines.read at read
  rcases bind_eq_ok.mp read with ⟨selected, found, read⟩
  rcases bind_eq_ok.mp read with ⟨last, run, same⟩
  cases same
  have readings := foldlM_readArtifacts run
  refine ⟨selected, found, ?_, ?_⟩
  · intro name
    rw [settle_excluded, readings.exact name]
    unfold Excludes
    apply or_congr _ Iff.rfl
    show name ∈ List.toFinset _ ↔ _
    rw [List.mem_toFinset, List.mem_filter]
  · intro artifacts member record inside
    exact (readings.required artifacts member record inside).settle

end Rules

end NativeReport

end Coverage

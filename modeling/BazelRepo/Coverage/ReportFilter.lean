import BazelRepo.Coverage.NativeReport

namespace Coverage

open Library

namespace NativeReport

def keeps (excluded : Finset String) (record : List Char) : Bool :=
  (sourcesOf record).all fun name => decide (name ∉ excluded)

def judged (language : Language) (excluded : Finset String) (record : List Char) : Bool :=
  keeps excluded record && (sourcesOf record).any fun name => endsWith name language.extension

def HasLines (language : Language) (record : List Char) (name : String) (numbers : Finset Natural) : Prop :=
  sourcesOf record = [name] ∧ lcovLines (lines record) name language.family true = .ok numbers

/-- Records of one source each, those of the language with lines and each of a source of its own. -/
structure Acceptable (language : Language) (excluded : Finset String) (records : List (List Char)) : Prop where
  sourced : ∀ record ∈ records, ∃ name, sourcesOf record = [name]
  readable : ∀ record ∈ records, judged language excluded record = true → ∃ name numbers, HasLines language record name numbers
  distinct : ((records.filter (judged language excluded)).flatMap sourcesOf).Nodup

structure Filters (language : Language) (excluded : Finset String) (records : List (List Char)) (state : Filtered) : Prop
    extends Acceptable language excluded records where
  retained : state.retained = (records.filter (keeps excluded)).flatMap fun record => record ++ endOfRecord
  observed : ∀ name numbers, state.observed[name]? = some numbers ↔
    ∃ record ∈ records, judged language excluded record = true ∧ HasLines language record name numbers

section Records

variable {language : Language} {excluded : Finset String} {records : List (List Char)} {record : List Char} {name : String}

theorem keeps_of_source (source : sourcesOf record = [name]) : keeps excluded record = true ↔ name ∉ excluded := by
  unfold keeps
  rw [source]
  simp

theorem judged_of_source (source : sourcesOf record = [name]) :
    judged language excluded record = true ↔ name ∉ excluded ∧ endsWith name language.extension = true := by
  unfold judged
  rw [Bool.and_eq_true, keeps_of_source source, source]
  simp

theorem Acceptable.of_append {earlier later : List (List Char)} (acceptable : Acceptable language excluded (earlier ++ later)) :
    Acceptable language excluded earlier := by
  refine ⟨?_, ?_, ?_⟩
  · intro record member
    exact acceptable.sourced record (List.mem_append_left later member)
  · intro record member
    exact acceptable.readable record (List.mem_append_left later member)
  · have distinct := acceptable.distinct
    rw [List.filter_append, List.flatMap_append] at distinct
    exact (List.nodup_append.mp distinct).1

theorem mem_judged_sources (sourced : ∀ record ∈ records, ∃ name, sourcesOf record = [name]) :
    name ∈ (records.filter (judged language excluded)).flatMap sourcesOf ↔
      ∃ record ∈ records, judged language excluded record = true ∧ sourcesOf record = [name] := by
  rw [List.mem_flatMap]
  constructor
  · rintro ⟨record, member, named⟩
    rcases List.mem_filter.mp member with ⟨member, kept⟩
    rcases sourced record member with ⟨other, source⟩
    rw [source, List.mem_singleton] at named
    subst named
    exact ⟨record, member, kept, source⟩
  · rintro ⟨record, member, kept, source⟩
    refine ⟨record, List.mem_filter.mpr ⟨member, kept⟩, ?_⟩
    rw [source]
    exact List.mem_singleton_self name

theorem filters_empty : Filters language excluded [] {} :=
  ⟨⟨nofun, nofun, List.nodup_nil⟩, rfl, by simp⟩

theorem Filters.skip {state : Filtered} (filters : Filters language excluded records state) (source : sourcesOf record = [name])
    (dropped : name ∈ excluded) : Filters language excluded (records ++ [record]) state := by
  have unkept : keeps excluded record = false := by
    rw [← Bool.not_eq_true, keeps_of_source source]
    exact fun fresh => fresh dropped
  have unjudged : judged language excluded record = false := by
    unfold judged
    rw [unkept]
    rfl
  refine ⟨⟨?_, ?_, ?_⟩, ?_, ?_⟩
  · intro other member
    rcases List.mem_append.mp member with earlier | latest
    · exact filters.sourced other earlier
    · rw [List.mem_singleton.mp latest]
      exact ⟨name, source⟩
  · intro other member kept
    rcases List.mem_append.mp member with earlier | latest
    · exact filters.readable other earlier kept
    · rw [List.mem_singleton.mp latest, unjudged] at kept
      cases kept
  · rw [List.filter_append, List.filter_singleton, unjudged]
    simpa using filters.distinct
  · rw [List.filter_append, List.filter_singleton, unkept]
    simpa using filters.retained
  · intro other numbers
    rw [filters.observed other numbers]
    constructor
    · rintro ⟨found, member, rest⟩
      exact ⟨found, List.mem_append_left [record] member, rest⟩
    · rintro ⟨found, member, kept, rest⟩
      rcases List.mem_append.mp member with earlier | latest
      · exact ⟨found, earlier, kept, rest⟩
      · rw [List.mem_singleton.mp latest, unjudged] at kept
        cases kept

theorem Filters.keep {state : Filtered} (filters : Filters language excluded records state) (source : sourcesOf record = [name])
    (fresh : name ∉ excluded) (foreign : ¬ endsWith name language.extension = true) :
    Filters language excluded (records ++ [record]) ⟨state.retained ++ record ++ endOfRecord, state.observed⟩ := by
  have kept : keeps excluded record = true := (keeps_of_source source).mpr fresh
  have unjudged : judged language excluded record = false := by
    rw [← Bool.not_eq_true, judged_of_source source]
    exact fun both => foreign both.2
  refine ⟨⟨?_, ?_, ?_⟩, ?_, ?_⟩
  · intro other member
    rcases List.mem_append.mp member with earlier | latest
    · exact filters.sourced other earlier
    · rw [List.mem_singleton.mp latest]
      exact ⟨name, source⟩
  · intro other member judged
    rcases List.mem_append.mp member with earlier | latest
    · exact filters.readable other earlier judged
    · rw [List.mem_singleton.mp latest, unjudged] at judged
      cases judged
  · rw [List.filter_append, List.filter_singleton, unjudged]
    simpa using filters.distinct
  · rw [List.filter_append, List.filter_singleton, kept, filters.retained]
    simp
  · intro other numbers
    rw [filters.observed other numbers]
    constructor
    · rintro ⟨found, member, rest⟩
      exact ⟨found, List.mem_append_left [record] member, rest⟩
    · rintro ⟨found, member, judged, rest⟩
      rcases List.mem_append.mp member with earlier | latest
      · exact ⟨found, earlier, judged, rest⟩
      · rw [List.mem_singleton.mp latest, unjudged] at judged
        cases judged

theorem Filters.read {state : Filtered} {numbers : Finset Natural} (filters : Filters language excluded records state)
    (has : HasLines language record name numbers) (fresh : name ∉ excluded) (native : endsWith name language.extension = true)
    (first : state.observed[name]? = none) :
    Filters language excluded (records ++ [record]) ⟨state.retained ++ record ++ endOfRecord, state.observed.insert name numbers⟩ := by
  have kept : keeps excluded record = true := (keeps_of_source has.1).mpr fresh
  have judged_here : judged language excluded record = true := (judged_of_source has.1).mpr ⟨fresh, native⟩
  refine ⟨⟨?_, ?_, ?_⟩, ?_, ?_⟩
  · intro other member
    rcases List.mem_append.mp member with earlier | latest
    · exact filters.sourced other earlier
    · rw [List.mem_singleton.mp latest]
      exact ⟨name, has.1⟩
  · intro other member judged
    rcases List.mem_append.mp member with earlier | latest
    · exact filters.readable other earlier judged
    · rw [List.mem_singleton.mp latest]
      exact ⟨name, numbers, has⟩
  · rw [List.filter_append, List.filter_singleton, judged_here, List.flatMap_append]
    have only : (([record].flatMap sourcesOf)) = [name] := by
      rw [List.flatMap_singleton, has.1]
    simp only [cond_true, only]
    apply List.nodup_append.mpr ⟨filters.distinct, List.nodup_singleton name, ?_⟩
    intro earlier member other latest
    rw [List.mem_singleton.mp latest]
    rintro rfl
    rcases (mem_judged_sources filters.sourced).mp member with ⟨found, member, judged, source⟩
    rcases filters.readable found member judged with ⟨same, lines, have_lines⟩
    have names := have_lines.1
    rw [source] at names
    cases names
    rw [(filters.observed _ lines).mpr ⟨found, member, judged, have_lines⟩] at first
    cases first
  · rw [List.filter_append, List.filter_singleton, kept, filters.retained]
    simp
  · intro other lines
    rw [BTreeMap.getElem?_insert_eq]
    by_cases same : other = name
    · subst same
      rw [if_pos rfl]
      constructor
      · intro stored
        cases stored
        exact ⟨record, List.mem_append_right records (List.mem_singleton_self record), judged_here, has⟩
      · rintro ⟨found, member, judged, others⟩
        rcases List.mem_append.mp member with earlier | latest
        · rw [(filters.observed other lines).mpr ⟨found, earlier, judged, others⟩] at first
          cases first
        · rw [List.mem_singleton.mp latest] at others
          have read := others.2
          rw [has.2] at read
          cases read
          rfl
    · rw [if_neg same, filters.observed other lines]
      constructor
      · rintro ⟨found, member, rest⟩
        exact ⟨found, List.mem_append_left [record] member, rest⟩
      · rintro ⟨found, member, judged, others⟩
        rcases List.mem_append.mp member with earlier | latest
        · exact ⟨found, earlier, judged, others⟩
        · rw [List.mem_singleton.mp latest] at others
          have names := others.1
          rw [has.1] at names
          cases names
          exact absurd rfl same

theorem Filters.step {state next : Filtered} (filters : Filters language excluded records state)
    (filtered : filterRecord language excluded state record = .ok next) : Filters language excluded (records ++ [record]) next := by
  unfold filterRecord at filtered
  split at filtered
  · rename_i name source
    split at filtered
    · rename_i dropped
      cases filtered
      exact filters.skip source dropped
    · rename_i fresh
      rcases bind_eq_ok.mp filtered with ⟨observed, read, same⟩
      cases same
      split at read
      · rename_i native
        split at read
        · cases read
        · rename_i first
          rcases bind_eq_ok.mp read with ⟨numbers, numbered, same⟩
          cases same
          exact filters.read ⟨source, numbered⟩ fresh native (by simpa using first)
      · rename_i foreign
        cases read
        exact filters.keep source fresh foreign
  · cases filtered

theorem Filters.accepts {state : Filtered} (filters : Filters language excluded records state)
    (acceptable : Acceptable language excluded (records ++ [record])) :
    ∃ next, filterRecord language excluded state record = .ok next := by
  have member := List.mem_append_right records (List.mem_singleton_self record)
  rcases acceptable.sourced record member with ⟨name, source⟩
  unfold filterRecord
  rw [source]
  dsimp only
  split
  · exact ⟨_, rfl⟩
  · rename_i fresh
    split
    · rename_i native
      have judged_here : judged language excluded record = true := (judged_of_source source).mpr ⟨fresh, native⟩
      have first : state.observed[name]? = none := by
        rw [Option.eq_none_iff_forall_not_mem]
        intro numbers stored
        rcases (filters.observed name numbers).mp stored with ⟨found, earlier, judged, has⟩
        have distinct := acceptable.distinct
        rw [List.filter_append, List.filter_singleton, judged_here, List.flatMap_append] at distinct
        apply (List.nodup_append.mp distinct).2.2 name _ name _ rfl
        · exact (mem_judged_sources filters.sourced).mpr ⟨found, earlier, judged, has.1⟩
        · simp [source]
      rcases acceptable.readable record member judged_here with ⟨other, numbers, has⟩
      have names := has.1
      rw [source] at names
      cases names
      rw [first]
      simp only [Option.isSome_none, Bool.false_eq_true, if_false]
      rw [has.2]
      exact ⟨_, rfl⟩
    · exact ⟨_, rfl⟩

theorem foldlM_filterRecord {state : Filtered} (filtered : records.foldlM (filterRecord language excluded) {} = .ok state) :
    Filters language excluded records state := by
  rcases foldlM_prefix filters_empty fun _ _ _ _ _ _ filters step => filters.step step with ⟨passes, _⟩
  exact passes state filtered

theorem exists_foldlM_filterRecord (acceptable : Acceptable language excluded records) :
    ∃ state, records.foldlM (filterRecord language excluded) {} = .ok state := by
  have accepted : ∀ done record rest state, records = done ++ record :: rest → Filters language excluded done state →
      ∃ next, filterRecord language excluded state record = .ok next ∧ Filters language excluded (done ++ [record]) next := by
    intro done record rest state split filters
    rw [split, List.append_cons] at acceptable
    rcases filters.accepts acceptable.of_append with ⟨next, step⟩
    exact ⟨next, step, filters.step step⟩
  rcases foldlM_total filters_empty accepted with ⟨state, filtered, _⟩
  exact ⟨state, filtered⟩

end Records

def Blank (text : List Char) : Prop := trim (String.ofList text) = ""

theorem recordsOf_eq_ok {text : List Char} {error : ReportError} {records : List (List Char)} {trailer : List Char} :
    Baselines.recordsOf text error = .ok (records, trailer) ↔
      splitText endOfRecord text = records ++ [trailer] ∧ records ≠ [] ∧ Blank trailer := by
  unfold Baselines.recordsOf Blank
  dsimp only
  rcases List.eq_nil_or_concat (splitText endOfRecord text) with none_there | ⟨earlier, last, cut⟩
  · exact absurd none_there splitText_ne_nil
  · rw [List.concat_eq_append] at cut
    rw [cut, List.getLast?_concat, List.dropLast_concat]
    dsimp only
    constructor
    · intro accepted
      rw [reject_eq_ok] at accepted
      rcases accepted with ⟨sound, same⟩
      cases same
      rw [not_or, not_not] at sound
      refine ⟨rfl, ?_, sound.2⟩
      rintro rfl
      simp at sound
    · rintro ⟨same, nonempty, blank⟩
      rcases List.append_inj' same rfl with ⟨rfl, last_same⟩
      cases last_same
      rw [reject_eq_ok]
      refine ⟨?_, rfl⟩
      rw [not_or, not_not]
      refine ⟨?_, blank⟩
      have positive := List.length_pos_iff.mpr nonempty
      rw [List.length_append, List.length_singleton]
      omega

structure Passes (language : Language) (baseline : Baselines) (records : List (List Char)) (trailer : List Char) : Prop
    extends Acceptable language baseline.excluded records where
  nonempty : records ≠ []
  blank : Blank trailer
  covered : ∀ (name : String) (numbers : Finset Natural), baseline.expected[name]? = some numbers →
    ∃ record ∈ records, judged language baseline.excluded record = true ∧
      ∃ lines, HasLines language record name lines ∧ numbers ⊆ lines

def retainedReport (excluded : Finset String) (records : List (List Char)) (trailer : List Char) : List Char :=
  joinRecords endOfRecord (records.filter (keeps excluded)) trailer

theorem filterReport_eq_ok {language : Language} {baseline : Baselines} {original text : List Char} :
    filterReport language baseline original = .ok text ↔ ∃ records trailer,
      splitText endOfRecord original = records ++ [trailer] ∧ Passes language baseline records trailer ∧
        text = retainedReport baseline.excluded records trailer := by
  unfold filterReport
  constructor
  · intro filtered
    rcases bind_eq_ok.mp filtered with ⟨⟨records, trailer⟩, cut, filtered⟩
    rcases recordsOf_eq_ok.mp cut with ⟨pieces, nonempty, blank⟩
    rcases bind_eq_ok.mp filtered with ⟨state, run, filtered⟩
    rcases bind_eq_ok.mp filtered with ⟨⟨⟩, checks, same⟩
    cases same
    have filters := foldlM_filterRecord run
    refine ⟨records, trailer, pieces, ⟨filters.toAcceptable, nonempty, blank, ?_⟩, ?_⟩
    · intro name numbers expected
      have check := forM_eq_ok.mp checks (name, numbers) (BTreeMap.mem_toList.mpr expected)
      dsimp only at check
      split at check
      · rename_i found
        rcases (Option.any_eq_true _ _).mp found with ⟨lines, stored, inside⟩
        replace inside := of_decide_eq_true inside
        rcases (filters.observed name lines).mp stored with ⟨record, member, kept, has⟩
        exact ⟨record, member, kept, lines, has, inside⟩
      · cases check
    · rw [retainedReport, joinRecords, ← filters.retained]
  · rintro ⟨records, trailer, pieces, passes, rfl⟩
    rw [recordsOf_eq_ok.mpr ⟨pieces, passes.nonempty, passes.blank⟩, ok_bind]
    rcases exists_foldlM_filterRecord passes.toAcceptable with ⟨state, run⟩
    have filters := foldlM_filterRecord run
    dsimp only
    rw [run, ok_bind, bind_eq_ok]
    refine ⟨⟨⟩, ?_, ?_⟩
    · rw [forM_eq_ok]
      rintro ⟨name, numbers⟩ member
      rcases passes.covered name numbers (BTreeMap.mem_toList.mp member) with ⟨record, there, kept, lines, has, inside⟩
      have stored := (filters.observed name lines).mpr ⟨record, there, kept, has⟩
      dsimp only
      rw [if_pos]
      rw [stored]
      exact decide_eq_true inside
    · rw [filters.retained]
      rfl

end NativeReport

end Coverage

import BazelRepo.Coverage.Reconcile

namespace Coverage

open Library

namespace Reconcile

section Texts

variable {parts : List (List Char)} {trailer : List Char}

theorem splitText_report (report : List Char) : ∃ parts trailer, splitText endOfRecord report = parts ++ [trailer] ∧
    (∀ part ∈ parts, ¬ endOfRecord <:+: part) ∧ ¬ endOfRecord <:+: trailer := by
  rcases splitText_spec (by decide : endOfRecord ≠ []) report with ⟨parts, trailer, cut, _, free, last⟩
  exact ⟨parts, trailer, cut, free, last⟩

theorem borderless_endOfRecord : Borderless endOfRecord := by decide

/-- What is left of a text when only some of its records are kept. -/
theorem splitText_filter (keep : List Char → Bool) (free : ∀ part ∈ parts, ¬ endOfRecord <:+: part)
    (last : ¬ endOfRecord <:+: trailer) :
    splitText endOfRecord (joinRecords endOfRecord (parts.filter keep) trailer) = parts.filter keep ++ [trailer] := by
  apply splitText_joinRecords (by decide) borderless_endOfRecord _ last
  intro part member
  exact free part (List.mem_of_mem_filter member)

end Texts

section Records

variable [DecimalDigits] {parts : List (List Char)} {part trailer report : List Char} {result next observed : Records}
  {excluded : List String}

/-- The text of a record with the source and the record that it is read as. -/
structure Reads (part : List Char) (entry : String × Record) : Prop where
  names : namesOf part = [entry.1]
  named : entry.1 ≠ ""
  read : readRecord entry.1 (splitlines part) = .ok entry.2

theorem addRecord_eq_ok : addRecord result part = .ok next ↔
    ∃ entry, Reads part entry ∧ entry.1 ∉ result.map Prod.fst ∧ next = result ++ [entry] := by
  unfold addRecord
  constructor
  · intro added
    split at added
    · rename_i name names
      split at added
      · cases added
      · rename_i fresh
        rw [not_or] at fresh
        rcases bind_eq_ok.mp added with ⟨record, read, same⟩
        cases same
        exact ⟨(name, record), ⟨names, fresh.1, read⟩, fresh.2, rfl⟩
    · cases added
  · rintro ⟨⟨name, record⟩, reads, fresh, rfl⟩
    rw [reads.names]
    dsimp only
    rw [if_neg (not_or.mpr ⟨reads.named, fresh⟩), reads.read]
    rfl

theorem foldlM_addRecord : parts.foldlM addRecord result = .ok next ↔
    ∃ added, next = result ++ added ∧ List.Forall₂ Reads parts added ∧ (added.map Prod.fst).Nodup ∧
      ∀ name ∈ added.map Prod.fst, name ∉ result.map Prod.fst := by
  induction parts generalizing result with
  | nil =>
    constructor
    · intro done
      cases done
      exact ⟨[], (List.append_nil _).symm, .nil, List.nodup_nil, by simp⟩
    · rintro ⟨added, rfl, reads, _⟩
      cases reads
      rw [List.append_nil]
      rfl
  | cons part parts ih =>
    rw [List.foldlM_cons, bind_eq_ok]
    constructor
    · rintro ⟨middle, first, rest⟩
      rcases addRecord_eq_ok.mp first with ⟨entry, reads, fresh, rfl⟩
      rcases ih.mp rest with ⟨added, rfl, others, distinct, apart⟩
      refine ⟨entry :: added, by simp, .cons reads others, ?_, ?_⟩
      · rw [List.map_cons, List.nodup_cons]
        refine ⟨fun again => apart entry.1 again ?_, distinct⟩
        simp
      · intro name member earlier
        rcases List.mem_cons.mp member with rfl | later
        · exact fresh earlier
        · apply apart name later
          rw [List.map_append]
          exact List.mem_append_left _ earlier
    · rintro ⟨added, rfl, reads, distinct, apart⟩
      cases reads with
      | @cons _ entry _ added reads others =>
        rw [List.map_cons, List.nodup_cons] at distinct
        refine ⟨result ++ [entry], addRecord_eq_ok.mpr ⟨entry, reads, ?_, rfl⟩, ih.mpr ⟨added, by simp, others, distinct.2, ?_⟩⟩
        · exact apart entry.1 (by simp)
        · intro name member earlier
          rw [List.map_append, List.mem_append] at earlier
          rcases earlier with earlier | latest
          · exact apart name (List.mem_cons_of_mem _ member) earlier
          · rw [List.map_singleton, List.mem_singleton] at latest
            rw [latest] at member
            exact distinct.1 member

/-- A report whose records are of distinct sources, and what its records are read as. -/
structure Holds (parts : List (List Char)) (trailer : List Char) (observed : Records) : Prop where
  nonempty : parts ≠ []
  blank : strip trailer = []
  reads : List.Forall₂ Reads parts observed
  distinct : (observed.map Prod.fst).Nodup

theorem records_of_parts (cut : splitText endOfRecord report = parts ++ [trailer]) :
    records report = if parts = [] ∨ strip trailer ≠ [] then invalid incomplete else parts.foldlM addRecord [] := by
  unfold records
  rw [cut]
  simp only [List.length_append, List.length_singleton, List.getLast?_concat, Option.getD_some, List.dropLast_concat]
  congr 1
  rw [eq_iff_iff]
  apply or_congr_left
  rw [← List.length_eq_zero_iff]
  omega

theorem records_eq_ok (cut : splitText endOfRecord report = parts ++ [trailer]) :
    records report = .ok observed ↔ Holds parts trailer observed := by
  rw [records_of_parts cut]
  constructor
  · intro accepted
    rw [invalid, reject_eq_ok, not_or, not_not] at accepted
    rcases accepted with ⟨⟨nonempty, blank⟩, run⟩
    rcases foldlM_addRecord.mp run with ⟨added, rfl, reads, distinct, _⟩
    exact ⟨nonempty, blank, reads, distinct⟩
  · intro holds
    rw [if_neg (not_or.mpr ⟨holds.nonempty, not_not.mpr holds.blank⟩), foldlM_addRecord]
    exact ⟨observed, rfl, holds.reads, holds.distinct, by simp⟩

/-- Where each record is kept exactly if its source is, what is kept is read as before. -/
theorem reads_filter {keep : List Char → Bool} {kept : String → Bool} (reads : List.Forall₂ Reads parts observed)
    (agree : ∀ part name, namesOf part = [name] → keep part = kept name) :
    List.Forall₂ Reads (parts.filter keep) (observed.filter fun entry => kept entry.1) := by
  apply List.rel_filter _ reads
  intro part entry reads
  show keep part = true ↔ kept entry.1 = true
  rw [agree part entry.1 reads.names]

theorem Holds.filter {keep : List Char → Bool} {kept : String → Bool} (holds : Holds parts trailer observed)
    (agree : ∀ part name, namesOf part = [name] → keep part = kept name) (nonempty : parts.filter keep ≠ []) :
    Holds (parts.filter keep) trailer (observed.filter fun entry => kept entry.1) :=
  ⟨nonempty, holds.blank, reads_filter holds.reads agree, holds.distinct.sublist (List.filter_sublist.map _)⟩

theorem filter_eq_nil_iff {keep : List Char → Bool} {kept : String → Bool} (reads : List.Forall₂ Reads parts observed)
    (agree : ∀ part name, namesOf part = [name] → keep part = kept name) :
    parts.filter keep = [] ↔ observed.filter (fun entry => kept entry.1) = [] := by
  rw [← List.length_eq_zero_iff, (reads_filter reads agree).length_eq, List.length_eq_zero_iff]

/-- A record none of whose sources is excluded. -/
def keeps (excluded : List String) (part : List Char) : Bool := (namesOf part).all fun name => decide (name ∉ excluded)

omit [DecimalDigits] in
theorem keeps_of_names {name : String} (names : namesOf part = [name]) : keeps excluded part = decide (name ∉ excluded) := by
  rw [keeps, names, List.all_cons, List.all_nil, Bool.and_true]

theorem foldlM_retain (reads : List.Forall₂ Reads parts observed) (retained : List Char) :
    parts.foldlM (retain excluded) retained =
      .ok (retained ++ (parts.filter (keeps excluded)).flatMap fun part => part ++ endOfRecord) := by
  induction reads generalizing retained with
  | nil =>
    rw [List.filter_nil, List.flatMap_nil, List.append_nil]
    rfl
  | @cons part entry parts _ reads _ ih =>
    have step : retain excluded retained part =
        .ok (if keeps excluded part = true then retained ++ (part ++ endOfRecord) else retained) := by
      unfold retain
      rw [reads.names, keeps_of_names reads.names, List.append_assoc]
      dsimp only
      by_cases outside : entry.1 ∉ excluded
      · rw [if_pos outside, if_pos (decide_eq_true outside)]
      · rw [if_neg outside, if_neg (by simpa using outside)]
    rw [List.foldlM_cons, step, ok_bind, ih]
    by_cases kept : keeps excluded part = true
    · rw [if_pos kept, List.filter_cons_of_pos kept, List.flatMap_cons, List.append_assoc, List.append_assoc]
    · rw [if_neg kept, List.filter_cons_of_neg kept]

/-- The records of the sources that are not excluded. -/
def within (excluded : List String) (observed : Records) : Records :=
  observed.filter fun entry => decide (entry.1 ∉ excluded)

/-- The scope filter keeps the records of the sources that are not excluded, and a report without any is no report. -/
theorem filterScope_records (accepted : records report = .ok observed) : ∃ text, filterScope report excluded = .ok text ∧
    (within excluded observed ≠ [] → records text = .ok (within excluded observed)) ∧
    (records text = invalid incomplete ↔ within excluded observed = []) := by
  rcases splitText_report report with ⟨parts, trailer, cut, free, last⟩
  have holds := (records_eq_ok cut).mp accepted
  have agree : ∀ part name, namesOf part = [name] → keeps excluded part = decide (name ∉ excluded) :=
    fun part name names => keeps_of_names names
  have left_over := splitText_filter (keeps excluded) free last
  have empty : parts.filter (keeps excluded) = [] ↔ within excluded observed = [] := filter_eq_nil_iff holds.reads agree
  have remaining : within excluded observed ≠ [] →
      records (joinRecords endOfRecord (parts.filter (keeps excluded)) trailer) = .ok (within excluded observed) := by
    intro remains
    apply (records_eq_ok left_over).mpr
    apply holds.filter agree
    rwa [ne_eq, empty]
  refine ⟨joinRecords endOfRecord (parts.filter (keeps excluded)) trailer, ?_, remaining, ?_⟩
  · unfold filterScope
    rw [accepted, ok_bind, cut]
    simp only [List.dropLast_concat, List.getLast?_concat, Option.getD_some]
    rw [foldlM_retain holds.reads, ok_bind]
    rfl
  · constructor
    · intro rejected
      by_contra remains
      rw [remaining remains] at rejected
      cases rejected
    · intro none_left
      rw [records_of_parts left_over, if_pos (.inl (empty.mpr none_left))]

/-- A report without the record of a source. -/
def withoutRecord (name : String) (report : List Char) : List Char :=
  let parts := splitText endOfRecord report
  joinRecords endOfRecord (parts.dropLast.filter fun part => decide (name ∉ namesOf part)) (parts.getLast?.getD [])

theorem records_withoutRecord {name : String} (accepted : records (withoutRecord name report) = .ok observed) :
    observed.lookup name = none := by
  rcases splitText_report report with ⟨parts, trailer, cut, free, last⟩
  have left_over := splitText_filter (fun part => decide (name ∉ namesOf part)) free last
  have removed : withoutRecord name report =
      joinRecords endOfRecord (parts.filter fun part => decide (name ∉ namesOf part)) trailer := by
    unfold withoutRecord
    rw [cut]
    simp only [List.dropLast_concat, List.getLast?_concat, Option.getD_some]
  rw [removed] at accepted
  have holds := (records_eq_ok left_over).mp accepted
  rw [List.lookup_eq_none_iff]
  intro entry member
  rcases mem_of_forall₂ holds.reads entry member with ⟨part, there, reads⟩
  have outside := of_decide_eq_true (List.mem_filter.mp there).2
  rw [reads.names, List.mem_singleton] at outside
  exact bne_iff_ne.mpr outside

/-- Whether a line of a record states the count of an executable line. -/
def statesLine (number : Int) (line : List Char) : Bool :=
  match stripPrefix "DA:" line with
  | none => false
  | some fields => (fields.splitOn ',').head?.any fun field => decide (int field = .ok number)

theorem keys_readCount {name : String} {counts later : List (Int × Int)} {line : List Char}
    (read : readCount name counts line = .ok later) {number : Int} (key : number ∈ later.map Prod.fst) :
    number ∈ counts.map Prod.fst ∨ statesLine number line = true := by
  unfold readCount at read
  unfold statesLine
  cases found : stripPrefix "DA:" line with
  | none =>
    rw [found] at read
    cases read
    exact .inl key
  | some fields =>
    rw [found] at read
    dsimp only at read ⊢
    have stated : ∀ {first : List Char} {others : List (List Char)} {count : Outcome Int}, fields.splitOn ',' = first :: others →
        (do
          let number ← int first
          let count ← count
          if number ≤ 0 ∨ count < 0 ∨ number ∈ counts.map Prod.fst then invalid s!"Invalid executable line: {name}"
          else .ok (counts ++ [(number, count)]) : Outcome (List (Int × Int))) = .ok later →
        number ∈ counts.map Prod.fst ∨ ((fields.splitOn ',').head?.any fun field => decide (int field = .ok number)) = true := by
      intro first others count pieces read
      rcases bind_eq_ok.mp read with ⟨stated, parsed, read⟩
      rcases bind_eq_ok.mp read with ⟨count, _, read⟩
      rw [invalid, reject_eq_ok] at read
      cases read.2
      rw [List.map_append, List.mem_append] at key
      rcases key with earlier | latest
      · exact .inl earlier
      · right
        rw [List.map_singleton, List.mem_singleton] at latest
        rw [pieces, latest]
        simpa using parsed
    split at read
    · rename_i pieces
      exact stated pieces read
    · rename_i pieces
      exact stated pieces read
    · cases read

theorem keys_foldlM_readCount {name : String} {lines : List (List Char)} {counts later : List (Int × Int)}
    (read : lines.foldlM (readCount name) counts = .ok later) {number : Int} (key : number ∈ later.map Prod.fst) :
    number ∈ counts.map Prod.fst ∨ ∃ line ∈ lines, statesLine number line = true := by
  induction lines generalizing counts with
  | nil =>
    cases read
    exact .inl key
  | cons line lines ih =>
    rw [List.foldlM_cons, bind_eq_ok] at read
    rcases read with ⟨middle, first, rest⟩
    rcases ih rest with earlier | ⟨other, member, states⟩
    · rcases keys_readCount first earlier with before | states
      · exact .inl before
      · exact .inr ⟨line, List.mem_cons_self, states⟩
    · exact .inr ⟨other, List.mem_cons_of_mem _ member, states⟩

theorem keys_readRecord {name : String} {lines : List (List Char)} {record : Record}
    (read : readRecord name lines = .ok record) {number : Int} (key : number ∈ record.lines.map Prod.fst) :
    ∃ line ∈ lines, statesLine number line = true := by
  unfold readRecord at read
  rcases bind_eq_ok.mp read with ⟨counts, run, read⟩
  rcases bind_eq_ok.mp read with ⟨found, _, read⟩
  rcases bind_eq_ok.mp read with ⟨hit, _, read⟩
  split at read
  · rw [invalid, reject_eq_ok] at read
    rcases read with ⟨_, read⟩
    rw [invalid, reject_eq_ok] at read
    rcases bind_eq_ok.mp read.2 with ⟨_, _, same⟩
    cases same
    rcases keys_foldlM_readCount run key with none_yet | stated
    · cases none_yet
    · exact stated
  · cases read

/-- A report that differs from another one in a record that lacks the lines that state an executable line. -/
def LosesLine (name : String) (number : Int) (report lost : List Char) : Prop :=
  ∃ earlier part rest later, later ≠ [] ∧ splitText endOfRecord report = earlier ++ part :: later ∧
    splitText endOfRecord lost = earlier ++ rest :: later ∧ namesOf part = [name] ∧
    splitlines rest = (splitlines part).filter fun line => !statesLine number line

omit [DecimalDigits] in
theorem filterMap_filter_of_none {α β : Type} {f : α → Option β} {p : α → Bool} {items : List α}
    (foreign : ∀ item ∈ items, p item = false → f item = none) : (items.filter p).filterMap f = items.filterMap f := by
  rw [List.filterMap_filter]
  apply List.filterMap_congr
  intro item member
  by_cases kept : p item = true
  · rw [if_pos kept]
  · rw [if_neg kept, foreign item member (Bool.not_eq_true _ ▸ kept)]

/-- A line that states a count names no source. -/
theorem namesOf_withoutLine {number : Int} {rest : List Char}
    (lost : splitlines rest = (splitlines part).filter fun line => !statesLine number line) : namesOf rest = namesOf part := by
  unfold namesOf
  rw [lost]
  apply filterMap_filter_of_none
  intro line _ stated
  have states : statesLine number line = true := by simpa using stated
  unfold statesLine at states
  cases found : stripPrefix "DA:" line with
  | none =>
    rw [found] at states
    cases states
  | some fields =>
    rw [stripPrefix_other (by decide : "DA:".toList ≠ "SF:".toList) rfl found]
    rfl

theorem records_losesLine {name : String} {number : Int} {lost : List Char} (loses : LosesLine name number report lost)
    (accepted : records lost = .ok observed) :
    ∃ record, observed.lookup name = some record ∧ number ∉ record.lines.map Prod.fst := by
  rcases loses with ⟨earlier, part, rest, later, behind, _, cut, names, lines⟩
  rcases List.eq_nil_or_concat later with none_there | ⟨others, trailer, same⟩
  · exact absurd none_there behind
  · rw [same, List.concat_eq_append, ← List.cons_append, ← List.append_assoc] at cut
    have holds := (records_eq_ok cut).mp accepted
    rcases mem_of_forall₂ holds.reads.flip rest (by simp) with ⟨entry, there, reads⟩
    have named := reads.names
    rw [namesOf_withoutLine lines, names, List.cons.injEq] at named
    refine ⟨entry.2, ?_, ?_⟩
    · rw [named.1]
      exact lookup_of_nodup holds.distinct entry there
    · intro key
      rcases keys_readRecord reads.read key with ⟨line, member, states⟩
      rw [lines, List.mem_filter, states] at member
      cases member.2

end Records

section Sources

variable {analysis2 : String → Outcome (List Int)} {inventory : Inventory} {receipts : List (String × CollectorReceipt)}
  {observed : Records} {source : Source} {result : SourceResult}

/-- The limits of a source in the receipt of its collector. -/
def ownLimits (receipts : List (String × CollectorReceipt)) (source : Source) : List Limit :=
  (((receipts.lookup source.family).getD {}).limits.getD []).filter fun limit => limit.source = some source.path

/-- A Python source without executable lines. -/
def Lineless (analysis2 : String → Outcome (List Int)) (source : Source) : Prop :=
  source.language = "python" ∧ analysis2 source.path = .ok []

/-- A source whose record has to have some lines: the executable lines of a Python source, or those that the collector of
another source names for it. -/
def Required (analysis2 : String → Outcome (List Int)) (receipts : List (String × CollectorReceipt)) (source : Source)
    (expected : List Int) : Prop :=
  (source.language = "python" ∧ analysis2 source.path = .ok expected ∧ expected ≠ []) ∨
    (source.language ≠ "python" ∧ ∃ receipt value, receipts.lookup source.family = some receipt ∧
      (receipt.sources.getD []).lookup source.path = some value ∧ lineSet value = .ok expected)

/-- What the result of a source says about the records that were observed. -/
structure Accounts (analysis2 : String → Outcome (List Int)) (receipts : List (String × CollectorReceipt))
    (observed : Records) (source : Source) (result : SourceResult) : Prop where
  named : result.source = source.path
  recorded : ∀ expected, Required analysis2 receipts source expected →
    ∃ record, observed.lookup source.path = some record ∧ ∀ number ∈ expected, number ∈ record.lines.map Prod.fst
  lineless : Lineless analysis2 source → result.status = .noExecutableLines ∧
    ∀ record, observed.lookup source.path = some record → record.lines = []
  unrecorded : ¬ Lineless analysis2 source → observed.lookup source.path = none →
    result.status = .collectorLimit ∧ (∃ limit ∈ ownLimits receipts source, limit.recordAbsence = some true) ∧
      ∀ expected, ¬ Required analysis2 receipts source expected
  measured : result.status = .measured ↔
    ∃ record, observed.lookup source.path = some record ∧ ∃ entry ∈ record.lines, 0 < entry.2
  summarized : ¬ Lineless analysis2 source → ∀ record, observed.lookup source.path = some record →
    (record.found ≠ record.lines.length ∨ record.hit ≠ knownHits record.lines) →
    source.language = "rust" ∧ ∃ limit ∈ ownLimits receipts source, limit.lineSummary = some true

theorem knownHits_ne_zero {lines : List (Int × Int)} : knownHits lines ≠ 0 ↔ ∃ entry ∈ lines, 0 < entry.2 := by
  unfold knownHits
  rw [Ne, List.length_eq_zero_iff, List.filter_eq_nil_iff]
  simp

theorem family_eq_iff {language : String} (known : language ≠ "javascript") (other : language ≠ "browser") :
    source.family = language ↔ source.language = language := by
  unfold Source.family
  split
  · rename_i browser
    rw [browser]
    exact ⟨fun same => absurd same.symm known, fun same => absurd same.symm other⟩
  · rfl

theorem sourceLimits_eq_ok {receipt : CollectorReceipt} {name : String} {limits : List Limit}
    (stated : sourceLimits receipt name = .ok limits) :
    limits = (receipt.limits.getD []).filter fun limit => limit.source = some name := by
  unfold sourceLimits at stated
  dsimp only at stated
  split at stated
  · cases stated
  · split at stated
    · cases stated
      rfl
    · cases stated

/-- A result with a record that its lines and summary allow, or one without a record where a limit allows that. -/
theorem reconcileRecord_cases {name family : String} {limits : List Limit} {expected : List Int} {required : Bool}
    (reconciled : reconcileRecord observed name family limits expected required = .ok result) :
    result.source = name ∧
      ((observed.lookup name = none ∧ required = false ∧ (∃ limit ∈ limits, limit.recordAbsence = some true) ∧
          result.status = .collectorLimit) ∨
        ∃ record, observed.lookup name = some record ∧ (∀ number ∈ expected, number ∈ record.lines.map Prod.fst) ∧
          ((record.found ≠ record.lines.length ∨ record.hit ≠ knownHits record.lines) →
            family = "rust" ∧ ∃ limit ∈ limits, limit.lineSummary = some true) ∧
          (result.status = .measured ↔ knownHits record.lines ≠ 0)) := by
  unfold reconcileRecord at reconciled
  dsimp only at reconciled
  rw [invalid, reject_eq_ok] at reconciled
  rcases reconciled with ⟨_, reconciled⟩
  cases found : observed.lookup name with
  | none =>
    rw [found] at reconciled
    dsimp only at reconciled
    rw [invalid, reject_eq_ok, not_or] at reconciled
    rcases reconciled with ⟨⟨free, limited⟩, same⟩
    cases same
    refine ⟨rfl, .inl ⟨rfl, by simpa using free, ?_, rfl⟩⟩
    simpa using limited
  | some record =>
    rw [found] at reconciled
    dsimp only at reconciled
    rw [invalid, reject_eq_ok] at reconciled
    rcases reconciled with ⟨_, reconciled⟩
    rw [invalid, reject_eq_ok] at reconciled
    rcases reconciled with ⟨gap, reconciled⟩
    rw [invalid, reject_eq_ok] at reconciled
    rcases reconciled with ⟨complete, same⟩
    cases same
    refine ⟨rfl, .inr ⟨record, rfl, ?_, ?_, ?_⟩⟩
    · simpa using complete
    · intro differs
      rw [not_and, not_not] at gap
      simpa using gap differs
    · dsimp only
      by_cases hits : knownHits record.lines = 0
      · simp only [hits, ne_eq, not_true_eq_false, if_false, iff_false]
        split_ifs <;> simp
      · have listed : record.lines ≠ [] := by
          intro none_listed
          rw [none_listed] at hits
          exact hits rfl
        simp [listed, hits]

/-- Where at most the expected lines have to be in the record of a source, its result accounts for it. -/
theorem accounts_of_reconcileRecord {expected : List Int} {required : Bool} (evident : ¬ Lineless analysis2 source)
    (only : ∀ other, Required analysis2 receipts source other → required = true ∧ other = expected)
    (reconciled : reconcileRecord observed source.path source.family (ownLimits receipts source) expected required = .ok result) :
    Accounts analysis2 receipts observed source result := by
  have rust : source.family = "rust" ↔ source.language = "rust" := family_eq_iff (by decide) (by decide)
  rcases reconcileRecord_cases reconciled with ⟨named, ⟨absent, free, limit, status⟩ | ⟨record, found, complete, gap, measured⟩⟩
  · have unrequired : ∀ other, ¬ Required analysis2 receipts source other := by
      intro other required
      have needed := (only other required).1
      rw [free] at needed
      cases needed
    refine ⟨named, fun other required => absurd required (unrequired other), fun lineless => absurd lineless evident,
      fun _ _ => ⟨status, limit, unrequired⟩, ?_, ?_⟩
    · rw [status, absent]
      simp
    · intro _ record found
      rw [absent] at found
      cases found
  · refine ⟨named, ?_, fun lineless => absurd lineless evident, ?_, ?_, ?_⟩
    · intro other required
      rw [(only other required).2]
      exact ⟨record, found, complete⟩
    · intro _ absent
      rw [found] at absent
      cases absent
    · rw [measured, knownHits_ne_zero, found]
      simp
    · intro _ other same differs
      rw [found] at same
      cases same
      rw [rust] at gap
      exact gap differs

theorem accounts_of_lineless (lineless : Lineless analysis2 source) (named : result.source = source.path)
    (status : result.status = .noExecutableLines)
    (unlisted : ∀ record, observed.lookup source.path = some record → record.lines = []) :
    Accounts analysis2 receipts observed source result := by
  refine ⟨named, ?_, fun _ => ⟨status, unlisted⟩, fun other => absurd lineless other, ?_, fun other => absurd lineless other⟩
  · rintro expected (⟨_, analysed, nonempty⟩ | ⟨foreign, _⟩)
    · rw [lineless.2] at analysed
      cases analysed
      exact absurd rfl nonempty
    · exact absurd lineless.1 foreign
  · rw [status]
    constructor
    · intro measured
      cases measured
    · rintro ⟨record, found, entry, member, _⟩
      rw [unlisted record found] at member
      cases member

theorem accounts_of_reconcileSource (reconciled : reconcileSource analysis2 inventory observed receipts source = .ok result) :
    Accounts analysis2 receipts observed source result := by
  unfold reconcileSource at reconciled
  dsimp only at reconciled
  rw [invalid, reject_eq_ok] at reconciled
  rcases reconciled with ⟨_, reconciled⟩
  rw [invalid, reject_eq_ok] at reconciled
  rcases reconciled with ⟨_, reconciled⟩
  rcases bind_eq_ok.mp reconciled with ⟨limits, stated, reconciled⟩
  rcases bind_eq_ok.mp reconciled with ⟨lines, collected, reconciled⟩
  have own : limits = ownLimits receipts source := sourceLimits_eq_ok stated
  subst own
  have python : source.family = "python" ↔ source.language = "python" := family_eq_iff (by decide) (by decide)
  by_cases interpreted : source.language = "python"
  · rw [if_pos (python.mpr interpreted), invalid, reject_eq_ok] at reconciled
    rcases bind_eq_ok.mp reconciled.2 with ⟨expected, analysed, reconciled⟩
    by_cases empty : expected = []
    · rw [if_pos empty, invalid, reject_eq_ok] at reconciled
      rcases reconciled with ⟨listed, same⟩
      cases same
      rw [empty] at analysed
      apply accounts_of_lineless ⟨interpreted, analysed⟩ rfl rfl
      intro record found
      rw [found] at listed
      simpa using listed
    · rw [if_neg empty] at reconciled
      apply accounts_of_reconcileRecord _ _ reconciled
      · rintro ⟨_, none_there⟩
        rw [analysed] at none_there
        cases none_there
        exact empty rfl
      · rintro other (⟨_, again, _⟩ | ⟨foreign, _⟩)
        · rw [analysed] at again
          cases again
          exact ⟨rfl, rfl⟩
        · exact absurd interpreted foreign
  · rw [if_neg fun same => interpreted (python.mp same)] at reconciled
    apply accounts_of_reconcileRecord _ _ reconciled
    · exact fun lineless => interpreted lineless.1
    · rintro other (⟨same, _⟩ | ⟨_, receipt, value, provided, given, read⟩)
      · exact absurd same interpreted
      · rw [provided, Option.getD_some] at collected ⊢
        rw [given] at collected ⊢
        rw [Option.getD_some, read] at collected
        cases collected
        exact ⟨rfl, rfl⟩

end Sources

section Runs

variable [DecimalDigits] {analysis2 : String → Outcome (List Int)} {inventory : Inventory} {report : List Char}
  {receipts : List (String × CollectorReceipt)} {result : Reconciliation}

/-- What a run says about its report: each eligible source has a result, in their order, and no record is of an excluded one. -/
structure Reconciles (analysis2 : String → Outcome (List Int)) (inventory : Inventory) (report : List Char)
    (receipts : List (String × CollectorReceipt)) (result : Reconciliation) : Prop where
  observed : ∃ observed, records report = .ok observed ∧
    (∀ entry ∈ inventory.excluded, ∃ path, entry.lookup "path" = some path ∧ path ∉ observed.map Prod.fst) ∧
    List.Forall₂ (Accounts analysis2 receipts observed) inventory.eligible result.sources
  ordered : result.sources.map (·.source) = inventory.eligible.map (·.path)

omit [DecimalDigits] in
theorem sources_of_accounts {observed : Records} {sources : List Source} {results : List SourceResult}
    (accounts : List.Forall₂ (Accounts analysis2 receipts observed) sources results) :
    results.map (·.source) = sources.map (·.path) := by
  induction accounts with
  | nil => rfl
  | cons first _ ih => rw [List.map_cons, List.map_cons, first.named, ih]

theorem reconciles_of_reconcile (reconciled : reconcile analysis2 inventory report receipts = .ok result) :
    Reconciles analysis2 inventory report receipts result := by
  unfold reconcile at reconciled
  rcases bind_eq_ok.mp reconciled with ⟨observed, read, reconciled⟩
  rcases bind_eq_ok.mp reconciled with ⟨excluded, paths, reconciled⟩
  dsimp only at reconciled
  rw [invalid, reject_eq_ok, not_not] at reconciled
  rcases reconciled with ⟨outside, reconciled⟩
  rcases bind_eq_ok.mp reconciled with ⟨sources, computed, same⟩
  cases same
  have accounts : List.Forall₂ (Accounts analysis2 receipts observed) inventory.eligible sources :=
    (forall₂_of_mapM computed).imp fun _ _ reconciled => accounts_of_reconcileSource reconciled
  refine ⟨⟨observed, read, ?_, accounts⟩, sources_of_accounts accounts⟩
  intro entry member
  rcases exists_ok_of_mapM paths entry member with ⟨path, found⟩
  refine ⟨path, okOr_eq_ok.mp found, ?_⟩
  intro there
  have listed : path ∈ excluded := by
    rcases mem_of_forall₂ (forall₂_of_mapM paths).flip entry member with ⟨other, given, stated⟩
    have same := okOr_eq_ok.mp stated
    rw [okOr_eq_ok.mp found] at same
    cases same
    exact given
  rw [List.filter_eq_nil_iff] at outside
  exact outside path there (decide_eq_true listed)

theorem recorded_of_reconcile {source : Source} {expected : List Int}
    (reconciled : reconcile analysis2 inventory report receipts = .ok result) (eligible : source ∈ inventory.eligible)
    (required : Required analysis2 receipts source expected) : ∃ observed, records report = .ok observed ∧
      ∃ record, observed.lookup source.path = some record ∧ ∀ number ∈ expected, number ∈ record.lines.map Prod.fst := by
  rcases (reconciles_of_reconcile reconciled).observed with ⟨observed, read, _, accounts⟩
  rcases mem_of_forall₂ accounts.flip source eligible with ⟨outcome, _, accounted⟩
  exact ⟨observed, read, accounted.recorded expected required⟩

theorem reconcile_loses_nothing :
    (∀ (analysis2 : String → Outcome (List Int)) (inventory : Inventory) (report : List Char)
      (receipts : List (String × CollectorReceipt)) (result : Reconciliation),
        reconcile analysis2 inventory report receipts = .ok result → Reconciles analysis2 inventory report receipts result) ∧
    (∀ (analysis2 : String → Outcome (List Int)) (inventory : Inventory) (report : List Char)
      (receipts : List (String × CollectorReceipt)), ∀ source ∈ inventory.eligible, ∀ expected : List Int,
        Required analysis2 receipts source expected →
          (∀ result, reconcile analysis2 inventory (withoutRecord source.path report) receipts ≠ .ok result) ∧
          ∀ number ∈ expected, ∀ lost, LosesLine source.path number report lost →
            ∀ result, reconcile analysis2 inventory lost receipts ≠ .ok result) ∧
    ∀ (report : List Char) (observed : Records) (excluded : List String), records report = .ok observed →
      ∃ text, filterScope report excluded = .ok text ∧
        (within excluded observed ≠ [] → records text = .ok (within excluded observed)) ∧
        (records text = invalid incomplete ↔ within excluded observed = []) := by
  refine ⟨?_, ?_, ?_⟩
  · intro analysis2 inventory report receipts result reconciled
    exact reconciles_of_reconcile reconciled
  · intro analysis2 inventory report receipts source eligible expected required
    constructor
    · intro result reconciled
      rcases recorded_of_reconcile reconciled eligible required with ⟨observed, read, record, found, _⟩
      rw [records_withoutRecord read] at found
      cases found
    · intro number member lost loses result reconciled
      rcases recorded_of_reconcile reconciled eligible required with ⟨observed, read, record, found, complete⟩
      rcases records_losesLine loses read with ⟨other, same, gone⟩
      rw [found] at same
      cases same
      exact gone (complete number member)
  · intro report observed excluded accepted
    exact filterScope_records accepted

end Runs

/-- A module of documentation only, whose report has a record of another source. -/
def documentedModule : Inventory where
  eligible := [⟨"module.py", "python", [.object [("label", .string "//:lib")]]⟩]
  excluded := []
  missingOwners := []
  baselineSources := some ["module.py"]

def otherReport : List Char := "SF:other.py\nDA:1,1\nLF:1\nLH:1\nend_of_record\n".toList

theorem reconcile_documentedModule : ∃ observed result, @records asciiDigits otherReport = .ok observed ∧
    @reconcile asciiDigits (fun _ => .ok []) documentedModule otherReport [] = .ok result ∧
    ∃ outcome ∈ result.sources, observed.lookup outcome.source = none ∧ outcome.status ≠ .collectorLimit := by
  refine ⟨[("other.py", ⟨[(1, 1)], 1, 1⟩)],
    ⟨1, [⟨"module.py", .noExecutableLines, some "coverage.Coverage.analysis2", some 0, some 0, none⟩], []⟩, ?_, ?_, ?_⟩
  · rfl
  · rfl
  · exact ⟨_, List.mem_singleton_self _, by decide, by decide⟩

end Reconcile

end Coverage

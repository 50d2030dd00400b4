import BazelRepo.MergeVerification.Readings
import Mathlib.Data.Finset.Option

namespace MergeVerification

open Library

section Rows

def Reads {β : Type} (read : Json → Except String (Option β)) (rows : List Json) (entry : β) : Prop :=
  ∃ row ∈ rows, read row = .ok (some entry)

def Latest {ι α : Type} [LinearOrder ι] (read : Json → Except String (Option (ι × α))) (rows : List Json)
    (entry : ι × α) : Prop :=
  Reads read rows entry ∧ ∀ other, Reads read rows other → other.1 ≤ entry.1

def LatestOf {κ ι α : Type} [LinearOrder ι] (key : κ) (read : Json → Except String (Option (κ × ι × α))) (rows : List Json)
    (entry : ι × α) : Prop :=
  Reads read rows (key, entry) ∧ ∀ other, Reads read rows (key, other) → other.1 ≤ entry.1

def rowId (row : Json) : Option Nat := (row.field "id").asU64

variable {β σ : Type}

theorem foldlM_ok {note : σ → β → σ} (entries : List β) : ∀ {s s' : σ},
    entries.foldlM (fun s entry => (.ok (note s entry) : Except String σ)) s = .ok s' ↔ entries.foldl note s = s' := by
  induction entries with
  | nil => simp [pure, Except.pure]
  | cons entry rest ih =>
    intro s s'
    rw [List.foldlM_cons, ok_bind]
    exact ih

theorem foldRows_pure {read : Json → Except String (Option β)} {note : σ → β → σ} {rows : List Json} {s s' : σ} :
    foldRows read (fun s entry => .ok (note s entry)) s rows = .ok s' ↔
      ∃ entries, rows.mapM read = .ok entries ∧ entries.reduceOption.foldl note s = s' := by
  rw [foldRows_eq_ok]
  simp only [foldlM_ok]

theorem reduceOption_perm {entries others : List (Option β)} (perm : entries.Perm others) :
    entries.reduceOption.Perm others.reduceOption := perm.filterMap _

theorem count_id {row : Json} {id : Nat} (counted : count row "id" = .ok id) : rowId row = some id := okOr_eq_ok.mp counted

end Rows

section Keyed

variable {κ α : Type} [Ord κ] [Std.TransOrd κ] [Std.LawfulEqOrd κ] [DecidableEq κ]
  {read : Json → Except String (Option (κ × Nat × α))} {rows others : List Json}

def Numbered (read : Json → Except String (Option (κ × Nat × α))) : Prop :=
  ∀ row entry, read row = .ok (some entry) → rowId row = some entry.2.1

omit [Ord κ] [Std.TransOrd κ] [Std.LawfulEqOrd κ] [DecidableEq κ] in
theorem nodup_numbers (numbered : Numbered read) (distinct : (rows.filterMap rowId).Nodup)
    {entries : List (Option (κ × Nat × α))} (parsed : rows.mapM read = .ok entries) :
    (entries.reduceOption.map (·.2.1)).Nodup :=
  List.Nodup.sublist (nodup_entries numbered parsed) distinct

theorem foldRows_latest (numbered : Numbered read) (distinct : (rows.filterMap rowId).Nodup) {latest : BTreeMap κ (Nat × α)}
    (folded : foldRows read (fun latest entry => .ok (newerAt latest entry)) ∅ rows = .ok latest) {key : κ}
    {entry : Nat × α} : latest[key]? = some entry ↔ LatestOf key read rows entry := by
  rcases foldRows_pure.mp folded with ⟨entries, parsed, rfl⟩
  rw [latest_eq_some (nodup_numbers numbered distinct parsed)]
  unfold Newest LatestOf Reads
  simp only [mem_ofKey, mem_entries parsed]

theorem foldRows_latest_perm (numbered : Numbered read) (distinct : (rows.filterMap rowId).Nodup) (perm : rows.Perm others)
    {latest : BTreeMap κ (Nat × α)}
    (folded : foldRows read (fun latest entry => .ok (newerAt latest entry)) ∅ rows = .ok latest) :
    foldRows read (fun latest entry => .ok (newerAt latest entry)) ∅ others = .ok latest := by
  rcases foldRows_pure.mp folded with ⟨entries, parsed, rfl⟩
  rcases mapM_perm perm parsed with ⟨permuted, parsed', same⟩
  refine foldRows_pure.mpr ⟨permuted, parsed', ?_⟩
  exact (latest_perm (reduceOption_perm same) (nodup_numbers numbered distinct parsed)).symm

end Keyed

section Hosted

variable [Formats] {head : String} {comments others : List Json}

theorem hostedState_id {comment : Json} {entry : (Int ×ₗ Nat) × Json}
    (read : hostedState head comment = .ok (some entry)) : rowId comment = some (ofLex entry.1).2 := by
  unfold hostedState at read
  split at read
  · cases read
  · rcases bind_eq_ok.mp read with ⟨body, _, read⟩
    split at read
    · cases read
    · rcases bind_eq_ok.mp read with ⟨_, _, read⟩
      rcases bind_eq_ok.mp read with ⟨_, _, read⟩
      rcases bind_eq_ok.mp read with ⟨_, _, read⟩
      split at read
      · cases read
      · rcases bind_eq_ok.mp read with ⟨_, _, read⟩
        rcases bind_eq_ok.mp read with ⟨_, _, read⟩
        rcases bind_eq_ok.mp read with ⟨id, counted, read⟩
        cases read
        exact count_id counted

theorem nodup_hosted (distinct : (comments.filterMap rowId).Nodup) {entries : List (Option ((Int ×ₗ Nat) × Json))}
    (parsed : comments.mapM (hostedState head) = .ok entries) : (entries.reduceOption.map Prod.fst).Nodup := by
  have ids := nodup_entries (fun row entry read => hostedState_id read) parsed
  have nodup := List.Nodup.sublist ids distinct
  rw [show (fun entry : (Int ×ₗ Nat) × Json => (ofLex entry.1).2) = (fun order => (ofLex order).2) ∘ Prod.fst from rfl,
    ← List.map_map] at nodup
  exact nodup.of_map _

theorem hosted_eq_ok (distinct : (comments.filterMap rowId).Nodup) {state : Json} :
    hosted comments head = .ok state ↔ (∃ entries, comments.mapM (hostedState head) = .ok entries) ∧
      ∃ order, Latest (hostedState head) comments (order, state) ∧ text state "status" = .ok "completed" ∧
        hasNoFindings state = true := by
  unfold hosted
  simp only [bind_eq_ok, foldRows_pure, okOr_eq_ok, ensure_eq_ok, Bool.and_eq_true, beq_iff_eq]
  apply Iff.intro
  · rintro ⟨_, ⟨entries, parsed, rfl⟩, ⟨order, latest⟩, found, status, read, _, ⟨rfl, clean⟩, same⟩
    cases same
    rw [foldl_newer_eq_some (nodup_hosted distinct parsed)] at found
    refine ⟨⟨entries, parsed⟩, order, ⟨(mem_entries parsed _).mp found.1, ?_⟩, read, clean⟩
    exact fun other member => found.2 other ((mem_entries parsed other).mpr member)
  · rintro ⟨⟨entries, parsed⟩, order, latest, read, clean⟩
    refine ⟨_, ⟨entries, parsed, rfl⟩, (order, state), ?_, _, read, (), ⟨rfl, clean⟩, rfl⟩
    rw [foldl_newer_eq_some (nodup_hosted distinct parsed)]
    refine ⟨(mem_entries parsed _).mpr latest.1, ?_⟩
    exact fun other member => latest.2 other ((mem_entries parsed other).mp member)

theorem hosted_perm (distinct : (comments.filterMap rowId).Nodup) (perm : comments.Perm others) {state : Json}
    (passed : hosted comments head = .ok state) : hosted others head = .ok state := by
  have distinct' : (others.filterMap rowId).Nodup := (perm.filterMap _).nodup_iff.mp distinct
  rcases (hosted_eq_ok distinct).mp passed with ⟨⟨entries, parsed⟩, order, latest, clean⟩
  rcases mapM_perm perm parsed with ⟨permuted, parsed', _⟩
  have reads : ∀ entry, Reads (hostedState head) comments entry ↔ Reads (hostedState head) others entry := by
    intro entry
    unfold Reads
    simp only [perm.mem_iff]
  refine (hosted_eq_ok distinct').mpr ⟨⟨permuted, parsed'⟩, order, ⟨(reads _).mp latest.1, ?_⟩, clean⟩
  exact fun other read => latest.2 other ((reads other).mpr read)

end Hosted

section Reviews

variable {rows others : List Json}

theorem submitted_numbered : Numbered submitted := by
  intro review entry read
  rcases bind_eq_ok.mp read with ⟨state, _, read⟩
  split at read
  · cases read
  · rcases bind_eq_ok.mp read with ⟨_, _, read⟩
    rcases bind_eq_ok.mp read with ⟨id, counted, read⟩
    rcases bind_eq_ok.mp read with ⟨user, _, read⟩
    cases read
    exact count_id counted

theorem reviews_latest (distinct : (rows.filterMap rowId).Nodup) {u : Unit} (passed : reviews rows = .ok u)
    {user id : Nat} {state : String} (last : LatestOf user submitted rows (id, state)) : state ≠ "CHANGES_REQUESTED" := by
  rcases bind_eq_ok.mp passed with ⟨latest, folded, checked⟩
  rintro rfl
  rw [← foldRows_latest submitted_numbered distinct folded, ← BTreeMap.mem_toList] at last
  have quiet := ensure_eq_ok.mp checked
  have asked : latest.toList.any (fun entry => entry.2.2 == "CHANGES_REQUESTED") = true :=
    List.any_eq_true.mpr ⟨_, last, rfl⟩
  rw [asked] at quiet
  cases quiet

theorem reviews_perm (distinct : (rows.filterMap rowId).Nodup) (perm : rows.Perm others) {u : Unit}
    (passed : reviews rows = .ok u) : reviews others = .ok u := by
  rcases bind_eq_ok.mp passed with ⟨latest, folded, checked⟩
  exact bind_eq_ok.mpr ⟨latest, foldRows_latest_perm submitted_numbered distinct perm folded, checked⟩

end Reviews

section Files

def fileEntry (row : Json) : Except String (String × Option String) := do
  let name ← text row "filename"
  let status ← text row "status"
  if status = "renamed" then do
    let previous ← text row "previous_filename"
    .ok (name, some previous)
  else .ok (name, none)

def Touches (row : Json) (path : String) : Prop :=
  text row "filename" = .ok path ∨ text row "status" = .ok "renamed" ∧ text row "previous_filename" = .ok path

theorem fileEntry_touches {row : Json} {entry : String × Option String} (read : fileEntry row = .ok entry) (path : String) :
    Touches row path ↔ path = entry.1 ∨ entry.2 = some path := by
  rcases bind_eq_ok.mp read with ⟨name, named, read⟩
  rcases bind_eq_ok.mp read with ⟨status, stated, read⟩
  unfold Touches
  rw [named, stated]
  split at read
  · rename_i renamed
    rcases bind_eq_ok.mp read with ⟨previous, before, read⟩
    cases read
    rw [renamed, before]
    simp [eq_comm]
  · rename_i kept
    cases read
    simp [eq_comm, kept]

theorem noteFile_eq_ok {sets next : Finset String × Finset String} {row : Json} :
    noteFile sets row = .ok next ↔ ∃ entry, fileEntry row = .ok entry ∧ entry.1 ∉ sets.1 ∧
      next = (insert entry.1 sets.1, entry.2.toFinset ∪ insert entry.1 sets.2) := by
  unfold noteFile fileEntry
  simp only [bind_eq_ok, ensure_eq_ok, decide_eq_true_eq]
  apply Iff.intro
  · rintro ⟨name, named, _, fresh, status, stated, rest⟩
    split at rest
    · rename_i renamed
      rcases bind_eq_ok.mp rest with ⟨previous, before, same⟩
      cases same
      refine ⟨(name, some previous), ⟨name, named, status, stated, ?_⟩, fresh, rfl⟩
      rw [if_pos renamed]
      exact bind_eq_ok.mpr ⟨previous, before, rfl⟩
    · rename_i kept
      cases rest
      refine ⟨(name, none), ⟨name, named, status, stated, if_neg kept⟩, fresh, ?_⟩
      simp
  · rintro ⟨entry, ⟨name, named, status, stated, rest⟩, fresh, rfl⟩
    split at rest
    · rename_i renamed
      rcases bind_eq_ok.mp rest with ⟨previous, before, same⟩
      cases same
      refine ⟨name, named, (), fresh, status, stated, ?_⟩
      rw [if_pos renamed]
      exact bind_eq_ok.mpr ⟨previous, before, rfl⟩
    · rename_i kept
      cases rest
      refine ⟨name, named, (), fresh, status, stated, ?_⟩
      rw [if_neg kept]
      simp

theorem foldlM_noteFile {rows : List Json} : ∀ {sets last : Finset String × Finset String},
    rows.foldlM noteFile sets = .ok last ↔ ∃ entries, rows.mapM fileEntry = .ok entries ∧ (entries.map Prod.fst).Nodup ∧
      (∀ entry ∈ entries, entry.1 ∉ sets.1) ∧ (∀ path, path ∈ last.1 ↔ path ∈ sets.1 ∨ ∃ entry ∈ entries, path = entry.1) ∧
      ∀ path, path ∈ last.2 ↔ path ∈ sets.2 ∨ ∃ entry ∈ entries, path = entry.1 ∨ entry.2 = some path := by
  induction rows with
  | nil =>
    intro sets last
    apply Iff.intro
    · intro run
      cases run
      exact ⟨[], rfl, by simp, by simp, by simp, by simp⟩
    · rintro ⟨entries, read, _, _, names, paths⟩
      cases read
      have same : sets = last := Prod.ext (Finset.ext fun path => by simp [names]) (Finset.ext fun path => by simp [paths])
      rw [same]
      rfl
  | cons row rest ih =>
    intro sets last
    rw [List.foldlM_cons, bind_eq_ok]
    apply Iff.intro
    · rintro ⟨middle, first, run⟩
      rcases noteFile_eq_ok.mp first with ⟨entry, read, fresh, rfl⟩
      rcases ih.mp run with ⟨entries, others, distinct, absent, names, paths⟩
      refine ⟨entry :: entries, mapM_cons_eq_ok.mpr ⟨entry, entries, read, others, rfl⟩, ?_, ?_, ?_, ?_⟩
      · rw [List.map_cons, List.nodup_cons]
        refine ⟨?_, distinct⟩
        intro member
        rcases List.mem_map.mp member with ⟨other, listed, same⟩
        exact absent other listed (same ▸ Finset.mem_insert_self _ _)
      · rw [List.forall_mem_cons]
        exact ⟨fresh, fun other listed member => absent other listed (Finset.mem_insert_of_mem member)⟩
      · intro path
        simp only [names, Finset.mem_insert, List.exists_mem_cons_iff]
        tauto
      · intro path
        simp only [paths, Finset.mem_union, Option.mem_toFinset, Option.mem_def, Finset.mem_insert, List.exists_mem_cons_iff]
        generalize (∃ x ∈ entries, path = x.1 ∨ x.2 = some path) = later
        clear * -
        tauto
    · rintro ⟨all, read, distinct, absent, names, paths⟩
      rcases mapM_cons_eq_ok.mp read with ⟨entry, entries, first, others, rfl⟩
      rw [List.map_cons, List.nodup_cons] at distinct
      rw [List.forall_mem_cons] at absent
      refine ⟨_, noteFile_eq_ok.mpr ⟨entry, first, absent.1, rfl⟩, ih.mpr ⟨entries, others, distinct.2, ?_, ?_, ?_⟩⟩
      · intro other listed member
        rcases Finset.mem_insert.mp member with same | member
        · exact distinct.1 (List.mem_map.mpr ⟨other, listed, same⟩)
        · exact absent.2 other listed member
      · intro path
        simp only [names, Finset.mem_insert, List.exists_mem_cons_iff]
        tauto
      · intro path
        simp only [paths, Finset.mem_union, Option.mem_toFinset, Option.mem_def, Finset.mem_insert, List.exists_mem_cons_iff]
        generalize (∃ x ∈ entries, path = x.1 ∨ x.2 = some path) = later
        clear * -
        tauto

theorem noteFiles_perm {rows others : List Json} (perm : rows.Perm others) {last : Finset String × Finset String}
    (noted : rows.foldlM noteFile (∅, ∅) = .ok last) : others.foldlM noteFile (∅, ∅) = .ok last := by
  rcases foldlM_noteFile.mp noted with ⟨entries, read, distinct, absent, names, paths⟩
  rcases mapM_perm perm read with ⟨permuted, read', same⟩
  refine foldlM_noteFile.mpr ⟨permuted, read', (same.map _).nodup_iff.mp distinct, ?_, ?_, ?_⟩
  · exact fun entry member => absent entry (same.mem_iff.mpr member)
  · simpa only [same.mem_iff] using names
  · simpa only [same.mem_iff] using paths

theorem noteFiles_touches {rows : List Json} {last : Finset String × Finset String}
    (noted : rows.foldlM noteFile (∅, ∅) = .ok last) (path : String) : path ∈ last.2 ↔ ∃ row ∈ rows, Touches row path := by
  rcases foldlM_noteFile.mp noted with ⟨entries, read, _, _, _, paths⟩
  rw [paths]
  apply Iff.intro
  · rintro (none | ⟨entry, member, touched⟩)
    · exact absurd none (Finset.notMem_empty _)
    · rcases (mem_of_mapM read entry).mp member with ⟨row, listed, parsed⟩
      exact ⟨row, listed, (fileEntry_touches parsed path).mpr touched⟩
  · rintro ⟨row, listed, touched⟩
    rcases exists_ok_of_mapM read row listed with ⟨entry, parsed⟩
    exact .inr ⟨entry, (mem_of_mapM read entry).mpr ⟨row, listed, parsed⟩, (fileEntry_touches parsed path).mp touched⟩

end Files

section Trees

variable {rows others : List Json} {entries : BTreeMap String Blob}

theorem readTree_getElem? (read : readTree rows = .ok entries) {path : String} {blob : Blob} :
    entries[path]? = some blob ↔ Reads treeEntry rows (path, blob) := by
  rcases foldRows_eq_ok.mp read with ⟨parsed, each, collected⟩
  rw [(collect_eq_ok.mp collected).2, mem_entries each]
  rfl

theorem readTree_perm (perm : rows.Perm others) (read : readTree rows = .ok entries) : readTree others = .ok entries := by
  rcases foldRows_eq_ok.mp read with ⟨parsed, each, collected⟩
  rcases mapM_perm perm each with ⟨permuted, each', same⟩
  exact foldRows_eq_ok.mpr ⟨permuted, each', collect_perm (reduceOption_perm same) collected⟩

end Trees

section Checks

variable {cli : Cli} {rows others : List Json}

theorem forM_perm {α : Type} {check : α → Except String Unit} {inputs permuted : List α} (perm : inputs.Perm permuted)
    (passed : inputs.forM check = .ok ()) : permuted.forM check = .ok () := by
  rw [forM_eq_ok] at passed ⊢
  exact fun a member => passed a (perm.mem_iff.mpr member)

theorem any_perm {α : Type} {p : α → Bool} {inputs permuted : List α} (perm : inputs.Perm permuted) :
    inputs.any p = permuted.any p := by
  rw [Bool.eq_iff_iff, List.any_eq_true, List.any_eq_true]
  simp only [perm.mem_iff]

def AcceptedRun (cli : Cli) (run : Json) : Prop := text run "head_sha" = .ok cli.head ∧ accepted run = .ok ()

theorem checkRun_eq_ok {differs : String} {run : Json} : checkRun cli differs run = .ok () ↔ AcceptedRun cli run := by
  unfold checkRun AcceptedRun
  simp only [bind_eq_ok, ensure_eq_ok, beq_iff_eq]
  apply Iff.intro
  · rintro ⟨_, named, _, rfl, passed⟩
    exact ⟨named, passed⟩
  · rintro ⟨named, passed⟩
    exact ⟨_, named, (), rfl, passed⟩

theorem acceptRuns_eq_ok : acceptRuns cli rows = .ok () ↔ rows ≠ [] ∧ ∀ run ∈ rows, AcceptedRun cli run := by
  unfold acceptRuns
  simp only [bind_eq_ok, ensure_eq_ok, forM_eq_ok, checkRun_eq_ok, Bool.not_eq_true', List.isEmpty_eq_false_iff]
  exact ⟨fun ⟨_, filled, passed⟩ => ⟨filled, passed⟩, fun ⟨filled, passed⟩ => ⟨(), filled, passed⟩⟩

theorem acceptRuns_perm (perm : rows.Perm others) (passed : acceptRuns cli rows = .ok ()) : acceptRuns cli others = .ok () := by
  rw [acceptRuns_eq_ok] at passed ⊢
  refine ⟨?_, fun run member => passed.2 run (perm.mem_iff.mpr member)⟩
  rintro rfl
  exact passed.1 perm.eq_nil

theorem statusEntry_numbered : Numbered statusEntry := by
  intro status entry read
  rcases bind_eq_ok.mp read with ⟨context, _, read⟩
  rcases bind_eq_ok.mp read with ⟨id, counted, read⟩
  cases read
  exact count_id counted

theorem succeeded_eq_ok {status : Json} : succeeded status = .ok () ↔ text status "state" = .ok "success" := by
  unfold succeeded
  simp only [bind_eq_ok, ensure_eq_ok, beq_iff_eq]
  apply Iff.intro
  · rintro ⟨_, stated, rfl⟩
    exact stated
  · exact fun stated => ⟨_, stated, rfl⟩

theorem latestStatuses_latest (distinct : (rows.filterMap rowId).Nodup) {latest : BTreeMap String (Nat × Json)}
    (passed : latestStatuses rows = .ok latest) :
    (∀ context id status, LatestOf context statusEntry rows (id, status) → text status "state" = .ok "success") ∧
      ∀ context, latest.contains context = true → ∃ status ∈ rows, text status "context" = .ok context := by
  rcases bind_eq_ok.mp passed with ⟨_, folded, later⟩
  rcases bind_eq_ok.mp later with ⟨_, checked, same⟩
  cases same
  rw [forM_eq_ok] at checked
  refine ⟨?_, ?_⟩
  · intro context id status last
    rw [← foldRows_latest statusEntry_numbered distinct folded, ← BTreeMap.mem_toList] at last
    exact succeeded_eq_ok.mp (checked _ last)
  · intro context there
    rw [Std.ExtTreeMap.contains_eq_isSome_getElem?, Option.isSome_iff_exists] at there
    rcases there with ⟨entry, found⟩
    rcases ((foldRows_latest statusEntry_numbered distinct folded).mp found).1 with ⟨status, member, read⟩
    rcases bind_eq_ok.mp read with ⟨name, named, read⟩
    rcases bind_eq_ok.mp read with ⟨id, _, read⟩
    cases read
    exact ⟨status, member, named⟩

theorem latestStatuses_perm (distinct : (rows.filterMap rowId).Nodup) (perm : rows.Perm others)
    {latest : BTreeMap String (Nat × Json)} (passed : latestStatuses rows = .ok latest) : latestStatuses others = .ok latest := by
  rcases bind_eq_ok.mp passed with ⟨collected, folded, later⟩
  exact bind_eq_ok.mpr ⟨collected, foldRows_latest_perm statusEntry_numbered distinct perm folded, later⟩

/-- What must be published: what is fixed, and what the rules and the classic protection of the branch name. -/
inductive Required (expected : List String) (rules : List Json) (classic : Json) : RequiredCheck → Prop where
  | fixed {required : RequiredCheck} (member : required ∈ fixedChecks) : Required expected rules classic required
  | patch (source : isDocumentation expected = false) : Required expected rules classic ("codecov/patch", some 254)
  | ruled {rule check : Json} {checks : List Json} {required : RequiredCheck} (listed : rule ∈ rules)
    (kind : text rule "type" = .ok "required_status_checks")
    (named : list (rule.field "parameters") "required_status_checks" = .ok checks) (member : check ∈ checks)
    (read : requiredCheck "integration_id" check = .ok required) : Required expected rules classic required
  | context {names : List Json} {name : String} (named : list classic "contexts" = .ok names)
    (member : .string name ∈ names) : Required expected rules classic (name, none)
  | check {rows : List Json} {row : Json} {required : RequiredCheck} (named : list classic "checks" = .ok rows)
    (member : row ∈ rows) (read : requiredCheck "app_id" row = .ok required) : Required expected rules classic required

theorem mem_requiredChecks {expected : List String} {classic : Json} {all : List RequiredCheck}
    (collected : requiredChecks expected rows classic = .ok all) {required : RequiredCheck}
    (needed : Required expected rows classic required) : required ∈ all := by
  rcases bind_eq_ok.mp collected with ⟨ruled, ruling, rest⟩
  rcases bind_eq_ok.mp rest with ⟨names, named, rest⟩
  rcases bind_eq_ok.mp rest with ⟨contexts, context, rest⟩
  rcases bind_eq_ok.mp rest with ⟨entries, checked, rest⟩
  rcases bind_eq_ok.mp rest with ⟨checks, check, rest⟩
  cases rest
  simp only [List.mem_append]
  cases needed with
  | fixed member => exact .inl (.inl (.inl (.inl member)))
  | patch source =>
    rw [if_neg (by simp [source])]
    exact .inr (List.mem_singleton_self _)
  | @ruled rule row rows' _ listed kind named' member read =>
    rcases exists_ok_of_mapM ruling rule listed with ⟨some', parsed⟩
    have inside : required ∈ some' := by
      unfold ruleChecks at parsed
      rw [kind, ok_bind, if_pos rfl, named', ok_bind] at parsed
      exact (mem_of_mapM parsed required).mpr ⟨row, member, read⟩
    have whole : some' ∈ ruled := (mem_of_mapM ruling some').mpr ⟨rule, listed, parsed⟩
    exact .inl (.inl (.inl (.inr (List.mem_flatten.mpr ⟨some', whole, inside⟩))))
  | @context names' name named' member =>
    rw [named] at named'
    cases named'
    exact .inl (.inl (.inr ((mem_of_mapM context _).mpr ⟨_, member, rfl⟩)))
  | @check rows' row _ named' member read =>
    rw [checked] at named'
    cases named'
    exact .inl (.inr ((mem_of_mapM check _).mpr ⟨row, member, read⟩))

/-- A check that the required application published, or a status where any application may. -/
def Published (checks statuses : List Json) (required : RequiredCheck) : Prop :=
  (∃ check ∈ checks, (check.field "name").asStr = some required.1 ∧
    ∀ id, required.2 = some id → ((check.field "app").field "id").asU64 = some id) ∨
  (required.2 = none ∧ ∃ status ∈ statuses, text status "context" = .ok required.1)

theorem published_of_isPublished {checks statuses : List Json} {contexts : String → Bool} {required : RequiredCheck}
    (known : ∀ context, contexts context = true → ∃ status ∈ statuses, text status "context" = .ok context)
    (published : isPublished checks contexts required = true) : Published checks statuses required := by
  unfold isPublished at published
  rcases (Bool.or_eq_true ..).mp published with found | found
  · rcases List.any_eq_true.mp found with ⟨check, member, both⟩
    rcases (Bool.and_eq_true ..).mp both with ⟨named, app⟩
    refine .inl ⟨check, member, beq_iff_eq.mp named, ?_⟩
    intro id same
    rw [same] at app
    exact beq_iff_eq.mp app
  · rcases (Bool.and_eq_true ..).mp found with ⟨free, there⟩
    exact .inr ⟨Option.isNone_iff_eq_none.mp free, known _ there⟩

theorem isPublished_perm {contexts : String → Bool} {required : RequiredCheck} (perm : rows.Perm others) :
    isPublished rows contexts required = isPublished others contexts required := by
  unfold isPublished
  rw [any_perm perm]

theorem acceptWorkflows_eq_ok : acceptWorkflows cli rows = .ok () ↔ (∀ run ∈ rows, AcceptedRun cli run) ∧
    ∀ name ∈ ["Bazel Tests", "Coverage"], rows.any (fun run => (run.field "name").asStr == some name) = true := by
  have runs : rows.forM (checkRun cli "workflow head differs") = .ok () ↔ ∀ run ∈ rows, AcceptedRun cli run := by
    simp only [forM_eq_ok, checkRun_eq_ok]
  unfold acceptWorkflows
  simp only [bind_eq_ok, forM_eq_ok, ensure_eq_ok]
  exact ⟨fun ⟨_, passed, named⟩ => ⟨runs.mp passed, named⟩, fun ⟨passed, named⟩ => ⟨(), runs.mpr passed, named⟩⟩

theorem acceptWorkflows_perm (perm : rows.Perm others) (passed : acceptWorkflows cli rows = .ok ()) :
    acceptWorkflows cli others = .ok () := by
  rw [acceptWorkflows_eq_ok] at passed ⊢
  refine ⟨fun run member => passed.1 run (perm.mem_iff.mpr member), ?_⟩
  intro name member
  rw [← any_perm perm]
  exact passed.2 name member

end Checks

end MergeVerification

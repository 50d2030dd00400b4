import BazelRepo.MergeVerification.Evidence

namespace MergeVerification

open Library

variable {remote : Remote} {n m : Nat} {cli : Cli} {expected : List String}

/-- Distinct identifiers in the listings whose rows are told apart by them. -/
def DistinctIds (remote : Remote) : Prop :=
  ∀ n call rows, call ∈ [Call.statuses, .reviews, .comments] → Lists remote n call rows → (rows.filterMap rowId).Nodup

section Steps

theorem run_pull {p : Json} : pull cli remote n = .ok (p, m) ↔
    remote n .pull = .ok (p, true) ∧ checkPull cli p = .ok () ∧ m = n + 1 := by
  unfold pull
  simp only [run_bind, run_lift, run_pure]
  apply Iff.intro
  · rintro ⟨value, k, answered, _, _, ⟨checked, rfl⟩, rfl, rfl⟩
    rcases run_read.mp answered with ⟨found, rfl⟩
    exact ⟨found, checked, rfl⟩
  · rintro ⟨found, checked, rfl⟩
    exact ⟨p, n + 1, run_read.mpr ⟨found, rfl⟩, (), _, ⟨checked, rfl⟩, rfl, rfl⟩

theorem checkFiles_touches {p : Json} {rows : List Json} (checked : checkFiles p expected rows = .ok ()) (path : String) :
    path ∈ expected ↔ ∃ row ∈ rows, Touches row path := by
  unfold checkFiles at checked
  simp only [bind_eq_ok, ensure_eq_ok, decide_eq_true_eq] at checked
  rcases checked with ⟨_, _, _, _, sets, noted, same⟩
  rw [← noteFiles_touches noted, same, List.mem_toFinset]

theorem run_files {p : Json} {rows : List Json} : files cli p expected remote n = .ok (rows, m) ↔
    pages cli .files remote n = .ok (rows, m) ∧ checkFiles p expected rows = .ok () := by
  unfold files
  simp only [run_bind, run_lift, run_pure]
  apply Iff.intro
  · rintro ⟨read, k, answered, _, _, ⟨checked, rfl⟩, rfl, rfl⟩
    exact ⟨answered, checked⟩
  · rintro ⟨answered, checked⟩
    exact ⟨rows, m, answered, (), _, ⟨checked, rfl⟩, rfl, rfl⟩

def TreeRows (remote : Remote) (n : Nat) (sha : String) (rows : List Json) : Prop :=
  ∃ commitValue treeSha value, remote n (.commit sha) = .ok (commitValue, true) ∧
    text (commitValue.field "tree") "sha" = .ok treeSha ∧ remote (n + 1) (.tree treeSha) = .ok (value, true) ∧
    (value.field "truncated").asBool = some false ∧ list value "tree" = .ok rows

theorem run_tree {sha : String} {entries : BTreeMap String Blob} (ran : tree cli sha remote n = .ok (entries, m)) :
    m = n + 2 ∧ ∃ rows, TreeRows remote n sha rows ∧ readTree rows = .ok entries := by
  unfold tree at ran
  simp only [run_bind, run_lift, run_read] at ran
  rcases ran with ⟨_, _, ⟨_, rfl⟩, commitValue, _, ⟨found, rfl⟩, treeSha, _, ⟨named, rfl⟩, value, _, ⟨listed, rfl⟩, read, rfl⟩
  unfold treeOf at named
  unfold treeEntries at read
  simp only [bind_eq_ok, ensure_eq_ok, Except.ok.injEq, Bool.and_eq_true, beq_iff_eq] at named read
  rcases named with ⟨_, _, _, _, _, named, _, _, rfl⟩
  rcases read with ⟨_, _, _, ⟨_, whole⟩, rows, rowsOf, read⟩
  exact ⟨rfl, rows, ⟨commitValue, _, value, found, named, listed, whole, rowsOf⟩, read⟩

end Steps

section After

abbrev Entry (rows : List Json) (path : String) (blob : Blob) : Prop := Reads treeEntry rows (path, blob)

theorem mem_committedPaths {parent merged : BTreeMap String Blob} {path : String} (differs : parent[path]? ≠ merged[path]?) :
    path ∈ committedPaths parent merged := by
  unfold committedPaths paths
  rw [List.mem_toFinset, List.mem_filter, List.mem_append, BTreeMap.mem_keys, BTreeMap.mem_keys]
  refine ⟨?_, by simpa using differs⟩
  cases there : parent[path]? with
  | some blob => exact .inl ⟨blob, rfl⟩
  | none =>
    rw [there] at differs
    rcases Option.ne_none_iff_exists'.mp (Ne.symm differs) with ⟨blob, found⟩
    exact .inr ⟨blob, found⟩

theorem compareTrees_eq_ok {reviewed merged parent : BTreeMap String Blob} :
    compareTrees expected reviewed merged parent = .ok () ↔
      (∀ path ∈ expected, merged[path]? = reviewed[path]?) ∧ ∀ path, path ∉ expected → merged[path]? = parent[path]? := by
  have each : (expected.forM fun file =>
      ensure (reviewed[file]? = merged[file]?) s!"merged file differs from reviewed file: {file}") = .ok () ↔
      ∀ path ∈ expected, reviewed[path]? = merged[path]? := by
    simp only [forM_eq_ok, ensure_eq_ok, decide_eq_true_eq]
  unfold compareTrees
  simp only [bind_eq_ok, ensure_eq_ok, decide_eq_true_eq]
  apply Iff.intro
  · rintro ⟨_, same, within⟩
    refine ⟨fun path member => (each.mp same path member).symm, ?_⟩
    intro path outside
    by_contra differs
    exact outside (List.mem_toFinset.mp (within (mem_committedPaths (Ne.symm differs))))
  · rintro ⟨same, others⟩
    refine ⟨(), each.mpr fun path member => (same path member).symm, ?_⟩
    intro path member
    rw [List.mem_toFinset]
    by_contra outside
    have differs := (List.mem_filter.mp (List.mem_toFinset.mp member)).2
    simp [others path outside] at differs

structure MergedAsReviewed (remote : Remote) (cli : Cli) (expected : List String) (changes reviewed merged parent : List Json) :
    Prop where
  changesListed : Lists remote 1 .files changes
  reviewedTree : TreeRows remote 3 cli.head reviewed
  mergedTree : ∃ pull sha, remote 0 .pull = .ok (pull, true) ∧ text pull "merge_commit_sha" = .ok sha ∧
    TreeRows remote 5 sha merged
  parentTree : ∃ pull sha commit row parentSha, remote 0 .pull = .ok (pull, true) ∧ text pull "merge_commit_sha" = .ok sha ∧
    remote 2 (.commit sha) = .ok (commit, true) ∧ list commit "parents" = .ok [row] ∧ text row "sha" = .ok parentSha ∧
    TreeRows remote 7 parentSha parent
  /-- The reviewed files are the changed ones and the previous names of renamed ones. -/
  files : ∀ path, path ∈ expected ↔ ∃ change ∈ changes, Touches change path
  inside : ∀ path ∈ expected, ∀ blob, Entry merged path blob ↔ Entry reviewed path blob
  outside : ∀ path, path ∉ expected → ∀ blob, Entry merged path blob ↔ Entry parent path blob

theorem after_accepts {evidence : AfterEvidence} (accepts : after cli expected remote 0 = .ok (evidence, m)) :
    ∃ changes reviewed merged parent, MergedAsReviewed remote cli expected changes reviewed merged parent := by
  unfold after at accepts
  simp only [run_bind, run_lift, run_pure, run_pull, run_files, run_read] at accepts
  rcases accepts with ⟨_, _, ⟨_, rfl⟩, initial, _, ⟨opened, _, rfl⟩, _, _, ⟨_, rfl⟩, changes, _, ⟨listed, same⟩, rest⟩
  rcases lists_of_pages listed with ⟨lists, rfl⟩
  rcases rest with ⟨merge, _, ⟨mergeOf, rfl⟩, commitValue, _, ⟨committed, rfl⟩, parentRow, _, ⟨parentOf, rfl⟩, rest⟩
  rcases rest with ⟨reviewedTree, _, reviewing, _, _, ⟨_, rfl⟩, mergedTree, _, merging, parentSha, _, ⟨parentNamed, rfl⟩, rest⟩
  rcases rest with ⟨parentTree, _, parenting, _, _, ⟨compared, rfl⟩, _⟩
  rcases run_tree reviewing with ⟨rfl, reviewed, reviewedRows, readReviewed⟩
  rcases run_tree merging with ⟨rfl, merged, mergedRows, readMerged⟩
  rcases run_tree parenting with ⟨rfl, parent, parentRows, readParent⟩
  have mergeNamed : text initial "merge_commit_sha" = .ok merge := by
    rcases bind_eq_ok.mp mergeOf with ⟨_, named, later⟩
    rcases bind_eq_ok.mp later with ⟨_, _, equal⟩
    cases equal
    exact named
  have single : list commitValue "parents" = .ok [parentRow] := by
    rcases bind_eq_ok.mp parentOf with ⟨_, _, later⟩
    rcases bind_eq_ok.mp later with ⟨_, _, later⟩
    rcases bind_eq_ok.mp later with ⟨parents, found, only⟩
    split at only
    · cases only
      exact found
    · cases only
  rcases compareTrees_eq_ok.mp compared with ⟨inside, outside⟩
  refine ⟨changes, reviewed, merged, parent, ?_⟩
  exact {
    changesListed := lists
    reviewedTree := reviewedRows
    mergedTree := ⟨initial, merge, opened, mergeNamed, mergedRows⟩
    parentTree := ⟨initial, merge, commitValue, parentRow, parentSha, opened, mergeNamed, committed, single, parentNamed, parentRows⟩
    files := checkFiles_touches same
    inside := by
      intro path member blob
      unfold Entry
      rw [← readTree_getElem? readMerged, ← readTree_getElem? readReviewed, inside path member]
    outside := by
      intro path absent blob
      unfold Entry
      rw [← readTree_getElem? readMerged, ← readTree_getElem? readParent, outside path absent] }

end After

section Before

variable [Formats]

omit [Formats] in
theorem run_classic {classic : Json} : classicProtection remote n = .ok (classic, m) → m = n + 1 := by
  intro ran
  unfold classicProtection at ran
  rcases run_bind.mp ran with ⟨⟨value, success⟩, _, answered, later⟩
  rcases run_invoke.mp answered with ⟨_, rfl⟩
  dsimp only at later
  split at later
  · exact (run_pure.mp later).2
  · rcases run_bind.mp later with ⟨_, _, checked, ended⟩
    rcases run_ensure.mp checked with ⟨_, rfl⟩
    exact (run_pure.mp ended).2

structure Mergeable (remote : Remote) (cli : Cli) (expected : List String)
    (checkRuns statuses rules workflows reviewRows comments : List Json) (classic : Json) : Prop where
  checkRunsListed : Lists remote 2 .checkRuns checkRuns
  statusesListed : Lists remote 3 .statuses statuses
  rulesListed : Lists remote 4 .rules rules
  classicRead : classicProtection remote 5 = .ok (classic, 6)
  workflowsListed : Lists remote 6 .workflows workflows
  reviewsListed : Lists remote 7 .reviews reviewRows
  commentsListed : Lists remote 8 .comments comments
  noChangeRequest : ∀ user id state, LatestOf user submitted reviewRows (id, state) → state ≠ "CHANGES_REQUESTED"
  reviewed : ∃ order state, Latest (hostedState cli.head) comments (order, state) ∧
    text state "status" = .ok "completed" ∧ hasNoFindings state = true
  succeeded : ∀ context id status, LatestOf context statusEntry statuses (id, status) → text status "state" = .ok "success"
  checked : ∀ run ∈ checkRuns, AcceptedRun cli run
  worked : ∀ run ∈ workflows, AcceptedRun cli run
  published : ∀ required, Required expected rules classic required → Published checkRuns statuses required

theorem before_accepts (distinct : DistinctIds remote) {evidence : BeforeEvidence}
    (accepts : before cli expected remote 0 = .ok (evidence, m)) :
    ∃ checkRuns statuses rules workflows reviewRows comments classic,
      Mergeable remote cli expected checkRuns statuses rules workflows reviewRows comments classic := by
  unfold before checks at accepts
  simp only [run_bind, run_lift, run_pure, run_pull, run_files] at accepts
  rcases accepts with ⟨_, _, ⟨_, _, rfl⟩, _, _, ⟨_, rfl⟩, _, _, ⟨listed, _⟩, rest⟩
  rcases lists_of_pages listed with ⟨_, rfl⟩
  rcases rest with ⟨_, _, ⟨checkRuns, _, runsListed, _, _, ⟨passed, rfl⟩, rest⟩, afterChecks⟩
  rcases lists_of_pages runsListed with ⟨runsLists, rfl⟩
  rcases rest with ⟨statuses, _, statusesListed, latest, _, ⟨statusesPassed, rfl⟩, rest⟩
  rcases lists_of_pages statusesListed with ⟨statusesLists, rfl⟩
  rcases rest with ⟨rules, _, rulesListed, classic, _, classicRead, rest⟩
  rcases lists_of_pages rulesListed with ⟨rulesLists, rfl⟩
  have next := run_classic classicRead
  subst next
  rcases rest with ⟨required, _, ⟨collected, rfl⟩, _, _, ⟨publishedAll, rfl⟩, workflows, _, workflowsListed, rest⟩
  rcases lists_of_pages workflowsListed with ⟨workflowsLists, rfl⟩
  rcases rest with ⟨_, _, ⟨worked, rfl⟩, _, rfl⟩
  rcases afterChecks with ⟨reviewRows, _, reviewsListed, _, _, ⟨reviewsPassed, rfl⟩, rest⟩
  rcases lists_of_pages reviewsListed with ⟨reviewsLists, rfl⟩
  rcases rest with ⟨comments, _, commentsListed, state, _, ⟨hostedPassed, rfl⟩, _⟩
  rcases lists_of_pages commentsListed with ⟨commentsLists, rfl⟩
  have statusesDistinct := distinct 3 .statuses statuses (by simp) statusesLists
  have statusesLatest := latestStatuses_latest statusesDistinct statusesPassed
  refine ⟨checkRuns, statuses, rules, workflows, reviewRows, comments, classic, ?_⟩
  exact {
    checkRunsListed := runsLists
    statusesListed := statusesLists
    rulesListed := rulesLists
    classicRead := classicRead
    workflowsListed := workflowsLists
    reviewsListed := reviewsLists
    commentsListed := commentsLists
    noChangeRequest := fun user id state => reviews_latest (distinct 7 .reviews reviewRows (by simp) reviewsLists) reviewsPassed
    reviewed := by
      rcases ((hosted_eq_ok (distinct 8 .comments comments (by simp) commentsLists)).mp hostedPassed).2 with ⟨order, found⟩
      exact ⟨order, state, found⟩
    succeeded := statusesLatest.1
    checked := (acceptRuns_eq_ok.mp passed).2
    worked := (acceptWorkflows_eq_ok.mp worked).1
    published := by
      intro named needed
      unfold requirePublished at publishedAll
      rw [forM_eq_ok] at publishedAll
      have found := ensure_eq_ok.mp (publishedAll named (mem_requiredChecks collected needed))
      exact published_of_isPublished statusesLatest.2 found }

end Before

end MergeVerification

import BazelRepo.MergeVerification.Acceptance
import BazelRepo.MergeVerification.Threads

namespace MergeVerification

open Library

variable {remote remote' : Remote}

section Values

def PermutedFields (names : List String) (value value' : Json) : Prop :=
  ∀ name, value'.field name = value.field name ∨ name ∈ names ∧ ∃ rows rows',
    value.field name = .array rows ∧ value'.field name = .array rows' ∧ rows.Perm rows'

def SamePage (key : Option String) (page page' : Json) : Prop :=
  page'.field "total_count" = page.field "total_count" ∧ (pageRows key page').isSome = (pageRows key page).isSome

def PermutedPages (key : Option String) (value value' : Json) : Prop :=
  value' = value ∨ ∃ pages pages', value = .array pages ∧ value' = .array pages' ∧ List.Forall₂ (SamePage key) pages pages' ∧
    (pages.filterMap (pageRows key)).flatten.Perm (pages'.filterMap (pageRows key)).flatten

def Call.Rearranges : Call → Json → Json → Prop
  | pull, value, value' | commit _, value, value' => value' = value
  | tree _, value, value' => PermutedFields ["tree"] value value'
  | classic, value, value' => PermutedFields ["contexts", "checks"] value value'
  | threads _, value, value' => SameShell value value'
  | files, value, value' | statuses, value, value' | rules, value, value' | reviews, value, value' | comments, value, value' =>
    PermutedPages none value value'
  | checkRuns, value, value' => PermutedPages (some "check_runs") value value'
  | workflows, value, value' => PermutedPages (some "workflow_runs") value value'

inductive Rearranges (call : Call) : Response → Response → Prop where
  | failed (failure failure' : String) : Rearranges call (.error failure) (.error failure')
  | printed {value value' : Json} (success : Bool) (same : call.Rearranges value value') :
    Rearranges call (.ok (value, success)) (.ok (value', success))

structure Rearranged (remote remote' : Remote) : Prop where
  each : ∀ n call, Rearranges call (remote n call) (remote' n call)
  /-- The threads are listed from the tenth invocation on, and may move to other pages. -/
  threads : ∀ pages pages', ThreadPages remote 9 none pages → ThreadPages remote' 9 none pages' →
    pages.flatten.Perm pages'.flatten

theorem PermutedFields.symm {names : List String} {value value' : Json} (same : PermutedFields names value value') :
    PermutedFields names value' value := by
  intro name
  rcases same name with equal | ⟨member, rows, rows', found, found', perm⟩
  · exact .inl equal.symm
  · exact .inr ⟨member, rows', rows, found', found, perm.symm⟩

theorem PermutedPages.symm {key : Option String} {value value' : Json} (same : PermutedPages key value value') :
    PermutedPages key value' value := by
  rcases same with equal | ⟨pages, pages', found, found', each, perm⟩
  · exact .inl equal.symm
  · refine .inr ⟨pages', pages, found', found, ?_, perm.symm⟩
    exact (each.imp fun _ _ page => ⟨page.1.symm, page.2.symm⟩).flip

theorem Call.Rearranges.symm {call : Call} {value value' : Json} (same : call.Rearranges value value') :
    call.Rearranges value' value := by
  cases call with
  | pull | commit => exact Eq.symm same
  | tree | classic => exact PermutedFields.symm same
  | threads => exact SameShell.symm same
  | files | statuses | rules | reviews | comments | checkRuns | workflows => exact PermutedPages.symm same

theorem Rearranges.symm {call : Call} {response response' : Response} (same : Rearranges call response response') :
    Rearranges call response' response := by
  cases same with
  | failed failure failure' => exact .failed failure' failure
  | printed success same => exact .printed success same.symm

theorem Rearranged.symm (rearranged : Rearranged remote remote') : Rearranged remote' remote where
  each := fun n call => (rearranged.each n call).symm
  threads := fun pages pages' chain chain' => (rearranged.threads pages' pages chain' chain).symm

end Values

section Pages

theorem mapM_eq_some {α β : Type} {f : α → Option β} {inputs : List α} : ∀ {outputs : List β},
    inputs.mapM f = some outputs ↔ (∀ a ∈ inputs, (f a).isSome = true) ∧ outputs = inputs.filterMap f := by
  induction inputs with
  | nil =>
    intro outputs
    apply Iff.intro
    · intro read
      cases read
      exact ⟨by simp, rfl⟩
    · rintro ⟨_, rfl⟩
      rfl
  | cons a rest ih =>
    intro outputs
    rw [List.mapM_cons, List.forall_mem_cons, List.filterMap_cons]
    cases found : f a with
    | none => simp
    | some b =>
      simp only [Option.bind_eq_bind, Option.bind_some, Option.bind_eq_some_iff, Option.pure_def, Option.some.injEq, ih,
        Option.isSome_some, true_and]
      apply Iff.intro
      · rintro ⟨others, ⟨each, rfl⟩, rfl⟩
        exact ⟨each, rfl⟩
      · rintro ⟨each, rfl⟩
        exact ⟨_, ⟨each, rfl⟩, rfl⟩

theorem rowsOf_rearranged {key : Option String} {value value' : Json} (same : PermutedPages key value value')
    {rows : List Json} (read : rowsOf key value = some rows) : ∃ rows', rowsOf key value' = some rows' ∧ rows.Perm rows' := by
  rcases same with rfl | ⟨pages, pages', rfl, rfl, each, perm⟩
  · exact ⟨rows, read, .refl _⟩
  · unfold rowsOf at read ⊢
    rcases Option.map_eq_some_iff.mp read with ⟨parts, parsed, rfl⟩
    rcases mapM_eq_some.mp parsed with ⟨readable, rfl⟩
    refine ⟨_, Option.map_eq_some_iff.mpr ⟨_, mapM_eq_some.mpr ⟨?_, rfl⟩, rfl⟩, perm⟩
    intro page' member
    rcases mem_of_forall₂ each page' member with ⟨page, listed, related⟩
    exact related.2.trans (readable page listed)

theorem collectPages_rearranged {key : Option String} {value value' : Json} (same : PermutedPages key value value')
    {rows : List Json} (collected : collectPages key value = .ok rows) :
    ∃ rows', collectPages key value' = .ok rows' ∧ rows.Perm rows' := by
  rcases collectPages_eq_ok.mp collected with ⟨pages, parts, found, filled, parsed, rfl, complete⟩
  rcases same with rfl | ⟨_, pages', rfl, rfl, each, perm⟩
  · exact ⟨_, collected, .refl _⟩
  · cases found
    rcases mapM_eq_some.mp parsed with ⟨readable, rfl⟩
    refine ⟨_, collectPages_eq_ok.mpr ⟨pages', _, rfl, ?_, mapM_eq_some.mpr ⟨?_, rfl⟩, rfl, ?_⟩, perm⟩
    · rintro rfl
      cases each
      exact filled rfl
    · intro page' member
      rcases mem_of_forall₂ each page' member with ⟨page, listed, related⟩
      exact related.2.trans (readable page listed)
    · intro keyed page' member
      rcases mem_of_forall₂ each page' member with ⟨page, listed, related⟩
      rw [related.1, complete keyed page listed, perm.length_eq]

def Call.isPaged : Call → Bool
  | files | checkRuns | statuses | rules | workflows | reviews | comments => true
  | _ => false

theorem Call.Rearranges.pages {call : Call} (paged : call.isPaged = true) {value value' : Json}
    (same : call.Rearranges value value') : PermutedPages call.collection value value' := by
  cases call with
  | files | statuses | rules | reviews | comments | checkRuns | workflows => exact same
  | pull | commit | tree | classic | threads => cases paged

theorem Rearranged.answer (rearranged : Rearranged remote remote') {n : Nat} {call : Call} {value : Json} {success : Bool}
    (answered : remote n call = .ok (value, success)) :
    ∃ value', remote' n call = .ok (value', success) ∧ call.Rearranges value value' := by
  have each := rearranged.each n call
  rw [answered] at each
  generalize given : remote' n call = response at each
  cases each with
  | printed _ same => exact ⟨_, rfl, same⟩

theorem DistinctIds.rearranged (distinct : DistinctIds remote) (rearranged : Rearranged remote remote') : DistinctIds remote' := by
  intro n call rows' member lists
  have paged : call.isPaged = true := by
    simp only [List.mem_cons, List.not_mem_nil, or_false] at member
    rcases member with rfl | rfl | rfl <;> rfl
  rcases lists with ⟨value', answered, read⟩
  rcases rearranged.symm.answer answered with ⟨value, answered', same⟩
  rcases rowsOf_rearranged (same.pages paged) read with ⟨rows, read', perm⟩
  exact (perm.filterMap _).nodup_iff.mpr (distinct n call rows member ⟨value, answered', read'⟩)

end Pages

section Runs

variable {α α' β β' : Type}

def Carries (remote remote' : Remote) (n : Nat) (x : Verifying α) (y : Verifying β) (rel : Nat → α → β → Prop) : Prop :=
  ∀ a m, x remote n = .ok (a, m) → ∃ b, y remote' n = .ok (b, m) ∧ rel m a b

variable {n : Nat} {x : Verifying α} {y : Verifying β} {rel : Nat → α → β → Prop}

theorem Carries.bind {f : α → Verifying α'} {g : β → Verifying β'} {rel' : Nat → α' → β' → Prop}
    (first : Carries remote remote' n x y rel)
    (second : ∀ m a b, rel m a b → Carries remote remote' m (f a) (g b) rel') :
    Carries remote remote' n (x >>= f) (y >>= g) rel' := by
  intro c m ran
  rcases run_bind.mp ran with ⟨a, k, ran, later⟩
  rcases first a k ran with ⟨b, ran', related⟩
  rcases second k a b related c m later with ⟨d, later', related'⟩
  exact ⟨d, run_bind.mpr ⟨b, k, ran', later'⟩, related'⟩

theorem carries_lift {x : Except String α} {y : Except String β} (passes : ∀ a, x = .ok a → ∃ b, y = .ok b ∧ rel n a b) :
    Carries remote remote' n (liftM x) (liftM y) rel := by
  intro a m ran
  rcases run_lift.mp ran with ⟨passed, rfl⟩
  rcases passes a passed with ⟨b, passed', related⟩
  exact ⟨b, run_lift.mpr ⟨passed', rfl⟩, related⟩

theorem carries_check {x y : Except String Unit} (passes : x = .ok () → y = .ok ()) :
    Carries remote remote' n (liftM x) (liftM y) fun m _ _ => m = n :=
  carries_lift fun _ passed => ⟨(), passes passed, rfl⟩

theorem carries_value {x y : Except String α} (passes : ∀ a, x = .ok a → y = .ok a) :
    Carries remote remote' n (liftM x) (liftM y) fun m a b => m = n ∧ b = a :=
  carries_lift fun a passed => ⟨a, passes a passed, rfl, rfl⟩

theorem carries_pure {a : α} {b : β} (holds : rel n a b) : Carries remote remote' n (pure a) (pure b) rel := by
  intro c m ran
  rcases run_pure.mp ran with ⟨rfl, rfl⟩
  exact ⟨b, run_pure.mpr ⟨rfl, rfl⟩, holds⟩

end Runs

section Reading

variable {cli : Cli} {expected : List String} {n : Nat}

theorem carries_read (rearranged : Rearranged remote remote') (call : Call) :
    Carries remote remote' n (read cli call) (read cli call) fun m value value' => m = n + 1 ∧ call.Rearranges value value' := by
  intro value m ran
  rcases run_read.mp ran with ⟨answered, rfl⟩
  rcases rearranged.answer answered with ⟨value', answered', same⟩
  exact ⟨value', run_read.mpr ⟨answered', rfl⟩, rfl, same⟩

theorem carries_pages (rearranged : Rearranged remote remote') {call : Call} (paged : call.isPaged = true) :
    Carries remote remote' n (pages cli call) (pages cli call) fun m rows rows' =>
      m = n + 1 ∧ rows.Perm rows' ∧ Lists remote n call rows := by
  intro rows m ran
  rcases lists_of_pages ran with ⟨lists, rfl⟩
  rcases run_pages.mp ran with ⟨value, answered, collected, _⟩
  rcases rearranged.answer answered with ⟨value', answered', same⟩
  rcases collectPages_rearranged (same.pages paged) collected with ⟨rows', collected', perm⟩
  exact ⟨rows', run_pages.mpr ⟨value', answered', collected', rfl⟩, rfl, perm, lists⟩

theorem carries_pull (rearranged : Rearranged remote remote') :
    Carries remote remote' n (pull cli) (pull cli) fun m p p' => m = n + 1 ∧ p' = p := by
  apply (carries_read rearranged .pull).bind
  rintro _ p p' ⟨rfl, same⟩
  have same : p' = p := same
  subst same
  apply (carries_check id).bind
  rintro _ _ _ rfl
  exact carries_pure ⟨rfl, rfl⟩

theorem carries_files (rearranged : Rearranged remote remote') (p : Json) :
    Carries remote remote' n (files cli p expected) (files cli p expected) fun m rows rows' => m = n + 1 ∧ rows.Perm rows' := by
  apply (carries_pages rearranged rfl).bind
  rintro _ rows rows' ⟨rfl, perm, _⟩
  have passes : checkFiles p expected rows = .ok () → checkFiles p expected rows' = .ok () := by
    unfold checkFiles
    simp only [bind_eq_ok, ensure_eq_ok, perm.length_eq]
    rintro ⟨number, counted, _, complete, sets, noted, same⟩
    exact ⟨number, counted, (), complete, sets, noteFiles_perm perm noted, same⟩
  apply (carries_check passes).bind
  rintro _ _ _ rfl
  exact carries_pure ⟨rfl, perm⟩

theorem PermutedFields.other {names : List String} {value value' : Json} (same : PermutedFields names value value')
    {name : String} (other : name ∉ names) : value'.field name = value.field name := by
  rcases same name with equal | ⟨member, _⟩
  · exact equal
  · exact absurd member other

theorem PermutedFields.list {names : List String} {value value' : Json} (same : PermutedFields names value value')
    {name : String} {rows : List Json} (listed : list value name = .ok rows) :
    ∃ rows', list value' name = .ok rows' ∧ rows.Perm rows' := by
  unfold MergeVerification.list at listed ⊢
  rcases same name with equal | ⟨_, found, found', here, there, perm⟩
  · rw [equal]
    exact ⟨rows, listed, .refl _⟩
  · rw [here] at listed
    rw [there]
    cases listed
    exact ⟨found', rfl, perm⟩

theorem carries_classic (rearranged : Rearranged remote remote') :
    Carries remote remote' n classicProtection classicProtection fun m classic classic' =>
      m = n + 1 ∧ PermutedFields ["contexts", "checks"] classic classic' := by
  intro classic m ran
  rcases run_bind.mp ran with ⟨⟨value, success⟩, _, answered, later⟩
  rcases run_invoke.mp answered with ⟨printed, rfl⟩
  rcases rearranged.answer printed with ⟨value', printed', same⟩
  have same : PermutedFields ["contexts", "checks"] value value' := same
  have next := run_classic ran
  subst next
  have status := same.other (show "status" ∉ ["contexts", "checks"] by decide)
  have message := same.other (show "message" ∉ ["contexts", "checks"] by decide)
  dsimp only at later
  unfold classicProtection
  split at later
  · rename_i unprotectedBranch
    rcases run_pure.mp later with ⟨rfl, _⟩
    refine ⟨unprotected, run_bind.mpr ⟨(value', success), n + 1, run_invoke.mpr ⟨printed', rfl⟩, ?_⟩, rfl, fun _ => .inl rfl⟩
    dsimp only
    rw [status, message, if_pos unprotectedBranch]
    exact run_pure.mpr ⟨rfl, rfl⟩
  · rename_i protectedBranch
    rcases run_bind.mp later with ⟨_, _, checked, ended⟩
    rcases run_ensure.mp checked with ⟨succeeds, rfl⟩
    rcases run_pure.mp ended with ⟨rfl, _⟩
    refine ⟨value', run_bind.mpr ⟨(value', success), n + 1, run_invoke.mpr ⟨printed', rfl⟩, ?_⟩, rfl, same⟩
    dsimp only
    rw [status, message, if_neg protectedBranch]
    exact run_bind.mpr ⟨(), n + 1, run_ensure.mpr ⟨succeeds, rfl⟩, run_pure.mpr ⟨rfl, rfl⟩⟩

theorem requiredChecks_perm {rules rules' : List Json} (perm : rules.Perm rules') {classic classic' : Json}
    (same : PermutedFields ["contexts", "checks"] classic classic') {all : List RequiredCheck}
    (collected : requiredChecks expected rules classic = .ok all) :
    ∃ all', requiredChecks expected rules' classic' = .ok all' ∧ all.Perm all' := by
  rcases bind_eq_ok.mp collected with ⟨ruled, ruling, rest⟩
  rcases bind_eq_ok.mp rest with ⟨names, named, rest⟩
  rcases bind_eq_ok.mp rest with ⟨contexts, context, rest⟩
  rcases bind_eq_ok.mp rest with ⟨entries, listed, rest⟩
  rcases bind_eq_ok.mp rest with ⟨checks, check, rest⟩
  cases rest
  rcases mapM_perm perm ruling with ⟨ruled', ruling', ruledPerm⟩
  rcases same.list named with ⟨names', named', namesPerm⟩
  rcases mapM_perm namesPerm context with ⟨contexts', context', contextsPerm⟩
  rcases same.list listed with ⟨entries', listed', entriesPerm⟩
  rcases mapM_perm entriesPerm check with ⟨checks', check', checksPerm⟩
  refine ⟨_, bind_eq_ok.mpr ⟨ruled', ruling', bind_eq_ok.mpr ⟨names', named', bind_eq_ok.mpr ⟨contexts', context',
    bind_eq_ok.mpr ⟨entries', listed', bind_eq_ok.mpr ⟨checks', check', rfl⟩⟩⟩⟩⟩, ?_⟩
  exact ((((List.Perm.refl _).append ruledPerm.flatten).append contextsPerm).append checksPerm).append_right _

theorem carries_checks (rearranged : Rearranged remote remote') (distinct : DistinctIds remote) :
    Carries remote remote' n (checks cli expected) (checks cli expected) fun m _ _ => m = n + 5 := by
  apply (carries_pages rearranged rfl).bind
  rintro _ runs runs' ⟨rfl, runsPerm, _⟩
  apply (carries_check (acceptRuns_perm runsPerm)).bind
  rintro _ _ _ rfl
  apply (carries_pages rearranged rfl).bind
  rintro _ statuses statuses' ⟨rfl, statusesPerm, lists⟩
  have statusesDistinct := distinct _ .statuses statuses (by simp) lists
  apply (carries_value fun latest passed => latestStatuses_perm statusesDistinct statusesPerm passed).bind
  rintro _ _ latest ⟨rfl, rfl⟩
  apply (carries_pages rearranged rfl).bind
  rintro _ rules rules' ⟨rfl, rulesPerm, _⟩
  apply (carries_classic rearranged).bind
  rintro _ classic classic' ⟨rfl, classicSame⟩
  have collects : Carries remote remote' (n + 1 + 1 + 1 + 1) (liftM (requiredChecks expected rules classic))
      (liftM (requiredChecks expected rules' classic')) fun m all all' => m = n + 1 + 1 + 1 + 1 ∧ all.Perm all' := by
    apply carries_lift
    intro all collected
    rcases requiredChecks_perm rulesPerm classicSame collected with ⟨all', collected', perm⟩
    exact ⟨all', collected', rfl, perm⟩
  apply collects.bind
  rintro _ all all' ⟨rfl, requiredPerm⟩
  have publishes : requirePublished runs latest all = .ok () → requirePublished runs' latest all' = .ok () := by
    intro published
    unfold requirePublished at published ⊢
    simp only [← isPublished_perm runsPerm]
    exact forM_perm requiredPerm published
  apply (carries_check publishes).bind
  rintro _ _ _ rfl
  apply (carries_pages rearranged rfl).bind
  rintro _ workflows workflows' ⟨rfl, workflowsPerm, _⟩
  apply (carries_check (acceptWorkflows_perm workflowsPerm)).bind
  rintro _ _ _ rfl
  exact carries_pure rfl

end Reading

section Verdicts

variable {cli : Cli} {expected : List String}

theorem carries_threads (rearranged : Rearranged remote remote') :
    Carries remote remote' 9 threads threads fun _ rows rows' => rows.Perm rows' := by
  intro rows m ran
  have agree : ShellsAgree remote remote' := by
    intro n cursor value success printed
    exact rearranged.answer printed
  rcases threads_alike agree ran with ⟨rows', ran'⟩
  rcases pages_of_threads ran with ⟨pages, chain, rfl⟩
  rcases pages_of_threads ran' with ⟨pages', chain', rfl⟩
  exact ⟨_, ran', rearranged.threads pages pages' chain chain'⟩

theorem carries_before [Formats] (rearranged : Rearranged remote remote') (distinct : DistinctIds remote) :
    Carries remote remote' 0 (before cli expected) (before cli expected) fun _ _ _ => True := by
  apply (carries_pull rearranged).bind
  rintro _ _ initial ⟨rfl, rfl⟩
  apply (carries_check id).bind
  rintro _ _ _ rfl
  apply (carries_files rearranged initial).bind
  rintro _ _ _ ⟨rfl, _⟩
  apply (carries_checks rearranged distinct).bind
  rintro _ _ _ rfl
  apply (carries_pages rearranged rfl).bind
  rintro _ reviewRows reviewRows' ⟨rfl, reviewsPerm, reviewsList⟩
  have reviewsDistinct := distinct _ .reviews reviewRows (by simp) reviewsList
  apply (carries_check (reviews_perm reviewsDistinct reviewsPerm)).bind
  rintro _ _ _ rfl
  apply (carries_pages rearranged rfl).bind
  rintro _ comments comments' ⟨rfl, commentsPerm, commentsList⟩
  have commentsDistinct := distinct _ .comments comments (by simp) commentsList
  apply (carries_value fun state passed => hosted_perm commentsDistinct commentsPerm passed).bind
  rintro _ _ state ⟨rfl, rfl⟩
  apply (carries_threads rearranged).bind
  rintro m threads threads' threadsPerm
  apply (carries_check (forM_perm threadsPerm)).bind
  rintro _ _ _ rfl
  apply (carries_pull rearranged).bind
  rintro _ _ final ⟨rfl, rfl⟩
  apply (carries_check id).bind
  rintro _ _ _ rfl
  exact carries_pure trivial

theorem carries_tree (rearranged : Rearranged remote remote') (n : Nat) (sha : String) :
    Carries remote remote' n (tree cli sha) (tree cli sha) fun _ entries entries' => entries' = entries := by
  apply (carries_check id).bind
  rintro _ _ _ rfl
  apply (carries_read rearranged (.commit sha)).bind
  rintro _ commitValue commitValue' ⟨rfl, same⟩
  have same : commitValue' = commitValue := same
  subst same
  apply (carries_value fun _ passed => passed).bind
  rintro _ _ treeSha ⟨rfl, rfl⟩
  apply (carries_read rearranged (.tree treeSha)).bind
  rintro _ value value' ⟨rfl, same⟩
  have same : PermutedFields ["tree"] value value' := same
  apply carries_lift
  intro entries read
  refine ⟨entries, ?_, rfl⟩
  unfold treeEntries text at read ⊢
  rw [same.other (show "sha" ∉ ["tree"] by decide), same.other (show "truncated" ∉ ["tree"] by decide)]
  rcases bind_eq_ok.mp read with ⟨named, shaRead, later⟩
  rcases bind_eq_ok.mp later with ⟨_, whole, later⟩
  rcases bind_eq_ok.mp later with ⟨rows, listed, read⟩
  rcases same.list listed with ⟨rows', listed', perm⟩
  exact bind_eq_ok.mpr ⟨named, shaRead, bind_eq_ok.mpr ⟨(), whole, bind_eq_ok.mpr ⟨rows', listed', readTree_perm perm read⟩⟩⟩

theorem carries_after (rearranged : Rearranged remote remote') :
    Carries remote remote' 0 (after cli expected) (after cli expected) fun _ _ _ => True := by
  apply (carries_check id).bind
  rintro _ _ _ rfl
  apply (carries_pull rearranged).bind
  rintro _ _ initial ⟨rfl, rfl⟩
  apply (carries_check id).bind
  rintro _ _ _ rfl
  apply (carries_files rearranged initial).bind
  rintro _ changes changes' ⟨rfl, changesPerm⟩
  apply (carries_value fun _ passed => passed).bind
  rintro _ _ merge ⟨rfl, rfl⟩
  apply (carries_read rearranged (.commit merge)).bind
  rintro _ commitValue commitValue' ⟨rfl, same⟩
  have same : commitValue' = commitValue := same
  subst same
  apply (carries_value fun _ passed => passed).bind
  rintro _ _ parentRow ⟨rfl, rfl⟩
  apply (carries_tree rearranged _ cli.head).bind
  rintro _ _ reviewed rfl
  apply (carries_check (forM_perm changesPerm)).bind
  rintro _ _ _ rfl
  apply (carries_tree rearranged _ merge).bind
  rintro _ _ merged rfl
  apply (carries_value fun _ passed => passed).bind
  rintro _ _ parentSha ⟨rfl, rfl⟩
  apply (carries_tree rearranged _ parentSha).bind
  rintro _ _ parent rfl
  apply (carries_check id).bind
  rintro _ _ _ rfl
  apply (carries_pull rearranged).bind
  rintro _ _ final ⟨rfl, rfl⟩
  apply (carries_check id).bind
  rintro _ _ _ rfl
  exact carries_pure trivial

def Accepts {α : Type} (verify : Verifying α) (remote : Remote) : Prop := ∃ evidence m, verify remote 0 = .ok (evidence, m)

theorem Carries.accepts {α β : Type} {x : Verifying α} {y : Verifying β} {rel : Nat → α → β → Prop}
    (carries : Carries remote remote' 0 x y rel) (accepts : Accepts x remote) : Accepts y remote' := by
  rcases accepts with ⟨evidence, m, ran⟩
  rcases carries evidence m ran with ⟨evidence', ran', _⟩
  exact ⟨evidence', m, ran'⟩

/-- What is accepted is as it should be, and the order of rows decides nothing. -/
theorem acceptance_is_sound [Formats] (cli : Cli) (expected : List String) (distinct : DistinctIds remote) :
    (Accepts (after cli expected) remote → ∃ changes reviewed merged parent,
      MergedAsReviewed remote cli expected changes reviewed merged parent) ∧
    (Accepts (before cli expected) remote → ∃ checkRuns statuses rules workflows reviewRows comments classic,
      Mergeable remote cli expected checkRuns statuses rules workflows reviewRows comments classic) ∧
    ∀ remote', Rearranged remote remote' →
      (Accepts (before cli expected) remote ↔ Accepts (before cli expected) remote') ∧
      (Accepts (after cli expected) remote ↔ Accepts (after cli expected) remote') := by
  refine ⟨?_, ?_, ?_⟩
  · rintro ⟨_, _, ran⟩
    exact after_accepts ran
  · rintro ⟨_, _, ran⟩
    exact before_accepts distinct ran
  · intro remote' rearranged
    have distinct' := distinct.rearranged rearranged
    exact ⟨⟨(carries_before rearranged distinct).accepts, (carries_before rearranged.symm distinct').accepts⟩,
      ⟨(carries_after rearranged).accepts, (carries_after rearranged.symm).accepts⟩⟩

def sampleHead : String := "aaaaaaaaaaaaaaaaaaaaaaaaaaaaaaaaaaaaaaaa"

def sampleCli : Cli := ⟨"LowkeyLab/bazel-repo", 7, sampleHead, none⟩

def samplePull : Json := .object [("number", .number (.integer 7)), ("state", .string "open"), ("merged", .bool false),
  ("mergeable", .bool true), ("changed_files", .number (.integer 1)), ("head", .object [("sha", .string sampleHead)]),
  ("base", .object [("ref", .string "main"), ("sha", .string sampleHead),
    ("repo", .object [("full_name", .string "LowkeyLab/bazel-repo")])])]

def sampleRun (name : String) : Json := .object [("name", .string name), ("head_sha", .string sampleHead),
  ("status", .string "completed"), ("conclusion", .string "success"), ("app", .object [("id", .number (.integer 15368))])]

def sampleComment (id : Int) : Json := .object [("id", .number (.integer id)), ("created_at", .string "now"),
  ("body", .string "<!-- codex-review-state:v1 {} -->"), ("user", .object [("id", .number (.integer 199175422)),
    ("login", .string "chatgpt-codex-connector[bot]"), ("type", .string "Bot")])]

/-- A documentation change that may be merged, whose comments stand on two pages. -/
def sampleRemote (comments : List Json) (_ : Nat) : Call → Response
  | .pull => .ok (samplePull, true)
  | .files => .ok (.array [.array [.object [("filename", .string "a.md"), ("status", .string "modified")]]], true)
  | .checkRuns => .ok (.array [.object [("total_count", .number (.integer 3)),
      ("check_runs", .array (["test", "lint", "format"].map sampleRun))]], true)
  | .statuses | .rules | .reviews => .ok (.array [.array []], true)
  | .classic => .ok (unprotected, true)
  | .workflows => .ok (.array [.object [("total_count", .number (.integer 2)),
      ("workflow_runs", .array (["Bazel Tests", "Coverage"].map sampleRun))]], true)
  | .comments => .ok (.array (comments.map fun comment => .array [comment]), true)
  | .threads _ => .ok (.object [("data", .object [("repository", .object [("pullRequest", .object [("reviewThreads",
      .object [("totalCount", .number (.integer 0)), ("nodes", .array []),
        ("pageInfo", .object [("hasNextPage", .bool false)])])])])])], true)
  | .commit _ | .tree _ => .error "not found"

def sampleState : Json := .object [("code_review", .object [("commit_sha", .string sampleHead), ("status", .string "completed"),
  ("has_any_findings", .bool false), ("has_unresolved_findings", .bool false)])]

theorem sample_rearranged : Rearranged (sampleRemote [sampleComment 1, sampleComment 2])
    (sampleRemote [sampleComment 2, sampleComment 1]) where
  each := by
    intro n call
    cases call with
    | commit | tree => exact .failed _ _
    | pull => exact .printed true rfl
    | classic => exact .printed true fun _ => .inl rfl
    | threads => exact .printed true ⟨rfl, rfl, rfl, rfl⟩
    | files | checkRuns | statuses | rules | workflows | reviews => exact .printed true (.inl rfl)
    | comments =>
      refine .printed true (.inr ⟨[.array [sampleComment 1], .array [sampleComment 2]],
        [.array [sampleComment 2], .array [sampleComment 1]], rfl, rfl, ?_, .swap _ _ _⟩)
      exact .cons ⟨rfl, rfl⟩ (.cons ⟨rfl, rfl⟩ .nil)
  threads := by
    have nothing : ∀ comments pages, ThreadPages (sampleRemote comments) 9 none pages → pages = [[]] := by
      intro comments pages chain
      cases chain with
      | last printed listed _ =>
        cases printed
        cases listed
        rfl
      | more printed _ further =>
        cases printed
        cases further
    intro pages pages' chain chain'
    rw [nothing _ pages chain, nothing _ pages' chain']

theorem acceptance_is_sound_sample : ∃ _ : Formats, Accepts (before sampleCli ["a.md"]) (sampleRemote [sampleComment 2, sampleComment 1]) := by
  let formats : Formats := ⟨fun _ => some sampleState, fun _ => some 0⟩
  have distinct : DistinctIds (sampleRemote [sampleComment 1, sampleComment 2]) := by
    rintro n call rows member ⟨value, answered, read⟩
    simp only [List.mem_cons, List.not_mem_nil, or_false] at member
    rcases member with rfl | rfl | rfl <;> cases answered <;> cases read <;> decide
  have passes : (before sampleCli ["a.md"] (sampleRemote [sampleComment 1, sampleComment 2]) 0).isOk = true := by
    decide +kernel
  rcases exists_eq_ok passes with ⟨⟨evidence, m⟩, accepted⟩
  exact ⟨formats, (((acceptance_is_sound sampleCli ["a.md"] distinct).2.2 _ sample_rearranged).1).mp ⟨evidence, m, accepted⟩⟩

end Verdicts

end MergeVerification

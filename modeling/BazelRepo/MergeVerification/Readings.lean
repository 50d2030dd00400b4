import BazelRepo.MergeVerification.Verify

namespace MergeVerification

open Library

variable {α β : Type} {remote : Remote} {n m : Nat}

section Runs

theorem ensure_eq_ok {condition : Bool} {message : String} {u : Unit} :
    ensure condition message = .ok u ↔ condition = true := by
  unfold ensure
  cases condition <;> simp

theorem run_bind {x : Verifying α} {f : α → Verifying β} {b : β} :
    (x >>= f) remote n = .ok (b, m) ↔ ∃ a k, x remote n = .ok (a, k) ∧ f a remote k = .ok (b, m) := by
  show (x remote n >>= fun result => f result.1 remote result.2) = _ ↔ _
  rw [bind_eq_ok]
  apply Iff.intro
  · rintro ⟨⟨a, k⟩, first, second⟩
    exact ⟨a, k, first, second⟩
  · rintro ⟨a, k, first, second⟩
    exact ⟨(a, k), first, second⟩

theorem run_lift {x : Except String α} {a : α} : (liftM x : Verifying α) remote n = .ok (a, m) ↔ x = .ok a ∧ m = n := by
  show (x >>= fun a => .ok (a, n)) = _ ↔ _
  rw [bind_eq_ok]
  apply Iff.intro
  · rintro ⟨_, first, same⟩
    cases same
    exact ⟨first, rfl⟩
  · rintro ⟨first, rfl⟩
    exact ⟨a, first, rfl⟩

theorem run_ensure {condition : Bool} {message : String} {u : Unit} :
    (liftM (ensure condition message) : Verifying Unit) remote n = .ok (u, m) ↔ condition = true ∧ m = n := by
  rw [run_lift, ensure_eq_ok]

theorem run_pure {a b : α} : (pure a : Verifying α) remote n = .ok (b, m) ↔ b = a ∧ m = n := by
  show Except.ok (a, n) = .ok (b, m) ↔ _
  simp [eq_comm]

theorem run_invoke {call : Call} {response : Json × Bool} :
    invoke call remote n = .ok (response, m) ↔ remote n call = .ok response ∧ m = n + 1 := by
  show (remote n call >>= fun response => .ok (response, n + 1)) = _ ↔ _
  rw [bind_eq_ok]
  apply Iff.intro
  · rintro ⟨_, first, same⟩
    cases same
    exact ⟨first, rfl⟩
  · rintro ⟨first, rfl⟩
    exact ⟨response, first, rfl⟩

theorem run_read {cli : Cli} {call : Call} {value : Json} :
    read cli call remote n = .ok (value, m) ↔ remote n call = .ok (value, true) ∧ m = n + 1 := by
  unfold read
  rw [run_bind]
  apply Iff.intro
  · rintro ⟨⟨printed, success⟩, k, answered, rest⟩
    rcases run_bind.mp rest with ⟨_, _, checked, later⟩
    rcases run_ensure.mp checked with ⟨rfl, rfl⟩
    rcases run_pure.mp later with ⟨rfl, rfl⟩
    exact run_invoke.mp answered
  · intro answered
    refine ⟨(value, true), m, run_invoke.mpr answered, ?_⟩
    exact run_bind.mpr ⟨(), m, run_ensure.mpr ⟨rfl, rfl⟩, run_pure.mpr ⟨rfl, rfl⟩⟩

end Runs

section Pages

def rowsOf (key : Option String) (value : Json) : Option (List Json) :=
  value.asArray.bind fun pages => (pages.mapM (pageRows key)).map List.flatten

def Lists (remote : Remote) (n : Nat) (call : Call) (rows : List Json) : Prop :=
  ∃ value, remote n call = .ok (value, true) ∧ rowsOf call.collection value = some rows

def Counted (total : Option Nat) (page : Json) : Prop :=
  ∀ number, total = some number → (page.field "total_count").asU64 = some number

theorem notePage_first {key : Option String} {next : Option Nat × List Json} {page : Json} :
    notePage key (none, []) page = .ok next ↔
      pageRows key page = some next.2 ∧ next.1.isSome = key.isSome ∧ Counted next.1 page := by
  rcases next with ⟨total, rows⟩
  cases key with
  | none =>
    simp only [notePage, bind_eq_ok, okOr_eq_ok, Except.ok.injEq, Prod.mk.injEq, pageRows, List.nil_append]
    apply Iff.intro
    · rintro ⟨_, found, rfl, rfl⟩
      refine ⟨found, rfl, ?_⟩
      intro number same
      cases same
    · rintro ⟨found, same, _⟩
      exact ⟨rows, found, (Option.isNone_iff_eq_none.mp (by simpa using same)).symm, rfl⟩
  | some key =>
    simp only [notePage, bind_eq_ok, okOr_eq_ok, ensure_eq_ok, Except.ok.injEq, Prod.mk.injEq, pageRows, List.nil_append]
    apply Iff.intro
    · rintro ⟨number, counted, _, _, _, found, rfl, rfl⟩
      refine ⟨found, rfl, ?_⟩
      rintro _ ⟨⟩
      exact counted
    · rintro ⟨found, same, counted⟩
      rcases Option.isSome_iff_exists.mp same with ⟨number, rfl⟩
      exact ⟨number, counted number rfl, (), rfl, rows, found, rfl, rfl⟩

theorem notePage_next {key : Option String} {total : Option Nat} (steady : total.isSome = key.isSome) {before : List Json}
    {next : Option Nat × List Json} {page : Json} :
    notePage key (total, before) page = .ok next ↔
      ∃ rows, pageRows key page = some rows ∧ next = (total, before ++ rows) ∧ Counted total page := by
  cases key with
  | none =>
    have nothing : total = none := Option.isNone_iff_eq_none.mp (by simpa using steady)
    subst nothing
    simp only [notePage, bind_eq_ok, okOr_eq_ok, Except.ok.injEq, pageRows]
    apply Iff.intro
    · rintro ⟨rows, found, rfl⟩
      refine ⟨rows, found, rfl, ?_⟩
      intro number same
      cases same
    · rintro ⟨rows, found, rfl, _⟩
      exact ⟨rows, found, rfl⟩
  | some key =>
    rcases Option.isSome_iff_exists.mp steady with ⟨number, rfl⟩
    simp only [notePage, bind_eq_ok, okOr_eq_ok, ensure_eq_ok, Except.ok.injEq, pageRows, Option.all_some, beq_iff_eq]
    apply Iff.intro
    · rintro ⟨_, counted, _, rfl, rows, found, rfl⟩
      refine ⟨rows, found, rfl, ?_⟩
      rintro _ ⟨⟩
      exact counted
    · rintro ⟨rows, found, rfl, counted⟩
      exact ⟨number, counted number rfl, (), rfl, rows, found, rfl⟩

theorem foldlM_notePage {key : Option String} {total : Option Nat} (steady : total.isSome = key.isSome) {pages : List Json} :
    ∀ {before : List Json} {last : Option Nat × List Json}, pages.foldlM (notePage key) (total, before) = .ok last ↔
      ∃ parts, pages.mapM (pageRows key) = some parts ∧ last = (total, before ++ parts.flatten) ∧
        ∀ page ∈ pages, Counted total page := by
  induction pages with
  | nil =>
    intro before last
    apply Iff.intro
    · intro run
      cases run
      exact ⟨[], rfl, by simp, by simp⟩
    · rintro ⟨parts, read, rfl, _⟩
      cases read
      simp [pure, Except.pure]
  | cons page rest ih =>
    intro before last
    rw [List.foldlM_cons, bind_eq_ok, List.forall_mem_cons]
    apply Iff.intro
    · rintro ⟨next, first, run⟩
      rcases (notePage_next steady).mp first with ⟨rows, found, rfl, counted⟩
      rcases ih.mp run with ⟨parts, read, rfl, others⟩
      refine ⟨rows :: parts, ?_, by simp, counted, others⟩
      rw [List.mapM_cons, found, read]
      rfl
    · rintro ⟨all, whole, rfl, counted, others⟩
      rw [List.mapM_cons] at whole
      rcases Option.bind_eq_some_iff.mp whole with ⟨rows, found, later⟩
      rcases Option.bind_eq_some_iff.mp later with ⟨parts, read, same⟩
      cases same
      refine ⟨(total, before ++ rows), (notePage_next steady).mpr ⟨rows, found, rfl, counted⟩, ih.mpr ⟨parts, read, ?_, others⟩⟩
      simp

theorem collectPages_eq_ok {key : Option String} {value : Json} {rows : List Json} :
    collectPages key value = .ok rows ↔ ∃ pages parts, value.asArray = some pages ∧ pages ≠ [] ∧
      pages.mapM (pageRows key) = some parts ∧ rows = parts.flatten ∧
      (key.isSome = true → ∀ page ∈ pages, (page.field "total_count").asU64 = some rows.length) := by
  unfold collectPages
  simp only [bind_eq_ok, okOr_eq_ok, ensure_eq_ok, Bool.not_eq_true', List.isEmpty_eq_false_iff]
  apply Iff.intro
  · rintro ⟨pages, found, _, filled, ⟨total, collected⟩, run, _, complete, same⟩
    cases same
    cases pages with
    | nil => exact absurd rfl filled
    | cons page rest =>
      rw [List.foldlM_cons] at run
      rcases bind_eq_ok.mp run with ⟨⟨first, start⟩, head, run⟩
      rcases notePage_first.mp head with ⟨begun, steady, counted⟩
      rcases (foldlM_notePage steady).mp run with ⟨parts, read, same, others⟩
      cases same
      refine ⟨page :: rest, start :: parts, found, filled, ?_, rfl, ?_⟩
      · rw [List.mapM_cons, begun, read]
        rfl
      · intro keyed other member
        rcases Option.isSome_iff_exists.mp (steady.trans keyed) with ⟨number, rfl⟩
        simp only [Option.all_some, beq_iff_eq] at complete
        rw [← complete]
        rcases List.mem_cons.mp member with rfl | member
        · exact counted number rfl
        · exact others other member number rfl
  · rintro ⟨pages, parts, found, filled, whole, rfl, complete⟩
    cases pages with
    | nil => exact absurd rfl filled
    | cons page rest =>
      rw [List.mapM_cons] at whole
      rcases Option.bind_eq_some_iff.mp whole with ⟨start, begun, later⟩
      rcases Option.bind_eq_some_iff.mp later with ⟨others, read, same⟩
      cases same
      have exact' : ∃ total : Option Nat, total.isSome = key.isSome ∧ ∀ number ∈ total,
          number = (start :: others).flatten.length := by
        cases key with
        | none => exact ⟨none, rfl, by simp⟩
        | some key => exact ⟨some (start :: others).flatten.length, rfl, by simp⟩
      rcases exact' with ⟨total, steady, exact'⟩
      have counted : ∀ other ∈ page :: rest, Counted total other := by
        intro other member number same
        subst same
        rw [exact' number rfl]
        exact complete (steady.symm.trans rfl) other member
      have run : (page :: rest).foldlM (notePage key) (none, []) = .ok (total, (start :: others).flatten) := by
        rw [List.foldlM_cons, bind_eq_ok]
        refine ⟨(total, start), notePage_first.mpr ⟨begun, steady, counted page List.mem_cons_self⟩, ?_⟩
        rw [foldlM_notePage steady]
        exact ⟨others, read, rfl, fun other member => counted other (List.mem_cons_of_mem _ member)⟩
      refine ⟨page :: rest, found, (), filled, _, run, (), ?_, rfl⟩
      cases total with
      | none => rfl
      | some number => simpa using exact' number rfl

theorem rowsOf_of_collectPages {key : Option String} {value : Json} {rows : List Json}
    (collected : collectPages key value = .ok rows) : rowsOf key value = some rows := by
  rcases collectPages_eq_ok.mp collected with ⟨pages, parts, found, _, read, rfl, _⟩
  unfold rowsOf
  rw [found, Option.bind_some, read]
  rfl

theorem run_pages {cli : Cli} {call : Call} {rows : List Json} :
    pages cli call remote n = .ok (rows, m) ↔
      ∃ value, remote n call = .ok (value, true) ∧ collectPages call.collection value = .ok rows ∧ m = n + 1 := by
  unfold pages
  rw [run_bind]
  apply Iff.intro
  · rintro ⟨⟨value, success⟩, k, answered, rest⟩
    rcases run_bind.mp rest with ⟨_, _, checked, later⟩
    rcases run_ensure.mp checked with ⟨rfl, rfl⟩
    rcases run_lift.mp later with ⟨collected, rfl⟩
    rcases run_invoke.mp answered with ⟨printed, rfl⟩
    exact ⟨value, printed, collected, rfl⟩
  · rintro ⟨value, answered, collected, rfl⟩
    refine ⟨(value, true), n + 1, run_invoke.mpr ⟨answered, rfl⟩, ?_⟩
    exact run_bind.mpr ⟨(), n + 1, run_ensure.mpr ⟨rfl, rfl⟩, run_lift.mpr ⟨collected, rfl⟩⟩

theorem lists_of_pages {cli : Cli} {call : Call} {rows : List Json} (read : pages cli call remote n = .ok (rows, m)) :
    Lists remote n call rows ∧ m = n + 1 := by
  rcases run_pages.mp read with ⟨value, answered, collected, rfl⟩
  exact ⟨⟨value, answered, rowsOf_of_collectPages collected⟩, rfl⟩

end Pages

end MergeVerification

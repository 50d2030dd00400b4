import BazelRepo.MergeVerification.Readings

namespace MergeVerification

open Library

variable {remote remote' : Remote} {n m : Nat} {s s' : ThreadLoop}

section Turns

theorem turn_eq_ok {value : Json} {success : Bool} {result : ThreadLoop ⊕ List Json} :
    s.turn value success = .ok result ↔ success = true ∧ (value.member "errors").isNone = true ∧ ∃ count nodes more,
      ((reviewThreads value).field "totalCount").asU64 = some count ∧ s.total.all (· == count) = true ∧
      ((reviewThreads value).field "nodes").asArray = some nodes ∧
      (((reviewThreads value).field "pageInfo").field "hasNextPage").asBool = some more ∧
      ((more = false ∧ count = (s.rows ++ nodes).length ∧ result = .inr (s.rows ++ nodes)) ∨
        (more = true ∧ nodes ≠ [] ∧ (s.rows ++ nodes).length ≤ count ∧ ∃ next,
          (((reviewThreads value).field "pageInfo").field "endCursor").asStr = some next ∧ next.isEmpty = false ∧
          next ∉ s.seen ∧ result = .inl ⟨some next, insert next s.seen, s.rows ++ nodes, some count⟩)) := by
  unfold ThreadLoop.turn
  simp only [bind_eq_ok, ensure_eq_ok, okOr_eq_ok, Bool.and_eq_true]
  apply Iff.intro
  · rintro ⟨_, ⟨rfl, quiet⟩, count, counted, _, same, nodes, listed, more, known, rest⟩
    refine ⟨rfl, quiet, count, nodes, more, counted, same, listed, known, ?_⟩
    cases more with
    | false =>
      rcases bind_eq_ok.mp rest with ⟨_, complete, ended⟩
      cases ended
      exact .inl ⟨rfl, beq_iff_eq.mp (ensure_eq_ok.mp complete), rfl⟩
    | true =>
      rcases bind_eq_ok.mp rest with ⟨_, advanced, rest⟩
      rcases bind_eq_ok.mp rest with ⟨next, cursor, rest⟩
      rcases bind_eq_ok.mp rest with ⟨_, fresh, ended⟩
      cases ended
      have advanced := ensure_eq_ok.mp advanced
      have fresh := ensure_eq_ok.mp fresh
      simp only [Bool.and_eq_true, Bool.not_eq_true', List.isEmpty_eq_false_iff, decide_eq_true_eq] at advanced fresh
      exact .inr ⟨rfl, advanced.1, advanced.2, next, okOr_eq_ok.mp cursor, fresh.1, fresh.2, rfl⟩
  · rintro ⟨rfl, quiet, count, nodes, more, counted, same, listed, known, rest⟩
    refine ⟨(), ⟨rfl, quiet⟩, count, counted, (), same, nodes, listed, more, known, ?_⟩
    rcases rest with ⟨rfl, complete, rfl⟩ | ⟨rfl, filled, within, next, cursor, named, fresh, rfl⟩
    · exact bind_eq_ok.mpr ⟨(), ensure_eq_ok.mpr (beq_iff_eq.mpr complete), rfl⟩
    · have advanced : (!nodes.isEmpty && decide ((s.rows ++ nodes).length ≤ count)) = true := by
        simp only [Bool.and_eq_true, Bool.not_eq_true', List.isEmpty_eq_false_iff, decide_eq_true_eq]
        exact ⟨filled, within⟩
      have unseen : (!next.isEmpty && decide (next ∉ s.seen)) = true := by
        simp only [Bool.and_eq_true, Bool.not_eq_true', decide_eq_true_eq]
        exact ⟨named, fresh⟩
      exact bind_eq_ok.mpr ⟨(), ensure_eq_ok.mpr advanced, bind_eq_ok.mpr ⟨next, okOr_eq_ok.mpr cursor,
        bind_eq_ok.mpr ⟨(), ensure_eq_ok.mpr unseen, rfl⟩⟩⟩

theorem run_step {result : ThreadLoop ⊕ List Json} : s.step remote n = .ok (result, m) ↔
    ∃ value success, remote n (.threads s.cursor) = .ok (value, success) ∧ s.turn value success = .ok result ∧ m = n + 1 := by
  unfold ThreadLoop.step
  rw [run_bind]
  apply Iff.intro
  · rintro ⟨⟨value, success⟩, _, answered, later⟩
    rcases run_lift.mp later with ⟨turned, rfl⟩
    rcases run_invoke.mp answered with ⟨printed, rfl⟩
    exact ⟨value, success, printed, turned, rfl⟩
  · rintro ⟨value, success, printed, turned, rfl⟩
    exact ⟨(value, success), n + 1, run_invoke.mpr ⟨printed, rfl⟩, run_lift.mpr ⟨turned, rfl⟩⟩

theorem run_turns {rest : ThreadLoop → Verifying (List Json)} {rows : List Json} :
    (s.step >>= fun | .inr rows => pure rows | .inl next => rest next) remote n = .ok (rows, m) ↔
      s.step remote n = .ok (.inr rows, m) ∨
        ∃ next k, s.step remote n = .ok (.inl next, k) ∧ rest next remote k = .ok (rows, m) := by
  rw [run_bind]
  apply Iff.intro
  · rintro ⟨next | all, k, stepped, rest⟩
    · exact .inr ⟨next, k, stepped, rest⟩
    · rcases run_pure.mp rest with ⟨rfl, rfl⟩
      exact .inl stepped
  · rintro (stepped | ⟨next, k, stepped, rest⟩)
    · exact ⟨.inr rows, m, stepped, run_pure.mpr ⟨rfl, rfl⟩⟩
    · exact ⟨.inl next, k, stepped, rest⟩

theorem run_threadLoop {turns : Nat} {rows : List Json} : threadLoop (turns + 1) s remote n = .ok (rows, m) ↔
    s.step remote n = .ok (.inr rows, m) ∨
      ∃ next k, s.step remote n = .ok (.inl next, k) ∧ threadLoop turns next remote k = .ok (rows, m) :=
  run_turns

theorem run_threads {rows : List Json} : threads remote n = .ok (rows, m) ↔
    ({} : ThreadLoop).step remote n = .ok (.inr rows, m) ∨
      ∃ next k, ({} : ThreadLoop).step remote n = .ok (.inl next, k) ∧
        threadLoop (next.total.getD 0) next remote k = .ok (rows, m) :=
  run_turns

theorem step_advances {next : ThreadLoop} (stepped : s.step remote n = .ok (.inl next, m)) :
    ∃ count, next.total = some count ∧ s.total.all (· == count) = true ∧ s.rows.length < next.rows.length ∧
      next.rows.length ≤ count := by
  rcases run_step.mp stepped with ⟨value, success, _, turned, _⟩
  rcases turn_eq_ok.mp turned with ⟨_, _, count, nodes, more, _, same, _, _, rest⟩
  rcases rest with ⟨_, _, none⟩ | ⟨_, filled, within, _, _, _, _, going⟩
  · cases none
  · cases going
    refine ⟨count, rfl, same, ?_, within⟩
    have some' := List.length_pos_iff.mpr filled
    rw [List.length_append]
    omega

/-- The turns that are left are enough: more of them change nothing. -/
theorem threadLoop_enough {count : Nat} : ∀ {turns : Nat} {s : ThreadLoop}, s.total = some count →
    s.rows.length ≤ count → count < turns + s.rows.length →
    ∀ remote n, threadLoop (turns + 1) s remote n = threadLoop turns s remote n := by
  intro turns
  induction turns with
  | zero =>
    intro s _ within few
    omega
  | succ turns ih =>
    intro s total within few remote n
    have unfolded (fuel : Nat) : threadLoop (fuel + 1) s remote n = (s.step remote n >>= fun result =>
        (match result.1 with | .inr rows => pure rows | .inl s => threadLoop fuel s : Verifying (List Json)) remote result.2) := rfl
    rw [unfolded, unfolded]
    cases stepped : s.step remote n with
    | error failure => rfl
    | ok result =>
      rcases result with ⟨next | rows, k⟩
      · rcases step_advances stepped with ⟨count', same, equal, more, bound⟩
        rw [total] at equal
        have equal : count = count' := beq_iff_eq.mp equal
        subst equal
        exact ih same bound (by omega) remote k
      · rfl

def threadsWithin (more : Nat) : Verifying (List Json) := do
  let first ← ({} : ThreadLoop).step
  match first with
  | .inr rows => pure rows
  | .inl s => threadLoop (s.total.getD 0 + more) s

theorem threads_ends (more : Nat) : threadsWithin more = threads := by
  induction more with
  | zero => rfl
  | succ more ih =>
    rw [← ih]
    funext remote n
    have unfolded (more : Nat) : threadsWithin more remote n = (({} : ThreadLoop).step remote n >>= fun result =>
        (match result.1 with | .inr rows => pure rows | .inl s => threadLoop (s.total.getD 0 + more) s :
          Verifying (List Json)) remote result.2) := rfl
    rw [unfolded, unfolded]
    cases stepped : ({} : ThreadLoop).step remote n with
    | error failure => rfl
    | ok result =>
      rcases result with ⟨next | rows, k⟩
      · rcases step_advances stepped with ⟨count, total, _, filled, within⟩
        have counted : next.total.getD 0 = count := by
          rw [total]
          rfl
        have few : count < count + more + next.rows.length := by
          have positive := Nat.zero_lt_of_lt filled
          omega
        dsimp only [bind, Except.bind]
        rw [counted]
        exact threadLoop_enough total within few remote k
      · rfl

end Turns

section Listing

inductive ThreadPages (remote : Remote) : Nat → Option String → List (List Json) → Prop where
  | last {n : Nat} {cursor : Option String} {value : Json} {success : Bool} {nodes : List Json}
    (printed : remote n (.threads cursor) = .ok (value, success))
    (listed : ((reviewThreads value).field "nodes").asArray = some nodes)
    (ended : (((reviewThreads value).field "pageInfo").field "hasNextPage").asBool = some false) :
    ThreadPages remote n cursor [nodes]
  | more {n : Nat} {cursor : Option String} {value : Json} {success : Bool} {nodes : List Json} {next : String}
    {pages : List (List Json)} (printed : remote n (.threads cursor) = .ok (value, success))
    (listed : ((reviewThreads value).field "nodes").asArray = some nodes)
    (further : (((reviewThreads value).field "pageInfo").field "hasNextPage").asBool = some true)
    (named : (((reviewThreads value).field "pageInfo").field "endCursor").asStr = some next)
    (rest : ThreadPages remote (n + 1) (some next) pages) : ThreadPages remote n cursor (nodes :: pages)

theorem pages_of_last {rows : List Json} (stepped : s.step remote n = .ok (.inr rows, m)) :
    ∃ pages, ThreadPages remote n s.cursor pages ∧ rows = s.rows ++ pages.flatten := by
  rcases run_step.mp stepped with ⟨value, success, printed, turned, _⟩
  rcases turn_eq_ok.mp turned with ⟨_, _, count, nodes, more, _, _, listed, known, rest⟩
  rcases rest with ⟨rfl, _, same⟩ | ⟨_, _, _, _, _, _, _, none⟩
  · cases same
    exact ⟨[nodes], .last printed listed known, by simp⟩
  · cases none

theorem pages_of_more {next : ThreadLoop} {rows : List Json} (stepped : s.step remote n = .ok (.inl next, m))
    (later : ∃ pages, ThreadPages remote m next.cursor pages ∧ rows = next.rows ++ pages.flatten) :
    ∃ pages, ThreadPages remote n s.cursor pages ∧ rows = s.rows ++ pages.flatten := by
  rcases run_step.mp stepped with ⟨value, success, printed, turned, rfl⟩
  rcases turn_eq_ok.mp turned with ⟨_, _, count, nodes, more, _, _, listed, known, rest⟩
  rcases rest with ⟨_, _, none⟩ | ⟨rfl, _, _, cursor, named, _, _, same⟩
  · cases none
  · cases same
    rcases later with ⟨pages, chain, rfl⟩
    exact ⟨nodes :: pages, .more printed listed known named chain, by simp⟩

theorem pages_of_threadLoop : ∀ {turns : Nat} {s : ThreadLoop} {n : Nat} {rows : List Json},
    threadLoop turns s remote n = .ok (rows, m) →
      ∃ pages, ThreadPages remote n s.cursor pages ∧ rows = s.rows ++ pages.flatten := by
  intro turns
  induction turns with
  | zero =>
    intro s n rows ran
    cases ran
  | succ turns ih =>
    intro s n rows ran
    rcases run_threadLoop.mp ran with stepped | ⟨next, k, stepped, later⟩
    · exact pages_of_last stepped
    · exact pages_of_more stepped (ih later)

theorem pages_of_threads {rows : List Json} (ran : threads remote n = .ok (rows, m)) :
    ∃ pages, ThreadPages remote n none pages ∧ rows = pages.flatten := by
  rcases run_threads.mp ran with stepped | ⟨next, k, stepped, later⟩
  · exact pages_of_last stepped
  · exact pages_of_more stepped (pages_of_threadLoop later)

end Listing

section Shells

/-- Pages that differ in their threads only, and not in how many there are. -/
structure SameShell (value value' : Json) : Prop where
  errors : (value'.member "errors").isNone = (value.member "errors").isNone
  total : (reviewThreads value').field "totalCount" = (reviewThreads value).field "totalCount"
  info : (reviewThreads value').field "pageInfo" = (reviewThreads value).field "pageInfo"
  nodes : ((reviewThreads value').field "nodes").asArray.map List.length =
    ((reviewThreads value).field "nodes").asArray.map List.length

theorem SameShell.symm {value value' : Json} (same : SameShell value value') : SameShell value' value :=
  ⟨same.errors.symm, same.total.symm, same.info.symm, same.nodes.symm⟩

structure ThreadLoop.Alike (s s' : ThreadLoop) : Prop where
  cursor : s'.cursor = s.cursor
  seen : s'.seen = s.seen
  rows : s'.rows.length = s.rows.length
  total : s'.total = s.total

def AlikeResult : ThreadLoop ⊕ List Json → ThreadLoop ⊕ List Json → Prop
  | .inl next, .inl next' => next.Alike next'
  | .inr rows, .inr rows' => rows'.length = rows.length
  | _, _ => False

theorem turn_alike (alike : s.Alike s') {value value' : Json} (same : SameShell value value') {success : Bool} {result : ThreadLoop ⊕ List Json}
    (turned : s.turn value success = .ok result) : ∃ result', s'.turn value' success = .ok result' ∧ AlikeResult result result' := by
  rcases turn_eq_ok.mp turned with ⟨rfl, quiet, count, nodes, more, counted, equal, listed, known, rest⟩
  have lengths := same.nodes
  rw [listed] at lengths
  rcases Option.map_eq_some_iff.mp lengths with ⟨nodes', listed', length⟩
  have whole : (s'.rows ++ nodes').length = (s.rows ++ nodes).length := by
    rw [List.length_append, List.length_append, alike.rows, length]
  have shared : ((reviewThreads value').field "totalCount").asU64 = some count := same.total ▸ counted
  have quiet' := same.errors.trans quiet
  have known' : (((reviewThreads value').field "pageInfo").field "hasNextPage").asBool = some more := same.info ▸ known
  have equal' : s'.total.all (· == count) = true := alike.total ▸ equal
  rcases rest with ⟨rfl, complete, rfl⟩ | ⟨rfl, filled, within, next, named, given, fresh, rfl⟩
  · refine ⟨.inr (s'.rows ++ nodes'), ?_, whole⟩
    exact turn_eq_ok.mpr ⟨rfl, quiet', count, nodes', false, shared, equal', listed', known', .inl ⟨rfl, complete.trans whole.symm, rfl⟩⟩
  · have filled' : nodes' ≠ [] := by
      rintro rfl
      exact filled (List.eq_nil_of_length_eq_zero length.symm)
    have named' : (((reviewThreads value').field "pageInfo").field "endCursor").asStr = some next := same.info ▸ named
    refine ⟨.inl ⟨some next, insert next s'.seen, s'.rows ++ nodes', some count⟩, ?_, rfl, ?_, whole, rfl⟩
    · exact turn_eq_ok.mpr ⟨rfl, quiet', count, nodes', true, shared, equal', listed', known',
        .inr ⟨rfl, filled', whole ▸ within, next, named', given, alike.seen ▸ fresh, rfl⟩⟩
    · show insert next s'.seen = insert next s.seen
      rw [alike.seen]

def ShellsAgree (remote remote' : Remote) : Prop :=
  ∀ n cursor value success, remote n (.threads cursor) = .ok (value, success) →
    ∃ value', remote' n (.threads cursor) = .ok (value', success) ∧ SameShell value value'

theorem step_alike (agree : ShellsAgree remote remote') (alike : s.Alike s') {result : ThreadLoop ⊕ List Json}
    (stepped : s.step remote n = .ok (result, m)) : ∃ result', s'.step remote' n = .ok (result', m) ∧ AlikeResult result result' := by
  rcases run_step.mp stepped with ⟨value, success, printed, turned, rfl⟩
  rcases agree n s.cursor value success printed with ⟨value', printed', same⟩
  rcases turn_alike alike same turned with ⟨result', turned', related⟩
  refine ⟨result', run_step.mpr ⟨value', success, ?_, turned', rfl⟩, related⟩
  rw [alike.cursor]
  exact printed'

theorem threadLoop_alike (agree : ShellsAgree remote remote') : ∀ {turns : Nat} {s s' : ThreadLoop} {n : Nat} {rows : List Json},
    s.Alike s' → threadLoop turns s remote n = .ok (rows, m) → ∃ rows', threadLoop turns s' remote' n = .ok (rows', m) := by
  intro turns
  induction turns with
  | zero =>
    intro s s' n rows _ ran
    cases ran
  | succ turns ih =>
    intro s s' n rows alike ran
    rcases run_threadLoop.mp ran with stepped | ⟨next, k, stepped, later⟩
    · rcases step_alike agree alike stepped with ⟨next' | rows', stepped', related⟩
      · exact related.elim
      · exact ⟨rows', run_threadLoop.mpr (.inl stepped')⟩
    · rcases step_alike agree alike stepped with ⟨next' | rows', stepped', related⟩
      · rcases ih related later with ⟨rows', later'⟩
        exact ⟨rows', run_threadLoop.mpr (.inr ⟨next', k, stepped', later'⟩)⟩
      · exact related.elim

theorem threads_alike (agree : ShellsAgree remote remote') {rows : List Json} (ran : threads remote n = .ok (rows, m)) :
    ∃ rows', threads remote' n = .ok (rows', m) := by
  have start : ({} : ThreadLoop).Alike {} := ⟨rfl, rfl, rfl, rfl⟩
  rcases run_threads.mp ran with stepped | ⟨next, k, stepped, later⟩
  · rcases step_alike agree start stepped with ⟨next' | rows', stepped', related⟩
    · exact related.elim
    · exact ⟨rows', run_threads.mpr (.inl stepped')⟩
  · rcases step_alike agree start stepped with ⟨next' | rows', stepped', related⟩
    · have related : next.Alike next' := related
      rcases threadLoop_alike agree related later with ⟨rows', later'⟩
      rw [← related.total] at later'
      exact ⟨rows', run_threads.mpr (.inr ⟨next', k, stepped', later'⟩)⟩
    · exact related.elim

end Shells

end MergeVerification

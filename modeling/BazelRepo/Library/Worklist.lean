import Mathlib.Data.List.Range
import Mathlib.Data.List.Perm.Basic

namespace Library

/-- The numbers of the tasks that wait on a stack, the top first, and the number of the next task. -/
structure Worklist where
  stack : List ℕ
  next : ℕ

namespace Worklist

def Pushed (before after : Worklist) : Prop :=
  ∃ count, after.stack = (List.range' before.next count).reverse ++ before.stack ∧ after.next = before.next + count

/-- A task on the stack has a smaller number than those above it, and all have been given out. -/
structure Numbered (list : Worklist) : Prop where
  descending : list.stack.Pairwise fun above below => below < above
  given : ∀ task ∈ list.stack, task < list.next

/-- A run, with the tasks that it took from the top of the stack. A task is noted together with the next number at that
time: the tasks that it puts on the stack, and those that they put there, have numbers from there on. -/
inductive Run (start : Worklist) : List (ℕ × ℕ) → Worklist → Prop where
  | start : Run start [] start
  | push {taken : List (ℕ × ℕ)} {list other : Worklist} (before : Run start taken list) (pushed : list.Pushed other) :
      Run start taken other
  | take {taken : List (ℕ × ℕ)} {list other : Worklist} {task : ℕ} {rest : List ℕ} (before : Run start taken list)
      (top : list.stack = task :: rest) (pushed : Pushed ⟨rest, list.next⟩ other) :
      Run start (taken ++ [(task, list.next)]) other

variable {start list other : Worklist} {taken : List (ℕ × ℕ)}

theorem Pushed.refl (list : Worklist) : list.Pushed list := ⟨0, rfl, rfl⟩

theorem Pushed.one (list : Worklist) : list.Pushed ⟨list.next :: list.stack, list.next + 1⟩ := ⟨1, rfl, rfl⟩

theorem Pushed.trans {last : Worklist} (first : list.Pushed other) (second : other.Pushed last) : list.Pushed last := by
  rcases first with ⟨count, stack, next⟩
  rcases second with ⟨count', stack', next'⟩
  refine ⟨count + count', ?_, ?_⟩
  · rw [stack', stack, next, ← List.append_assoc, ← List.reverse_append, List.range'_append_1]
  · rw [next', next, Nat.add_assoc]

theorem Pushed.le (pushed : list.Pushed other) : list.next ≤ other.next := by
  rcases pushed with ⟨count, _, next⟩
  omega

theorem Numbered.pushed (numbered : list.Numbered) (pushed : list.Pushed other) : other.Numbered := by
  rcases pushed with ⟨count, stack, next⟩
  refine ⟨?_, ?_⟩
  · rw [stack, List.pairwise_append]
    refine ⟨?_, numbered.descending, ?_⟩
    · rw [List.pairwise_reverse]
      exact List.pairwise_lt_range'
    · intro above new below old
      have bound := List.mem_range'_1.mp (List.mem_reverse.mp new)
      have given := numbered.given below old
      omega
  · intro task member
    rw [stack] at member
    rw [next]
    rcases List.mem_append.mp member with new | old
    · exact (List.mem_range'_1.mp (List.mem_reverse.mp new)).2
    · have given := numbered.given task old
      omega

theorem Numbered.rest {task : ℕ} {rest : List ℕ} (numbered : list.Numbered) (top : list.stack = task :: rest) :
    Numbered ⟨rest, list.next⟩ := by
  rcases numbered with ⟨descending, given⟩
  rw [top] at descending given
  exact ⟨(List.pairwise_cons.mp descending).2, fun task member => given task (List.mem_cons_of_mem _ member)⟩

theorem Run.numbered (run : Run start taken list) (numbered : start.Numbered) : list.Numbered := by
  induction run with
  | start => exact numbered
  | push _ pushed ih => exact ih.pushed pushed
  | take _ top pushed ih => exact (ih.rest top).pushed pushed

theorem Run.le (run : Run start taken list) : start.next ≤ list.next := by
  induction run with
  | start => exact le_rfl
  | push _ pushed ih => exact ih.trans pushed.le
  | take _ top pushed ih => exact ih.trans pushed.le

theorem Run.trans {middle last : Worklist} {first second : List (ℕ × ℕ)} (early : Run start first middle)
    (late : Run middle second last) : Run start (first ++ second) last := by
  induction late with
  | start =>
    rw [List.append_nil]
    exact early
  | push _ pushed ih => exact ih.push pushed
  | take _ top pushed ih =>
    rw [← List.append_assoc]
    exact ih.take top pushed

theorem range_append {first middle last : ℕ} (early : first ≤ middle) (late : middle ≤ last) :
    List.range' first (middle - first) ++ List.range' middle (last - middle) = List.range' first (last - first) := by
  have joined := @List.range'_append_1 first (middle - first) (last - middle)
  have between : first + (middle - first) = middle := by omega
  have total : middle - first + (last - middle) = last - first := by omega
  rwa [between, total] at joined

theorem Pushed.perm (pushed : list.Pushed other) :
    other.stack.Perm (list.stack ++ List.range' list.next (other.next - list.next)) := by
  rcases pushed with ⟨count, stack, next⟩
  have counted : other.next - list.next = count := by omega
  rw [stack, counted]
  exact List.perm_append_comm.trans ((List.reverse_perm _).append_left _)

theorem Pushed.account {known : List ℕ} (first : start.next ≤ list.next) (pushed : list.Pushed other)
    (account : (known ++ list.stack).Perm (List.range' start.next (list.next - start.next) ++ start.stack)) :
    (known ++ other.stack).Perm (List.range' start.next (other.next - start.next) ++ start.stack) := by
  have grown := pushed.perm.append_left known
  rw [← List.append_assoc] at grown
  apply (grown.trans (account.append_right _)).trans
  rw [← range_append first pushed.le, List.append_assoc, List.append_assoc]
  exact List.perm_append_comm.append_left _

/-- The tasks that were taken and those that wait are, each once, those that waited at the start and those that were given
out since. -/
theorem Run.account (run : Run start taken list) : (taken.map Prod.fst ++ list.stack).Perm
    (List.range' start.next (list.next - start.next) ++ start.stack) := by
  induction run with
  | start => simp
  | push before pushed ih => exact pushed.account before.le ih
  | take before top pushed ih =>
    rename_i popped list other task rest
    apply @Pushed.account start ⟨rest, list.next⟩ other _ before.le pushed
    rw [top] at ih
    rw [List.map_append, List.append_assoc]
    exact ih

theorem Run.split {first second : List (ℕ × ℕ)} (run : Run start (first ++ second) list) :
    ∃ middle, Run start first middle ∧ Run middle second list := by
  generalize whole : first ++ second = taken at run
  induction run generalizing second with
  | start =>
    rcases List.append_eq_nil_iff.mp whole with ⟨rfl, rfl⟩
    exact ⟨start, .start, .start⟩
  | push _ pushed ih =>
    rcases ih whole with ⟨middle, early, late⟩
    exact ⟨middle, early, late.push pushed⟩
  | take before top pushed ih =>
    rcases List.eq_nil_or_concat second with rfl | ⟨others, last, rfl⟩
    · rw [List.append_nil] at whole
      rw [whole]
      exact ⟨_, before.take top pushed, .start⟩
    · rw [List.concat_eq_append, ← List.append_assoc] at whole
      rcases List.append_inj' whole rfl with ⟨early, same⟩
      rcases ih early with ⟨middle, front, back⟩
      refine ⟨middle, front, ?_⟩
      rw [List.concat_eq_append, same]
      exact back.take top pushed

theorem Run.head {task number : ℕ} {later : List (ℕ × ℕ)} (run : Run start ((task, number) :: later) list) :
    ∃ first rest after, Run start [] first ∧ first.stack = task :: rest ∧ first.next = number ∧
      Pushed ⟨rest, number⟩ after ∧ Run after later list := by
  generalize whole : (task, number) :: later = taken at run
  induction run generalizing later with
  | start => cases whole
  | push _ pushed ih =>
    rcases ih whole with ⟨first, rest, after, early, top, next, grown, late⟩
    exact ⟨first, rest, after, early, top, next, grown, late.push pushed⟩
  | take before top pushed ih =>
    rename_i popped list other taskAt rest
    rcases List.eq_nil_or_concat later with rfl | ⟨others, last, rfl⟩
    · cases popped with
      | nil =>
        cases whole
        exact ⟨_, _, _, before, top, rfl, pushed, .start⟩
      | cons entry entries =>
        have lengths := congrArg List.length whole
        simp at lengths
    · rw [List.concat_eq_append, ← List.cons_append] at whole
      rcases List.append_inj' whole rfl with ⟨early, same⟩
      rcases ih early with ⟨first, others', after, start', top', next, grown, late⟩
      refine ⟨first, others', after, start', top', next, grown, ?_⟩
      rw [List.concat_eq_append, same]
      exact late.take top pushed

/-- Depth first: when a task is taken that already waited when an earlier one was taken, all that was given out from the
earlier one on has been taken in between. -/
theorem Run.exhausted {before between rest : List (ℕ × ℕ)} {task number later number' : ℕ} (numbered : start.Numbered)
    (run : Run start (before ++ (task, number) :: (between ++ (later, number') :: rest)) list) (waited : later < number)
    {given : ℕ} (from' : number ≤ given) (before' : given < number') : given ∈ between.map Prod.fst := by
  rcases run.split with ⟨first, early, run⟩
  rcases run.head with ⟨top, others, after, pushes, stack, next, grown, run⟩
  have sorted := pushes.numbered (early.numbered numbered)
  have left : Numbered ⟨others, number⟩ := by
    have popped := sorted.rest stack
    rwa [next] at popped
  rcases run.split with ⟨middle, during, run⟩
  rcases run.head with ⟨last, remaining, _, pushes', stack', next', _, _⟩
  have spent : Run ⟨others, number⟩ between last := by
    have whole := ((Run.start.push grown).trans during).trans pushes'
    rwa [List.nil_append, List.append_nil] at whole
  have descending := (spent.numbered left).descending
  rw [stack'] at descending
  have account := spent.account
  rw [stack', next'] at account
  have listed : given ∈ between.map Prod.fst ++ later :: remaining := by
    apply account.mem_iff.mpr
    apply List.mem_append_left
    exact List.mem_range'_1.mpr ⟨from', by dsimp only; omega⟩
  rcases List.mem_append.mp listed with taken | waits
  · exact taken
  · rcases List.mem_cons.mp waits with rfl | below
    · omega
    · have smaller := (List.pairwise_cons.mp descending).1 given below
      omega

end Worklist

end Library

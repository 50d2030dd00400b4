import Mathlib.Data.Finset.Card
import Mathlib.Data.List.Lex
import Mathlib.Data.List.Nodup
import Mathlib.Logic.Relation

namespace Library

section Acyclic

variable {α : Type*} {r : α → α → Prop}

def Acyclic (r : α → α → Prop) : Prop := ∀ a, ¬ Relation.TransGen r a a

theorem not_transGen_of_acc {a : α} (accessible : Acc r a) : ¬ Relation.TransGen r a a := by
  induction accessible with
  | intro a _ ih =>
    intro circle
    rcases Relation.TransGen.tail'_iff.mp circle with ⟨b, rest, last⟩
    exact ih b last (Relation.TransGen.head' last rest)

theorem Acyclic.exists_first (acyclic : Acyclic r) : ∀ {xs : List α}, xs ≠ [] →
    ∃ a ∈ xs, ∀ b ∈ xs, ¬ Relation.TransGen r b a := by
  intro xs
  induction xs with
  | nil =>
    intro empty
    exact absurd rfl empty
  | cons x rest ih =>
    intro _
    by_cases alone : rest = []
    · subst alone
      exact ⟨x, List.mem_cons_self, by simpa using acyclic x⟩
    · rcases ih alone with ⟨a, member, first⟩
      by_cases below : Relation.TransGen r x a
      · refine ⟨x, List.mem_cons_self, ?_⟩
        intro b among before
        rcases List.mem_cons.mp among with rfl | among
        · exact acyclic b before
        · exact first b among (before.trans below)
      · refine ⟨a, List.mem_cons_of_mem _ member, ?_⟩
        intro b among before
        rcases List.mem_cons.mp among with rfl | among
        · exact below before
        · exact first b among before

end Acyclic

/-! Items that need others done before them, selected one after the other. -/

section Selection

variable {α κ : Type*} [DecidableEq κ] (key : α → κ) (needs : α → List κ)

def Needs (items : List α) (a b : κ) : Prop := ∃ item ∈ items, key item = b ∧ a ∈ needs item

/-- The items that are selected when each turn takes the first one that is not done and has all it needs. -/
def selection (items : List α) : Nat → List κ → List α
  | 0, _ => []
  | turns + 1, done =>
    match items.find? fun item => !done.contains (key item) && (needs item).all done.contains with
    | none => []
    | some item => item :: selection items turns (key item :: done)

variable {key needs} {items : List α}

theorem exists_ready (acyclic : Acyclic (Needs key needs items))
    (planned : ∀ item ∈ items, ∀ k ∈ needs item, k ∈ items.map key) {done : List κ}
    (unfinished : ∃ item ∈ items, key item ∉ done) :
    ∃ item ∈ items, key item ∉ done ∧ ∀ k ∈ needs item, k ∈ done := by
  have some_left : (items.map key).filter (fun k => k ∉ done) ≠ [] := by
    rcases unfinished with ⟨item, member, missing⟩
    apply List.ne_nil_of_mem (a := key item)
    simp only [List.mem_filter, List.mem_map, decide_eq_true_eq]
    exact ⟨⟨item, member, rfl⟩, missing⟩
  rcases acyclic.exists_first some_left with ⟨k, left, first⟩
  simp only [List.mem_filter, List.mem_map, decide_eq_true_eq] at left
  rcases left with ⟨⟨item, member, rfl⟩, missing⟩
  refine ⟨item, member, missing, ?_⟩
  intro k needed
  by_contra absent
  apply first k
  · simp only [List.mem_filter, decide_eq_true_eq]
    exact ⟨planned item member k needed, absent⟩
  · exact .single ⟨item, member, rfl, needed⟩

variable (key needs items) in
theorem selection_cons (turns : Nat) (done : List κ) :
    selection key needs items (turns + 1) done = [] ∨
      ∃ item ∈ items, key item ∉ done ∧ (∀ k ∈ needs item, k ∈ done) ∧
        selection key needs items (turns + 1) done = item :: selection key needs items turns (key item :: done) := by
  rw [selection]
  cases found : items.find? fun item => !done.contains (key item) && (needs item).all done.contains with
  | none => exact .inl rfl
  | some item =>
    have holds := List.find?_some found
    simp only [Bool.and_eq_true, Bool.not_eq_true', List.contains_eq_mem, decide_eq_false_iff_not, List.all_eq_true,
      decide_eq_true_eq] at holds
    exact .inr ⟨item, List.mem_of_find?_eq_some found, holds.1, holds.2, rfl⟩

theorem selection_distinct : ∀ (turns : Nat) (done : List κ),
    ((selection key needs items turns done).map key).Nodup ∧
      ∀ item ∈ selection key needs items turns done, item ∈ items ∧ key item ∉ done := by
  intro turns
  induction turns with
  | zero =>
    intro done
    simp [selection]
  | succ turns ih =>
    intro done
    rcases selection_cons key needs items turns done with empty | ⟨item, member, missing, _, same⟩
    · rw [empty]
      simp
    · rcases ih (key item :: done) with ⟨distinct, fresh⟩
      rw [same]
      constructor
      · rw [List.map_cons, List.nodup_cons]
        refine ⟨?_, distinct⟩
        intro again
        rcases List.mem_map.mp again with ⟨other, selected, equal⟩
        exact (fresh other selected).2 (equal ▸ List.mem_cons_self)
      · intro other selected
        rcases List.mem_cons.mp selected with rfl | later
        · exact ⟨member, missing⟩
        · exact ⟨(fresh other later).1, fun present => (fresh other later).2 (List.mem_cons_of_mem _ present)⟩

theorem selection_ordered : ∀ (turns : Nat) (done : List κ) (before after : List α) (item : α),
    selection key needs items turns done = before ++ item :: after →
      ∀ k ∈ needs item, k ∈ done ∨ k ∈ before.map key := by
  intro turns
  induction turns with
  | zero =>
    intro done before after item split
    simp [selection] at split
  | succ turns ih =>
    intro done before after item split k needed
    rcases selection_cons key needs items turns done with empty | ⟨first, _, _, met, same⟩
    · rw [empty] at split
      simp at split
    · rw [same] at split
      cases before with
      | nil =>
        simp only [List.nil_append, List.cons.injEq] at split
        rcases split with ⟨rfl, _⟩
        exact .inl (met k needed)
      | cons head others =>
        simp only [List.cons_append, List.cons.injEq] at split
        rcases split with ⟨rfl, rest⟩
        rcases ih _ others after item rest k needed with done' | earlier
        · rcases List.mem_cons.mp done' with rfl | done'
          · exact .inr (by simp)
          · exact .inl done'
        · exact .inr (List.mem_cons_of_mem _ earlier)

def unfinished (key : α → κ) (items : List α) (done : List κ) : Finset κ :=
  (items.map key).toFinset.filter fun k => k ∉ done

theorem unfinished_lt {done : List κ} {item : α} (member : item ∈ items) (missing : key item ∉ done) :
    (unfinished key items (key item :: done)).card < (unfinished key items done).card := by
  apply Finset.card_lt_card
  rw [Finset.ssubset_iff_of_subset]
  · refine ⟨key item, ?_, ?_⟩
    · simp only [unfinished, Finset.mem_filter, List.mem_toFinset, List.mem_map]
      exact ⟨⟨item, member, rfl⟩, missing⟩
    · simp [unfinished]
  · intro k left
    simp only [unfinished, Finset.mem_filter, List.mem_cons, not_or] at left ⊢
    exact ⟨left.1, left.2.2⟩

theorem selection_complete (acyclic : Acyclic (Needs key needs items))
    (planned : ∀ item ∈ items, ∀ k ∈ needs item, k ∈ items.map key) (distinct : (items.map key).Nodup) :
    ∀ (turns : Nat) (done : List κ), (unfinished key items done).card ≤ turns →
      ∀ item ∈ items, key item ∉ done → item ∈ selection key needs items turns done := by
  intro turns
  induction turns with
  | zero =>
    intro done none item member missing
    have left : key item ∈ unfinished key items done := by
      simp only [unfinished, Finset.mem_filter, List.mem_toFinset, List.mem_map]
      exact ⟨⟨item, member, rfl⟩, missing⟩
    rw [Finset.card_eq_zero.mp (Nat.le_zero.mp none)] at left
    cases left
  | succ turns ih =>
    intro done enough item member missing
    rcases exists_ready acyclic planned ⟨item, member, missing⟩ with ⟨ready, among, unmet, met⟩
    rcases selection_cons key needs items turns done with empty | ⟨first, chosen, undone, _, same⟩
    · rw [selection] at empty
      cases found : items.find? fun item => !done.contains (key item) && (needs item).all done.contains with
      | none =>
        have refused := List.find?_eq_none.mp found ready among
        simp [unmet] at refused
        rcases refused with ⟨k, needed, absent⟩
        exact absurd (met k needed) absent
      | some first =>
        rw [found] at empty
        cases empty
    · rw [same]
      by_cases here : key item = key first
      · have equal : item = first := List.inj_on_of_nodup_map distinct member chosen here
        rw [equal]
        exact List.mem_cons_self
      · have fewer := unfinished_lt chosen undone
        apply List.mem_cons_of_mem
        apply ih _ (by omega) item member
        intro present
        rcases List.mem_cons.mp present with equal | present
        · exact here equal
        · exact missing present

theorem selection_enough : ∀ (turns more : Nat) (done : List κ), (unfinished key items done).card ≤ turns →
    (unfinished key items done).card ≤ more →
      selection key needs items turns done = selection key needs items more done := by
  have finished : ∀ (turns : Nat) (done : List κ), (unfinished key items done).card = 0 →
      selection key needs items turns done = [] := by
    intro turns done none
    cases turns with
    | zero => rfl
    | succ turns =>
      rcases selection_cons key needs items turns done with empty | ⟨item, member, missing, _, _⟩
      · exact empty
      · have fewer := unfinished_lt member missing
        omega
  intro turns
  induction turns with
  | zero =>
    intro more done none _
    rw [finished more done (Nat.le_zero.mp none), finished 0 done (Nat.le_zero.mp none)]
  | succ turns ih =>
    intro more done few enough
    cases more with
    | zero => rw [finished _ done (Nat.le_zero.mp enough), finished 0 done (Nat.le_zero.mp enough)]
    | succ more =>
      rw [selection, selection]
      split
      · rfl
      · rename_i item found
        have holds := List.find?_some found
        simp only [Bool.and_eq_true, Bool.not_eq_true', List.contains_eq_mem, decide_eq_false_iff_not] at holds
        have fewer := unfinished_lt (List.mem_of_find?_eq_some found) holds.1
        rw [ih more _ (by omega) (by omega)]

theorem unfinished_le (done : List κ) : (unfinished key items done).card ≤ items.length := by
  calc (unfinished key items done).card ≤ (items.map key).toFinset.card := Finset.card_filter_le _ _
    _ ≤ (items.map key).length := List.toFinset_card_le _
    _ = items.length := List.length_map _

theorem selection_congr : ∀ (turns : Nat) {done other : List κ}, (∀ k, k ∈ done ↔ k ∈ other) →
    selection key needs items turns done = selection key needs items turns other := by
  intro turns
  induction turns with
  | zero =>
    intro done other _
    rfl
  | succ turns ih =>
    intro done other same
    have contains : ∀ k, done.contains k = other.contains k := by
      intro k
      rw [List.contains_eq_mem, List.contains_eq_mem, decide_eq_decide]
      exact same k
    have choose : (fun item => !done.contains (key item) && (needs item).all done.contains) =
        fun item => !other.contains (key item) && (needs item).all other.contains := by
      funext item
      rw [contains, funext contains]
    rw [selection, selection, choose]
    split
    · rfl
    · rename_i item _
      have later : ∀ k, k ∈ key item :: done ↔ k ∈ key item :: other := by
        intro k
        rw [List.mem_cons, List.mem_cons, same]
      rw [ih later]

end Selection

/-! Orders in which everything stands after what comes before it, and the least of them. -/

section Least

variable {α : Type*} {before : α → α → Prop}

def Respects (before : α → α → Prop) (order : List α) : Prop :=
  ∀ earlier item later, order = earlier ++ item :: later → ∀ source, before source item → source ∈ earlier

def Greedy [LE α] (before : α → α → Prop) (items order : List α) : Prop :=
  ∀ earlier item later, order = earlier ++ item :: later →
    ∀ other ∈ items, other ∉ earlier → (∀ source, before source other → source ∈ earlier) → item ≤ other

theorem greedy_nil [LE α] (items : List α) : Greedy before items [] := by
  intro earlier item later split
  simp at split

theorem concat_split {order earlier later : List α} {last item : α}
    (split : order ++ [last] = earlier ++ item :: later) :
    (order = earlier ∧ last = item) ∨ ∃ between, order = earlier ++ item :: between := by
  rcases List.eq_nil_or_concat later with rfl | ⟨between, end_, rfl⟩
  · rcases List.append_inj' split rfl with ⟨same, lasts⟩
    cases lasts
    exact .inl ⟨same, rfl⟩
  · rw [List.concat_eq_append, ← List.cons_append, ← List.append_assoc] at split
    exact .inr ⟨between, (List.append_inj' split rfl).1⟩

theorem Greedy.concat [LE α] {items order : List α} {item : α} (greedy : Greedy before items order)
    (least : ∀ other ∈ items, other ∉ order → (∀ source, before source other → source ∈ order) → item ≤ other) :
    Greedy before items (order ++ [item]) := by
  intro earlier next later split
  rcases concat_split split with ⟨rfl, rfl⟩ | ⟨between, same⟩
  · exact least
  · exact greedy earlier next between same

/-- Where two orders part, the greedy one has the least that may stand there, and the other one something that may. -/
theorem Greedy.le [LinearOrder α] {items order other : List α} (greedy : Greedy before items order)
    (perm : other.Perm items) (distinct : other.Nodup) (respects : Respects before other)
    (length : order.length = other.length) : order ≤ other := by
  suffices rest : ∀ common left right : List α, order = common ++ left → other = common ++ right →
      left = right ∨ List.Lex (· < ·) left right by
    rcases rest [] order other rfl rfl with same | less
    · exact le_of_eq same
    · exact le_of_lt less
  intro common left
  induction left generalizing common with
  | nil =>
    intro right splitOrder splitOther
    rw [splitOrder, splitOther, List.append_nil, List.length_append] at length
    exact .inl (List.length_eq_zero_iff.mp (by omega)).symm
  | cons item left ih =>
    intro right splitOrder splitOther
    cases right with
    | nil =>
      rw [splitOrder, splitOther, List.length_append, List.length_append, List.length_cons, List.length_nil] at length
      omega
    | cons chosen right =>
      have among : chosen ∈ items := by
        apply perm.mem_iff.mp
        rw [splitOther]
        simp
      have fresh : chosen ∉ common := by
        intro again
        rw [splitOther] at distinct
        exact (List.nodup_append.mp distinct).2.2 chosen again chosen List.mem_cons_self rfl
      have least : item ≤ chosen :=
        greedy common item left splitOrder chosen among fresh (respects common chosen right splitOther)
      rcases lt_or_eq_of_le least with less | rfl
      · exact .inr (.rel less)
      · have after : left = right ∨ List.Lex (· < ·) left right := by
          apply ih (common ++ [item]) right
          · rw [splitOrder, List.append_assoc, List.singleton_append]
          · rw [splitOther, List.append_assoc, List.singleton_append]
        rcases after with same | less
        · exact .inl (congrArg _ same)
        · exact .inr (.cons less)

end Least

end Library

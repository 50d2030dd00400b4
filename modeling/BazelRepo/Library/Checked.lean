import Mathlib.Algebra.Group.Int.Defs
import Mathlib.Algebra.Group.Nat.Defs
import Mathlib.Tactic.Common

universe v

namespace Library

def okOr {ε α : Type*} (value : Option α) (error : ε) : Except ε α :=
  match value with
  | some a => .ok a
  | none => .error error

theorem bind_eq_ok {ε : Type*} {α β : Type v} {x : Except ε α} {f : α → Except ε β} {b : β} :
    (x >>= f) = .ok b ↔ ∃ a, x = .ok a ∧ f a = .ok b := by
  cases x <;> simp [bind, Except.bind]

theorem bind_eq_error {ε : Type*} {α β : Type v} {x : Except ε α} {f : α → Except ε β} {e : ε} :
    (x >>= f) = .error e ↔ x = .error e ∨ ∃ a, x = .ok a ∧ f a = .error e := by
  cases x <;> simp [bind, Except.bind]

@[simp] theorem ok_bind {ε : Type*} {α β : Type v} (a : α) (f : α → Except ε β) : (.ok a >>= f) = f a := rfl

@[simp] theorem error_bind {ε : Type*} {α β : Type v} (e : ε) (f : α → Except ε β) :
    ((.error e : Except ε α) >>= f) = .error e := rfl

theorem reject_eq_ok {ε α : Type*} {c : Prop} [Decidable c] {e : ε} {x : Except ε α} {a : α} :
    (if c then .error e else x) = .ok a ↔ ¬ c ∧ x = .ok a := by
  split <;> simp_all

theorem okOr_eq_ok {ε α : Type*} {value : Option α} {error : ε} {a : α} :
    okOr value error = .ok a ↔ value = some a := by
  cases value <;> simp [okOr]

@[simp] theorem okOr_some {ε α : Type*} (a : α) (error : ε) : okOr (some a) error = .ok a := rfl

theorem mapError_eq_ok {ε ε' α : Type*} {f : ε → ε'} {x : Except ε α} {a : α} :
    x.mapError f = .ok a ↔ x = .ok a := by
  cases x <;> simp [Except.mapError]

theorem exists_eq_ok {ε α : Type*} {x : Except ε α} (accepted : x.isOk = true) : ∃ a, x = .ok a := by
  cases x with
  | ok a => exact ⟨a, rfl⟩
  | error e => cases accepted

theorem mapM_eq_ok_map {ε α : Type*} {β : Type v} {f : α → Except ε β} {g : α → β} :
    ∀ {inputs : List α}, (∀ a ∈ inputs, f a = .ok (g a)) → inputs.mapM f = .ok (inputs.map g) := by
  intro inputs
  induction inputs with
  | nil => intro _; rfl
  | cons a rest ih =>
    intro computed
    rw [List.mapM_cons, computed a List.mem_cons_self,
      ok_bind, ih fun b member => computed b (List.mem_cons_of_mem _ member)]
    rfl

theorem mapM_eq_some_map {α : Type*} {β : Type v} {f : α → Option β} {g : α → β} :
    ∀ {inputs : List α}, (∀ a ∈ inputs, f a = some (g a)) → inputs.mapM f = some (inputs.map g) := by
  intro inputs
  induction inputs with
  | nil => intro _; rfl
  | cons a rest ih =>
    intro computed
    rw [List.mapM_cons, computed a List.mem_cons_self, ih fun b member => computed b (List.mem_cons_of_mem _ member)]
    rfl

theorem exists_mapM_ok {ε α : Type*} {β : Type v} {f : α → Except ε β} :
    ∀ {inputs : List α}, (∀ a ∈ inputs, ∃ b, f a = .ok b) → ∃ outputs, inputs.mapM f = .ok outputs := by
  intro inputs
  induction inputs with
  | nil =>
    intro _
    exact ⟨[], rfl⟩
  | cons a rest ih =>
    intro computed
    rcases computed a List.mem_cons_self with ⟨b, first⟩
    rcases ih (fun other member => computed other (List.mem_cons_of_mem _ member)) with ⟨others, tail⟩
    refine ⟨b :: others, ?_⟩
    rw [List.mapM_cons, first, ok_bind, tail, ok_bind]
    rfl

theorem exists_ok_of_mapM {ε α : Type*} {β : Type v} {f : α → Except ε β} :
    ∀ {inputs : List α} {outputs : List β}, inputs.mapM f = .ok outputs → ∀ a ∈ inputs, ∃ b, f a = .ok b := by
  intro inputs
  induction inputs with
  | nil =>
    intro outputs _ a member
    cases member
  | cons first rest ih =>
    intro outputs computed a member
    rw [List.mapM_cons, bind_eq_ok] at computed
    rcases computed with ⟨b, head, computed⟩
    rw [bind_eq_ok] at computed
    rcases computed with ⟨others, tail, _⟩
    rcases List.mem_cons.mp member with rfl | later
    · exact ⟨b, head⟩
    · exact ih tail a later

theorem forall₂_of_mapM {ε α : Type*} {β : Type v} {f : α → Except ε β} {inputs : List α} {outputs : List β}
    (computed : inputs.mapM f = .ok outputs) : List.Forall₂ (fun a b => f a = .ok b) inputs outputs := by
  induction inputs generalizing outputs with
  | nil =>
    cases computed
    exact .nil
  | cons first rest ih =>
    rw [List.mapM_cons, bind_eq_ok] at computed
    rcases computed with ⟨b, head, computed⟩
    rcases bind_eq_ok.mp computed with ⟨others, tail, same⟩
    cases same
    exact .cons head (ih tail)

theorem mem_of_forall₂ {α β : Type} {R : α → β → Prop} {as : List α} {bs : List β} (each : List.Forall₂ R as bs) :
    ∀ b ∈ bs, ∃ a ∈ as, R a b := by
  induction each with
  | nil =>
    intro b member
    cases member
  | cons related _ ih =>
    intro b member
    rcases List.mem_cons.mp member with rfl | member
    · exact ⟨_, List.mem_cons_self, related⟩
    · rcases ih b member with ⟨a, listed, related⟩
      exact ⟨a, List.mem_cons_of_mem _ listed, related⟩

theorem forM_eq_ok {ε α : Type*} {check : α → Except ε PUnit} {inputs : List α} :
    inputs.forM check = .ok ⟨⟩ ↔ ∀ a ∈ inputs, check a = .ok ⟨⟩ := by
  induction inputs with
  | nil =>
    constructor
    · intro _ a member
      cases member
    · intro _
      rfl
  | cons first rest ih =>
    show (check first >>= fun _ => rest.forM check) = _ ↔ _
    rw [bind_eq_ok, List.forall_mem_cons, ← ih]
    constructor
    · rintro ⟨⟨⟩, passed, others⟩
      exact ⟨passed, others⟩
    · rintro ⟨passed, others⟩
      exact ⟨⟨⟩, passed, others⟩

theorem exists_of_forM_error {ε α : Type*} {check : α → Except ε PUnit} {e : ε} {inputs : List α}
    (failed : inputs.forM check = .error e) : ∃ a ∈ inputs, check a = .error e := by
  induction inputs with
  | nil => cases failed
  | cons first rest ih =>
    replace failed : (check first >>= fun _ => rest.forM check) = .error e := failed
    rw [bind_eq_error] at failed
    rcases failed with failed | ⟨_, _, failed⟩
    · exact ⟨first, List.mem_cons_self, failed⟩
    · rcases ih failed with ⟨a, member, failed⟩
      exact ⟨a, List.mem_cons_of_mem _ member, failed⟩

theorem foldlM_invariant {ε α : Type*} {σ : Type v} {step : σ → α → Except ε σ} {P : σ → Prop}
    (preserved : ∀ s a s', P s → step s a = .ok s' → P s') :
    ∀ (inputs : List α) (s s' : σ), P s → inputs.foldlM step s = .ok s' → P s' := by
  intro inputs
  induction inputs with
  | nil =>
    intro s s' holds run
    cases run
    exact holds
  | cons a rest ih =>
    intro s s' holds run
    rw [List.foldlM_cons, bind_eq_ok] at run
    obtain ⟨middle, first, run⟩ := run
    exact ih middle s' (preserved s a middle holds first) run

/-- The same where what is kept depends on the inputs so far, with what held where the fold failed. -/
theorem foldlM_prefix {ε α : Type*} {σ : Type v} {step : σ → α → Except ε σ} {P : List α → σ → Prop}
    {inputs : List α} {s : σ} (initial : P [] s)
    (preserved : ∀ done a rest s s', inputs = done ++ a :: rest → P done s → step s a = .ok s' → P (done ++ [a]) s') :
    (∀ s', inputs.foldlM step s = .ok s' → P inputs s') ∧
      ∀ e, inputs.foldlM step s = .error e →
        ∃ done a rest middle, inputs = done ++ a :: rest ∧ P done middle ∧ step middle a = .error e := by
  have general : ∀ (rest done : List α) (s : σ), inputs = done ++ rest → P done s →
      (∀ s', rest.foldlM step s = .ok s' → P inputs s') ∧
        ∀ e, rest.foldlM step s = .error e →
          ∃ done a rest middle, inputs = done ++ a :: rest ∧ P done middle ∧ step middle a = .error e := by
    intro rest
    induction rest with
    | nil =>
      intro done s split holds
      rw [List.append_nil] at split
      subst split
      constructor
      · intro s' run
        cases run
        exact holds
      · intro e run
        cases run
    | cons a rest ih =>
      intro done s split holds
      rw [List.foldlM_cons]
      have further : ∀ middle, step s a = .ok middle → _ := fun middle first =>
        ih (done ++ [a]) middle (by rw [split, List.append_assoc]; rfl) (preserved done a rest s middle split holds first)
      constructor
      · intro s' run
        rcases bind_eq_ok.mp run with ⟨middle, first, run⟩
        exact (further middle first).1 s' run
      · intro e run
        rcases bind_eq_error.mp run with failed | ⟨middle, first, run⟩
        · exact ⟨done, a, rest, s, split, holds, failed⟩
        · exact (further middle first).2 e run
  exact general inputs [] s rfl initial

theorem foldlM_total {ε α : Type*} {σ : Type v} {step : σ → α → Except ε σ} {P : List α → σ → Prop} {inputs : List α}
    {s : σ} (initial : P [] s) (preserved : ∀ done a rest s, inputs = done ++ a :: rest → P done s →
      ∃ s', step s a = .ok s' ∧ P (done ++ [a]) s') : ∃ s', inputs.foldlM step s = .ok s' ∧ P inputs s' := by
  have kept : ∀ done a rest s s', inputs = done ++ a :: rest → P done s → step s a = .ok s' → P (done ++ [a]) s' := by
    intro done a rest s s' split holds stepped
    rcases preserved done a rest s split holds with ⟨next, same, kept⟩
    rw [stepped] at same
    cases same
    exact kept
  rcases foldlM_prefix initial kept with ⟨passes, fails⟩
  cases run : inputs.foldlM step s with
  | ok s' => exact ⟨s', rfl, passes s' run⟩
  | error e =>
    rcases fails e run with ⟨done, a, rest, middle, split, holds, failed⟩
    rcases preserved done a rest middle split holds with ⟨next, same, _⟩
    rw [failed] at same
    cases same

theorem zipIdx_split {α : Type*} {items : List α} {done rest : List (α × Nat)} {a : α} {index : Nat}
    (split : items.zipIdx = done ++ (a, index) :: rest) :
    index = done.length ∧ items = done.map Prod.fst ++ a :: rest.map Prod.fst := by
  have place : items.zipIdx[done.length]? = some (a, index) := by
    rw [split]
    simp
  rw [List.getElem?_zipIdx, Option.map_eq_some_iff] at place
  rcases place with ⟨b, _, same⟩
  have plain := congrArg (List.map Prod.fst) split
  rw [List.zipIdx_map_fst] at plain
  refine ⟨?_, by rw [plain]; simp⟩
  have position := congrArg Prod.snd same
  simpa using position.symm

theorem forM_zipIdx_eq_error {ε α : Type*} {check : α × Nat → Except ε PUnit} {items : List α} {e : ε} :
    items.zipIdx.forM check = .error e ↔ ∃ before a rest, items = before ++ a :: rest ∧
      (∀ (i : Nat) (b : α), before[i]? = some b → check (b, i) = .ok ⟨⟩) ∧ check (a, before.length) = .error e := by
  have general : ∀ (items : List α) (start : Nat), (items.zipIdx start).forM check = .error e ↔
      ∃ before a rest, items = before ++ a :: rest ∧
        (∀ (i : Nat) (b : α), before[i]? = some b → check (b, start + i) = .ok ⟨⟩) ∧
          check (a, start + before.length) = .error e := by
    intro items
    induction items with
    | nil =>
      intro start
      constructor
      · intro failed
        cases failed
      · rintro ⟨before, a, rest, split, _⟩
        simp at split
    | cons first others ih =>
      intro start
      show (check (first, start) >>= fun _ => (others.zipIdx (start + 1)).forM check) = _ ↔ _
      rw [bind_eq_error]
      constructor
      · rintro (failed | ⟨⟨⟩, passed, failed⟩)
        · exact ⟨[], first, others, rfl, by simp, failed⟩
        · rcases (ih (start + 1)).mp failed with ⟨before, a, rest, rfl, earlier, failed⟩
          refine ⟨first :: before, a, rest, rfl, ?_, ?_⟩
          · intro i b found
            cases i with
            | zero =>
              cases found
              exact passed
            | succ i =>
              have later := earlier i b (by simpa using found)
              rwa [Nat.add_assoc, Nat.add_comm 1] at later
          · rwa [List.length_cons, Nat.add_comm before.length, ← Nat.add_assoc]
      · rintro ⟨before, a, rest, split, earlier, failed⟩
        cases before with
        | nil =>
          cases split
          exact .inl failed
        | cons b before =>
          cases split
          refine .inr ⟨⟨⟩, earlier 0 _ rfl, (ih (start + 1)).mpr ⟨before, a, rest, rfl, ?_, ?_⟩⟩
          · intro i b found
            have later := earlier (i + 1) b (by simpa using found)
            rwa [Nat.add_assoc, Nat.add_comm 1]
          · rwa [List.length_cons, Nat.add_comm before.length, ← Nat.add_assoc] at failed
  have whole := general items 0
  simpa only [Nat.zero_add] using whole

theorem foldlM_append_ok {ε α : Type*} {σ : Type v} {step : σ → α → Except ε σ} {left right : List α} {s middle s' : σ}
    (first : left.foldlM step s = .ok middle) (second : right.foldlM step middle = .ok s') :
    (left ++ right).foldlM step s = .ok s' := by
  rw [List.foldlM_append, bind_eq_ok]
  exact ⟨middle, first, second⟩

/-- The conversion of a wide integer to 64 signed bits, absent when it does not fit. -/
def tryFrom (i : Int) : Option Int64 :=
  if -2^63 ≤ i ∧ i < 2^63 then some (Int64.ofInt i) else none

theorem tryFrom_eq_some {i : Int} {a : Int64} : tryFrom i = some a ↔ a.toInt = i := by
  unfold tryFrom
  constructor
  · intro converted
    split at converted
    · rename_i bounds
      cases converted
      exact Int64.toInt_ofInt_of_le bounds.1 bounds.2
    · cases converted
  · intro value
    subst value
    rw [if_pos ⟨a.le_toInt, a.toInt_lt⟩, Int64.ofInt_toInt]

theorem tryFrom_eq_none {i : Int} : tryFrom i = none ↔ i < -2^63 ∨ 2^63 ≤ i := by
  unfold tryFrom
  split <;> simp <;> omega

theorem tryFrom_of_bounds {i : Int} (lower : -2^63 ≤ i) (upper : i < 2^63) :
    ∃ a, tryFrom i = some a ∧ a.toInt = i :=
  ⟨Int64.ofInt i, by rw [tryFrom, if_pos ⟨lower, upper⟩], Int64.toInt_ofInt_of_le lower upper⟩

def checkedAdd (a b : Int64) : Option Int64 :=
  tryFrom (a.toInt + b.toInt)

def checkedSub (a b : Int64) : Option Int64 :=
  tryFrom (a.toInt - b.toInt)

def checkedMul (a b : Int64) : Option Int64 :=
  tryFrom (a.toInt * b.toInt)

theorem checkedAdd_eq_some {a b c : Int64} : checkedAdd a b = some c ↔ c.toInt = a.toInt + b.toInt :=
  tryFrom_eq_some

theorem checkedSub_eq_some {a b c : Int64} : checkedSub a b = some c ↔ c.toInt = a.toInt - b.toInt :=
  tryFrom_eq_some

theorem checkedMul_eq_some {a b c : Int64} : checkedMul a b = some c ↔ c.toInt = a.toInt * b.toInt :=
  tryFrom_eq_some

theorem bmod_of_bounds {i : Int} (lower : -2^63 ≤ i) (upper : i < 2^63) : i.bmod (2^64) = i :=
  Int.bmod_eq_of_le (by omega) (by omega)

theorem toInt_add_of_bounds {a b : Int64} (lower : -2^63 ≤ a.toInt + b.toInt) (upper : a.toInt + b.toInt < 2^63) :
    (a + b).toInt = a.toInt + b.toInt := by
  rw [Int64.toInt_add]
  exact bmod_of_bounds lower upper

theorem toInt_mul_of_bounds {a b : Int64} (lower : -2^63 ≤ a.toInt * b.toInt) (upper : a.toInt * b.toInt < 2^63) :
    (a * b).toInt = a.toInt * b.toInt := by
  rw [Int64.toInt_mul]
  exact bmod_of_bounds lower upper

theorem toInt_div_of_nonneg {a b : Int64} (nonneg : 0 ≤ a.toInt) (positive : 0 < b.toInt) :
    (a / b).toInt = a.toInt / b.toInt := by
  have upper := a.toInt_lt
  have quotient : 0 ≤ a.toInt / b.toInt := Int.ediv_nonneg nonneg (by omega)
  have smaller : a.toInt / b.toInt ≤ a.toInt := Int.ediv_le_self _ nonneg
  rw [Int64.toInt_div, Int.tdiv_eq_ediv_of_nonneg nonneg]
  exact bmod_of_bounds (by omega) (by omega)

theorem toInt_sub_of_bounds {a b : Int64} (nonneg : 0 ≤ b.toInt) (bound : b.toInt ≤ a.toInt) :
    (a - b).toInt = a.toInt - b.toInt := by
  have upper := a.toInt_lt
  have lower : (0 : Int) ≤ a.toInt - b.toInt := by omega
  rw [Int64.toInt_sub, Int.bmod_def]
  rw [Int.emod_eq_of_lt lower (by omega)]
  split <;> omega

end Library

import Mathlib.Data.List.Perm.Basic
import Mathlib.Tactic.Common

namespace Library

/-- A computation on a state that may fail. A failure keeps the changes made before it. -/
def Procedure (σ ε α : Type) : Type :=
  σ → σ × Except ε α

variable {σ ε α β : Type}

namespace Procedure

instance : Monad (Procedure σ ε) where
  pure a := fun s => (s, .ok a)
  bind m f := fun s =>
    match m s with
    | (t, .ok a) => f a t
    | (t, .error e) => (t, .error e)

def read : Procedure σ ε σ := fun s => (s, .ok s)

def change (f : σ → σ) : Procedure σ ε Unit := fun s => (f s, .ok ())

def changing (f : σ → σ × α) : Procedure σ ε α := fun s => ((f s).1, .ok (f s).2)

def fail (e : ε) : Procedure σ ε α := fun s => (s, .error e)

def ofExcept (x : Except ε α) : Procedure σ ε α := fun s => (s, x)

def attempt (m : Procedure σ ε α) : Procedure σ ε (Except ε α) := fun s => ((m s).1, .ok (m s).2)

def mapError {ε' : Type} (f : ε → ε') (m : Procedure σ ε α) : Procedure σ ε' α := fun s => ((m s).1, (m s).2.mapError f)

theorem bind_apply (m : Procedure σ ε α) (f : α → Procedure σ ε β) (s : σ) :
    (m >>= f) s = match m s with
      | (t, .ok a) => f a t
      | (t, .error e) => (t, .error e) := rfl

theorem bind_eq_of_ok {m : Procedure σ ε α} {f : α → Procedure σ ε β} {s t : σ} {a : α} (done : m s = (t, .ok a)) :
    (m >>= f) s = f a t := by
  rw [bind_apply, done]

theorem bind_eq_of_error {m : Procedure σ ε α} {f : α → Procedure σ ε β} {s t : σ} {e : ε}
    (failed : m s = (t, .error e)) : (m >>= f) s = (t, .error e) := by
  rw [bind_apply, failed]

theorem bind_eq_ok_iff {m : Procedure σ ε α} {f : α → Procedure σ ε β} {s u : σ} {b : β} :
    (m >>= f) s = (u, .ok b) ↔ ∃ t a, m s = (t, .ok a) ∧ f a t = (u, .ok b) := by
  rw [bind_apply]
  rcases same : m s with ⟨t, _ | a⟩
  · simp
  · simp

@[simp] theorem read_bind (f : σ → Procedure σ ε β) (s : σ) : (read >>= f) s = f s s := rfl

@[simp] theorem change_bind (g : σ → σ) (f : Unit → Procedure σ ε β) (s : σ) : (change g >>= f) s = f () (g s) := rfl

theorem id_map (m : Procedure σ ε α) : id <$> m = m := by
  funext s
  show (match m s with
    | (t, .ok a) => (t, .ok a)
    | (t, .error e) => (t, .error e)) = m s
  rcases m s with ⟨t, _ | _⟩ <;> rfl

theorem bind_assoc {γ : Type} (m : Procedure σ ε α) (f : α → Procedure σ ε β) (g : β → Procedure σ ε γ) :
    m >>= f >>= g = m >>= fun a => f a >>= g := by
  funext s
  simp only [bind_apply]
  rcases m s with ⟨t, _ | _⟩ <;> rfl

instance : LawfulMonad (Procedure σ ε) :=
  .mk' _ id_map (fun _ _ => rfl) bind_assoc

section Invariants

variable {τ : Type} {I : List τ → σ → Prop} {given : List τ} {m : Procedure σ ε α} {s : σ}

/-- The invariant of a state counts the tokens that were handed out and are not yet put away. From the state, a
computation keeps it and may put away the tokens given to it, whether it succeeds or not. -/
def UsesAt (I : List τ → σ → Prop) (given : List τ) (m : Procedure σ ε α) (s : σ) : Prop :=
  ∀ held, I (given ++ held) s → I held (m s).1

def Uses (I : List τ → σ → Prop) (given : List τ) (m : Procedure σ ε α) : Prop :=
  ∀ s, UsesAt I given m s

abbrev Maintains (I : List τ → σ → Prop) (m : Procedure σ ε α) : Prop :=
  Uses I [] m

def Yields (I : List τ → σ → Prop) (tokens : α → List τ) (m : Procedure σ ε α) : Prop :=
  ∀ s held, I held s → match m s with
    | (t, .ok a) => I (tokens a ++ held) t
    | (t, .error _) => I held t

structure Forgets (I : List τ → σ → Prop) : Prop where
  keep : ∀ {held kept s}, kept.Subperm held → I held s → I kept s

theorem Forgets.lose (forgets : Forgets I) {held : List τ} (invariant : I (given ++ held) s) : I held s :=
  forgets.keep (List.sublist_append_right given held).subperm invariant

theorem UsesAt.bind (forgets : Forgets I) {f : α → Procedure σ ε β} (first : UsesAt I [] m s)
    (second : ∀ a t, m s = (t, .ok a) → UsesAt I given (f a) t) : UsesAt I given (m >>= f) s := by
  intro held invariant
  have kept := first (given ++ held) invariant
  rw [bind_apply]
  rcases same : m s with ⟨t, e | a⟩
  · rw [same] at kept
    exact forgets.lose kept
  · rw [same] at kept
    exact second a t same held kept

/-- The first step kept the invariant for a reason of its own. -/
theorem Maintains.after {f : α → Procedure σ ε β} {held : List τ} (kept : I held (m s).1)
    (rest : ∀ a, Maintains I (f a)) : I held ((m >>= f) s).1 := by
  rw [bind_apply]
  rcases same : m s with ⟨t, e | a⟩
  · rwa [same] at kept
  · rw [same] at kept
    exact rest a t held kept

theorem Uses.bind (forgets : Forgets I) {f : α → Procedure σ ε β} (first : Maintains I m)
    (second : ∀ a, Uses I given (f a)) : Uses I given (m >>= f) :=
  fun s => (first s).bind forgets fun a t _ => second a t

theorem UsesAt.reorder (forgets : Forgets I) {others : List τ} (perm : others.Perm given) (uses : UsesAt I given m s) :
    UsesAt I others m s :=
  fun held invariant => uses held (forgets.keep (perm.symm.append_right held).subperm invariant)

theorem Uses.pure (forgets : Forgets I) (a : α) : Uses I given (Pure.pure a : Procedure σ ε α) :=
  fun _ _ => forgets.lose

theorem Uses.fail (forgets : Forgets I) (e : ε) : Uses I given (Procedure.fail e : Procedure σ ε α) :=
  fun _ _ => forgets.lose

theorem Maintains.ofExcept (x : Except ε α) : Maintains I (Procedure.ofExcept x : Procedure σ ε α) :=
  fun _ _ => id

theorem Maintains.change {g : σ → σ} (kept : ∀ held s, I held s → I held (g s)) :
    Maintains I (Procedure.change g : Procedure σ ε Unit) :=
  fun s held => kept held s

theorem Maintains.changing {g : σ → σ × α} (kept : ∀ held s, I held s → I held (g s).1) :
    Maintains I (Procedure.changing g : Procedure σ ε α) :=
  fun s held => kept held s

theorem UsesAt.read_bind {f : σ → Procedure σ ε β} (rest : UsesAt I given (f s) s) :
    UsesAt I given (Procedure.read >>= f) s :=
  rest

theorem UsesAt.change_bind {f : Unit → Procedure σ ε β} {g : σ → σ}
    (kept : ∀ held, I held s → I held (g s)) (rest : UsesAt I given (f ()) (g s)) :
    UsesAt I given (Procedure.change g >>= f) s :=
  fun held invariant => rest held (kept _ invariant)

theorem Uses.read_bind {f : σ → Procedure σ ε β} (rest : ∀ t, Uses I given (f t)) :
    Uses I given (Procedure.read >>= f) :=
  fun s => rest s s

theorem UsesAt.ofExcept_bind (forgets : Forgets I) {x : Except ε α} {f : α → Procedure σ ε β}
    (rest : ∀ a, x = .ok a → UsesAt I given (f a) s) : UsesAt I given (Procedure.ofExcept x >>= f) s := by
  cases x with
  | error e => exact fun _ => forgets.lose
  | ok a => exact rest a rfl

theorem Uses.ofExcept_bind (forgets : Forgets I) {x : Except ε α} {f : α → Procedure σ ε β}
    (rest : ∀ a, x = .ok a → Uses I given (f a)) : Uses I given (Procedure.ofExcept x >>= f) :=
  fun _ => .ofExcept_bind forgets fun a found => rest a found _

theorem Yields.bind (forgets : Forgets I) {tokens : α → List τ} {f : α → Procedure σ ε β} (first : Yields I tokens m)
    (second : ∀ a, Uses I (tokens a ++ given) (f a)) : Uses I given (m >>= f) := by
  intro s held invariant
  have kept := first s (given ++ held) invariant
  rw [bind_apply]
  rcases same : m s with ⟨t, e | a⟩
  · rw [same] at kept
    exact forgets.lose kept
  · rw [same] at kept
    apply second a t held
    rwa [List.append_assoc]

theorem Uses.bind_pure {f : α → β} (last : Uses I given m) : Uses I given (m >>= fun a => Pure.pure (f a)) := by
  intro s held invariant
  have kept := last s held invariant
  rw [bind_apply]
  rcases same : m s with ⟨t, e | a⟩
  · rwa [same] at kept
  · rwa [same] at kept

theorem Maintains.forM {f : β → Procedure σ ε PUnit} {xs : List β} (forgets : Forgets I)
    (each : ∀ x ∈ xs, Maintains I (f x)) : Maintains I (xs.forM f) := by
  induction xs with
  | nil => exact fun s held => id
  | cons x rest ih =>
    apply Uses.bind forgets (each x List.mem_cons_self)
    intro _
    exact ih fun y member => each y (List.mem_cons_of_mem _ member)

theorem Maintains.mapM {f : β → Procedure σ ε α} {xs : List β} (forgets : Forgets I)
    (each : ∀ x ∈ xs, Maintains I (f x)) : Maintains I (xs.mapM f) := by
  induction xs with
  | nil => exact fun s held => id
  | cons x rest ih =>
    rw [List.mapM_cons]
    apply Uses.bind forgets (each x List.mem_cons_self)
    intro _
    apply Uses.bind forgets (ih fun y member => each y (List.mem_cons_of_mem _ member))
    intro _
    exact Uses.pure forgets _

theorem Yields.mapM {f : β → Procedure σ ε τ} (forgets : Forgets I) (each : ∀ x, Yields I (fun token => [token]) (f x))
    (xs : List β) : Yields I id (xs.mapM f) := by
  induction xs with
  | nil => exact fun s held => id
  | cons x rest ih =>
    intro s held invariant
    have first := each x s held invariant
    rw [List.mapM_cons, bind_apply]
    rcases one : f x s with ⟨t, e | token⟩
    · rw [one] at first
      exact first
    · rw [one] at first
      have others := ih t (token :: held) first
      dsimp only
      rw [bind_apply]
      rcases more : rest.mapM f t with ⟨u, e | tokens⟩
      · rw [more] at others
        exact forgets.keep (List.sublist_cons_self token held).subperm others
      · rw [more] at others
        exact forgets.keep List.perm_middle.symm.subperm others

end Invariants

end Procedure

end Library

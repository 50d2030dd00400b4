import Mathlib.Tactic.Common

universe u

namespace Library

/-- A program that asks its environment questions of the type `Op` and goes on with their answers. -/
inductive Program (Op : Type) (Answer : Op → Type) (α : Type) where
  | done (a : α)
  | ask (op : Op) (next : Answer op → Program Op Answer α)

namespace Program

variable {Op : Type} {Answer : Op → Type} {α β : Type}

protected def bind : Program Op Answer α → (α → Program Op Answer β) → Program Op Answer β
  | done a, f => f a
  | ask op next, f => ask op fun answer => (next answer).bind f

instance : Monad (Program Op Answer) where
  pure := done
  bind := Program.bind

theorem bind_done (a : α) (f : α → Program Op Answer β) : done a >>= f = f a := rfl

theorem bind_ask (op : Op) (next : Answer op → Program Op Answer α) (f : α → Program Op Answer β) :
    ask op next >>= f = ask op fun answer => next answer >>= f := rfl

def perform (op : Op) : Program Op Answer (Answer op) := ask op done

def embed {Wide : Type} {WideAnswer : Wide → Type} (widen : Op → Wide)
    (narrow : ∀ op, WideAnswer (widen op) → Answer op) : Program Op Answer α → Program Wide WideAnswer α
  | done a => done a
  | ask op next => ask (widen op) fun answer => (next (narrow op answer)).embed widen narrow

def runIn {σ : Type u} (environment : σ → (op : Op) → σ × Answer op) : Program Op Answer α → σ → σ × α
  | done a, state => (state, a)
  | ask op next, state => (next (environment state op).2).runIn environment (environment state op).1

theorem runIn_bind {σ : Type u} (environment : σ → (op : Op) → σ × Answer op) (f : α → Program Op Answer β)
    (program : Program Op Answer α) : ∀ state : σ, (program >>= f).runIn environment state =
      (f (program.runIn environment state).2).runIn environment (program.runIn environment state).1 := by
  induction program with
  | done a =>
    intro state
    rfl
  | ask op next ih =>
    intro state
    exact ih _ _

end Program

/-- What may be asked, by what is known, and what is known after an answer. -/
structure Protocol (Op : Type) (Answer : Op → Type) (κ : Type u) where
  allowed : κ → Op → Prop
  after : κ → (op : Op) → Answer op → κ

namespace Program

variable {Op : Type} {Answer : Op → Type} {α β : Type} {κ : Type u} {protocol : Protocol Op Answer κ}

/-- Whatever it is answered, the program asks what the protocol allows and ends as promised. -/
def Follows (protocol : Protocol Op Answer κ) (post : κ → α → Prop) : κ → Program Op Answer α → Prop
  | known, done a => post known a
  | known, ask op next =>
    protocol.allowed known op ∧ ∀ answer, (next answer).Follows protocol post (protocol.after known op answer)

theorem Follows.mono {post weaker : κ → α → Prop} (implies : ∀ known a, post known a → weaker known a)
    {program : Program Op Answer α} :
    ∀ {known : κ}, program.Follows protocol post known → program.Follows protocol weaker known := by
  induction program with
  | done a =>
    intro known holds
    exact implies known a holds
  | ask op next ih =>
    rintro known ⟨allowed, follows⟩
    exact ⟨allowed, fun answer => ih answer (follows answer)⟩

theorem Follows.bind {mid : κ → α → Prop} {post : κ → β → Prop} {program : Program Op Answer α}
    {f : α → Program Op Answer β} (continues : ∀ known a, mid known a → (f a).Follows protocol post known) :
    ∀ {known : κ}, program.Follows protocol mid known → (program >>= f).Follows protocol post known := by
  induction program with
  | done a =>
    intro known holds
    exact continues known a holds
  | ask op next ih =>
    rintro known ⟨allowed, follows⟩
    exact ⟨allowed, fun answer => ih answer (follows answer)⟩

theorem follows_embed {Wide : Type} {WideAnswer : Wide → Type} {wide : Protocol Wide WideAnswer κ}
    {widen : Op → Wide} {narrow : ∀ op, WideAnswer (widen op) → Answer op} {post : κ → α → Prop} {known : κ}
    (allowed : ∀ op, wide.allowed known (widen op)) (inert : ∀ op answer, wide.after known (widen op) answer = known)
    (holds : ∀ a, post known a) (program : Program Op Answer α) :
    (program.embed widen narrow).Follows wide post known := by
  induction program with
  | done a => exact holds a
  | ask op next ih =>
    refine ⟨allowed op, ?_⟩
    intro answer
    rw [inert]
    exact ih (narrow op answer)

theorem Follows.bind_congr {mid : κ → α → Prop} {program : Program Op Answer α} {f g : α → Program Op Answer β}
    (same : ∀ known a, mid known a → f a = g a) :
    ∀ {known : κ}, program.Follows protocol mid known → program >>= f = program >>= g := by
  induction program with
  | done a =>
    intro known holds
    exact same known a holds
  | ask op next ih =>
    rintro known ⟨_, follows⟩
    rw [bind_ask, bind_ask]
    congr 1
    funext answer
    exact ih answer (follows answer)

end Program

def Protocol.free (Op : Type) (Answer : Op → Type) : Protocol Op Answer Unit where
  allowed _ _ := True
  after _ _ _ := ()

abbrev Stateful (Op : Type) (Answer : Op → Type) (σ ε α : Type) := ExceptT ε (StateT σ (Program Op Answer)) α

namespace Stateful

variable {Op : Type} {Answer : Op → Type} {σ ε α β : Type} {κ : Type u}

def Keeps (protocol : Protocol Op Answer κ) (pre : κ → σ → Prop) (step : Stateful Op Answer σ ε α)
    (post : κ → σ → α → Prop) : Prop :=
  ∀ known state, pre known state →
    (step state).Follows protocol (fun later result => ∀ a, result.1 = .ok a → post later result.2 a) known

variable {protocol : Protocol Op Answer κ} {pre : κ → σ → Prop} {post : κ → σ → α → Prop}

theorem keeps_pure {a : α} (holds : ∀ known state, pre known state → post known state a) :
    Keeps protocol pre (pure a : Stateful Op Answer σ ε α) post := by
  rintro known state before _ ⟨⟩
  exact holds known state before

theorem bind_apply (step : Stateful Op Answer σ ε α) (f : α → Stateful Op Answer σ ε β) (state : σ) :
    (step >>= f) state = step state >>= fun result =>
      match result.1 with
      | .ok a => f a result.2
      | .error failure => .done (.error failure, result.2) := by
  show (step state).bind _ = (step state).bind _
  congr 1
  funext result
  rcases result with ⟨_ | _, _⟩ <;> rfl

section Environment

variable {τ : Type u} {environment : τ → (op : Op) → τ × Answer op} {step : Stateful Op Answer σ ε α} {state later : σ}
  {before after : τ}

theorem runIn_bind_ok {a : α} (ran : (step state).runIn environment before = (after, .ok a, later))
    (f : α → Stateful Op Answer σ ε β) :
    ((step >>= f) state).runIn environment before = (f a later).runIn environment after := by
  rw [bind_apply, Program.runIn_bind, ran]

theorem runIn_bind_error {failure : ε} (ran : (step state).runIn environment before = (after, .error failure, later))
    (f : α → Stateful Op Answer σ ε β) :
    ((step >>= f) state).runIn environment before = (after, .error failure, later) := by
  rw [bind_apply, Program.runIn_bind, ran]
  rfl

end Environment

theorem Keeps.bind {step : Stateful Op Answer σ ε α} {f : α → Stateful Op Answer σ ε β} {mid : κ → σ → α → Prop}
    {post : κ → σ → β → Prop} (first : Keeps protocol pre step mid)
    (second : ∀ a, Keeps protocol (fun known state => mid known state a) (f a) post) :
    Keeps protocol pre (step >>= f) post := by
  intro known state before
  rw [bind_apply]
  apply Program.Follows.bind _ (first known state before)
  intro later result holds
  rcases result with ⟨_ | a, state'⟩
  · rintro _ ⟨⟩
  · exact second a later state' (holds a rfl)

theorem Keeps.bind_congr {step : Stateful Op Answer σ ε α} {f g : α → Stateful Op Answer σ ε β} {mid : κ → σ → α → Prop}
    (first : Keeps protocol pre step mid)
    (same : ∀ known state a, mid known state a → f a state = g a state) (known : κ) {state : σ}
    (before : pre known state) : (step >>= f) state = (step >>= g) state := by
  rw [bind_apply, bind_apply]
  apply Program.Follows.bind_congr _ (first known state before)
  rintro later ⟨_ | a, state'⟩ holds
  · rfl
  · exact same later state' a (holds a rfl)

theorem Keeps.mono {step : Stateful Op Answer σ ε α} {stronger : κ → σ → Prop} {weaker : κ → σ → α → Prop}
    (keeps : Keeps protocol pre step post) (before : ∀ known state, stronger known state → pre known state)
    (after : ∀ known state a, post known state a → weaker known state a) :
    Keeps protocol stronger step weaker := by
  intro known state holds
  apply Program.Follows.mono _ (keeps known state (before known state holds))
  exact fun later result promised a same => after later result.2 a (promised a same)

theorem keeps_get {post : κ → σ → σ → Prop} (holds : ∀ known state, pre known state → post known state state) :
    Keeps protocol pre (get : Stateful Op Answer σ ε σ) post := by
  rintro known state before _ ⟨⟩
  exact holds known state before

theorem keeps_modify {f : σ → σ} {post : κ → σ → Unit → Prop}
    (holds : ∀ known state, pre known state → post known (f state) ()) :
    Keeps protocol pre (modify f : Stateful Op Answer σ ε Unit) post := by
  rintro known state before _ ⟨⟩
  exact holds known state before

theorem keeps_throw (failure : ε) : Keeps protocol pre (throw failure : Stateful Op Answer σ ε α) post := by
  rintro known state before _ ⟨⟩

theorem keeps_except {x : Except ε α} (holds : ∀ known state a, x = .ok a → pre known state → post known state a) :
    Keeps protocol pre (liftM x : Stateful Op Answer σ ε α) post := by
  intro known state before a same
  exact holds known state a same before

theorem Keeps.ite {c : Prop} [Decidable c] {yes no : Stateful Op Answer σ ε α}
    (first : c → Keeps protocol pre yes post) (second : ¬ c → Keeps protocol pre no post) :
    Keeps protocol pre (if c then yes else no) post := by
  split
  · rename_i holds
    exact first holds
  · rename_i fails
    exact second fails

theorem keeps_forM {f : β → Stateful Op Answer σ ε PUnit} {inputs : List β}
    (each : ∀ b ∈ inputs, Keeps protocol pre (f b) fun known state _ => pre known state) :
    Keeps protocol pre (inputs.forM f) fun known state _ => pre known state := by
  induction inputs with
  | nil => exact keeps_pure fun _ _ before => before
  | cons b rest ih =>
    apply Keeps.bind (each b List.mem_cons_self)
    intro _
    exact ih fun other member => each other (List.mem_cons_of_mem _ member)

end Stateful

end Library

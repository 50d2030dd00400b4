import BazelRepo.Library.Program
import Mathlib.Logic.Relation

universe u

namespace Library

structure Pool (σ : Type u) (Op : Type) (Answer : Op → Type) (α : Type) where
  state : σ
  running : List (Program Op Answer α) := []
  finished : List α := []

variable {σ : Type u} {Op : Type} {Answer : Op → Type} {α : Type}

/-- One step of some program, each question being answered at once; a program can stop at any question. -/
inductive Pool.Step (runs : σ → (op : Op) → Answer op → σ → Prop) (admits : Program Op Answer α → Prop) :
    Pool σ Op Answer α → Pool σ Op Answer α → Prop where
  | start {pool : Pool σ Op Answer α} {program : Program Op Answer α} (admitted : admits program) :
    Step runs admits pool { pool with running := program :: pool.running }
  | answer {pool : Pool σ Op Answer α} {before after : List (Program Op Answer α)} {op : Op}
    {next : Answer op → Program Op Answer α} {answer : Answer op} {state : σ}
    (asking : pool.running = before ++ .ask op next :: after) (ran : runs pool.state op answer state) :
    Step runs admits pool { pool with state := state, running := before ++ next answer :: after }
  | finish {pool : Pool σ Op Answer α} {before after : List (Program Op Answer α)} {a : α}
    (ended : pool.running = before ++ .done a :: after) :
    Step runs admits pool { pool with running := before ++ after, finished := pool.finished ++ [a] }
  | stop {pool : Pool σ Op Answer α} {before after : List (Program Op Answer α)} {program : Program Op Answer α}
    (stopped : pool.running = before ++ program :: after) :
    Step runs admits pool { pool with running := before ++ after }

abbrev Pool.Steps (runs : σ → (op : Op) → Answer op → σ → Prop) (admits : Program Op Answer α → Prop) :
    Pool σ Op Answer α → Pool σ Op Answer α → Prop := Relation.ReflTransGen (Pool.Step runs admits)

section Alone

variable {runs : σ → (op : Op) → Answer op → σ → Prop} {admits : Program Op Answer α → Prop} {state : σ}
  {finished : List α}

theorem Pool.Steps.ask {op : Op} {next : Answer op → Program Op Answer α} {answer : Answer op} {later : σ}
    {pool : Pool σ Op Answer α} (ran : runs state op answer later)
    (rest : Pool.Steps runs admits ⟨later, [next answer], finished⟩ pool) :
    Pool.Steps runs admits ⟨state, [.ask op next], finished⟩ pool := by
  have asking : [Program.ask op next] = [] ++ .ask op next :: [] := rfl
  have step : Pool.Step runs admits ⟨state, [.ask op next], finished⟩ ⟨later, [] ++ next answer :: [], finished⟩ :=
    .answer asking ran
  exact .head step rest

theorem Pool.Steps.done (a : α) :
    Pool.Steps runs admits ⟨state, [.done a], finished⟩ ⟨state, [], finished ++ [a]⟩ := by
  have ended : [Program.done a] = ([] : List (Program Op Answer α)) ++ .done a :: [] := rfl
  have step : Pool.Step runs admits ⟨state, [.done a], finished⟩ ⟨state, [] ++ [], finished ++ [a]⟩ := .finish ended
  exact .single step

end Alone

/-- What programs rely on and guarantee. Each question has a precondition and tells something by its answer,
and whatever the others may do leaves both as they are. -/
structure Contract (σ : Type u) (Op : Type) (Answer : Op → Type) where
  runs : σ → (op : Op) → Answer op → σ → Prop
  inv : σ → Prop
  may : σ → σ → Prop
  requires : Op → σ → Prop
  ensures : (op : Op) → Answer op → σ → Prop
  refl : ∀ s, may s s
  trans : ∀ {s s' s''}, may s s' → may s' s'' → may s s''
  keeps : ∀ {s s' op answer}, inv s → requires op s → runs s op answer s' →
    inv s' ∧ may s s' ∧ ensures op answer s'
  stays : ∀ {s s' op answer}, inv s → may s s' → ensures op answer s → ensures op answer s'

namespace Contract

variable {contract : Contract σ Op Answer} {post : α → σ → Prop} {admits : Program Op Answer α → Prop}

def Stable (contract : Contract σ Op Answer) (fact : σ → Prop) : Prop :=
  ∀ {s s'}, contract.inv s → contract.may s s' → fact s → fact s'

theorem stable_true : contract.Stable fun _ => True := fun _ _ _ => trivial

theorem Stable.and {first second : σ → Prop} (one : contract.Stable first) (two : contract.Stable second) :
    contract.Stable fun s => first s ∧ second s :=
  fun inv may holds => ⟨one inv may holds.1, two inv may holds.2⟩

theorem stable_ensures (op : Op) (answer : Answer op) : contract.Stable (contract.ensures op answer) :=
  fun inv may holds => contract.stays inv may holds

def protocol (contract : Contract σ Op Answer) : Protocol Op Answer (σ → Prop) where
  allowed known op := ∀ s, contract.inv s → known s → contract.requires op s
  after known op answer := fun s => known s ∧ contract.ensures op answer s

/-- A program that respects the contract and returns only what then holds. -/
def Safe (contract : Contract σ Op Answer) (post : α → σ → Prop) (known : σ → Prop) (program : Program Op Answer α) :
    Prop :=
  program.Follows contract.protocol (fun later a => ∀ s, contract.inv s → later s → post a s) known

/-- Every program is in the middle of a safe run, and what was returned holds. -/
structure Good (contract : Contract σ Op Answer) (post : α → σ → Prop) (pool : Pool σ Op Answer α) : Prop where
  inv : contract.inv pool.state
  safe : ∀ program ∈ pool.running, ∃ known, contract.Stable known ∧ known pool.state ∧ contract.Safe post known program
  returned : ∀ a ∈ pool.finished, post a pool.state

theorem Good.step (stable : ∀ a, contract.Stable (post a))
    (safe : ∀ program, admits program → contract.Safe post (fun _ => True) program) {pool next : Pool σ Op Answer α}
    (good : contract.Good post pool) (step : Pool.Step contract.runs admits pool next) :
    contract.Good post next ∧ contract.may pool.state next.state := by
  cases step with
  | start admitted =>
    refine ⟨⟨good.inv, ?_, good.returned⟩, contract.refl _⟩
    intro other member
    rcases List.mem_cons.mp member with rfl | member
    · exact ⟨_, stable_true, trivial, safe _ admitted⟩
    · exact good.safe other member
  | answer asking ran =>
    rename_i before after op next answer state
    rcases good.safe (.ask op next) (asking ▸ List.mem_append_right _ List.mem_cons_self) with
      ⟨known, known_stable, known_holds, allowed, follows⟩
    rcases contract.keeps good.inv (allowed _ good.inv known_holds) ran with ⟨inv, may, ensured⟩
    have others : ∀ program ∈ pool.running, ∃ known, contract.Stable known ∧ known state ∧
        contract.Safe post known program := by
      intro program member
      rcases good.safe program member with ⟨fact, fact_stable, fact_holds, fact_safe⟩
      exact ⟨fact, fact_stable, fact_stable good.inv may fact_holds, fact_safe⟩
    refine ⟨⟨inv, ?_, fun a member => stable a good.inv may (good.returned a member)⟩, may⟩
    intro program member
    rcases List.mem_append.mp member with member | member
    · exact others program (asking ▸ List.mem_append_left _ member)
    · rcases List.mem_cons.mp member with rfl | member
      · exact ⟨_, known_stable.and (stable_ensures op answer), ⟨known_stable good.inv may known_holds, ensured⟩,
          follows answer⟩
      · exact others program (asking ▸ List.mem_append_right _ (List.mem_cons_of_mem _ member))
  | finish ended =>
    rename_i before after a
    refine ⟨⟨good.inv, ?_, ?_⟩, contract.refl _⟩
    · intro program member
      apply good.safe
      rw [ended]
      rcases List.mem_append.mp member with member | member
      · exact List.mem_append_left _ member
      · exact List.mem_append_right _ (List.mem_cons_of_mem _ member)
    · intro other member
      rcases List.mem_append.mp member with member | member
      · exact good.returned other member
      · rcases good.safe (.done a) (ended ▸ List.mem_append_right _ List.mem_cons_self) with ⟨known, _, holds, done⟩
        rw [List.mem_singleton.mp member]
        exact done _ good.inv holds
  | stop stopped =>
    refine ⟨⟨good.inv, ?_, good.returned⟩, contract.refl _⟩
    intro program member
    apply good.safe
    rw [stopped]
    rcases List.mem_append.mp member with member | member
    · exact List.mem_append_left _ member
    · exact List.mem_append_right _ (List.mem_cons_of_mem _ member)

theorem Good.steps (stable : ∀ a, contract.Stable (post a))
    (safe : ∀ program, admits program → contract.Safe post (fun _ => True) program) {pool next : Pool σ Op Answer α}
    (good : contract.Good post pool) (steps : Pool.Steps contract.runs admits pool next) :
    contract.Good post next ∧ contract.may pool.state next.state := by
  induction steps with
  | refl => exact ⟨good, contract.refl _⟩
  | tail _ step ih =>
    rcases ih.1.step stable safe step with ⟨later, may⟩
    exact ⟨later, contract.trans ih.2 may⟩

theorem good_initial {state : σ} (inv : contract.inv state) : contract.Good post ({ state := state } : Pool σ Op Answer α) where
  inv := inv
  safe := by
    intro program member
    cases member
  returned := by
    intro a member
    cases member

theorem safe_done {known : σ → Prop} {a : α} (holds : ∀ s, contract.inv s → known s → post a s) :
    contract.Safe post known (.done a) := holds

theorem safe_ask {known : σ → Prop} {op : Op} {next : Answer op → Program Op Answer α}
    (allowed : ∀ s, contract.inv s → known s → contract.requires op s)
    (safe : ∀ answer, contract.Safe post (fun s => known s ∧ contract.ensures op answer s) (next answer)) :
    contract.Safe post known (.ask op next) := ⟨allowed, safe⟩

theorem Safe.bind {β : Type} {mid : α → σ → Prop} {post : β → σ → Prop} {known : σ → Prop} {program : Program Op Answer α}
    {f : α → Program Op Answer β} (first : contract.Safe mid known program)
    (second : ∀ a, ∀ later : σ → Prop, (∀ s, contract.inv s → later s → mid a s) → contract.Safe post later (f a)) :
    contract.Safe post known (program >>= f) :=
  Program.Follows.bind (fun later a holds => second a later holds) first

end Contract

end Library

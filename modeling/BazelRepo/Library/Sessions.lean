import BazelRepo.Library.Program
import Mathlib.Logic.Function.Basic
import Mathlib.Logic.Relation

universe u

namespace Library

abbrev Exchange (Op : Type) (Answer : Op → Type) := (op : Op) × Answer op

namespace Program

variable {Op : Type} {Answer : Op → Type} {α β : Type}

inductive Leads : Program Op Answer α → List (Exchange Op Answer) → Program Op Answer α → Prop where
  | here (program : Program Op Answer α) : Leads program [] program
  | ask {op : Op} {next : Answer op → Program Op Answer α} (answer : Answer op) {asked : List (Exchange Op Answer)}
    {rest : Program Op Answer α} (leads : Leads (next answer) asked rest) :
    Leads (.ask op next) (⟨op, answer⟩ :: asked) rest

theorem Leads.snoc {program : Program Op Answer α} {asked : List (Exchange Op Answer)} {op : Op}
    {next : Answer op → Program Op Answer α} (leads : program.Leads asked (.ask op next)) (answer : Answer op) :
    program.Leads (asked ++ [⟨op, answer⟩]) (next answer) := by
  generalize reached : Program.ask op next = rest at leads
  induction leads with
  | here program =>
    subst reached
    exact .ask answer (.here _)
  | ask first _ ih => exact .ask first (ih reached)

/-- All questions of a program are of a kind, and whatever it ends with is as promised. -/
def Ends (kind : Op → Prop) (post : α → Prop) : Program Op Answer α → Prop
  | done a => post a
  | ask op next => kind op ∧ ∀ answer, (next answer).Ends kind post

theorem ends_perform {kind : Op → Prop} {op : Op} (holds : kind op) :
    (perform op : Program Op Answer _).Ends kind fun _ => True := ⟨holds, fun _ => trivial⟩

theorem Ends.bind {kind : Op → Prop} {mid : α → Prop} {post : β → Prop} {f : α → Program Op Answer β}
    (continues : ∀ a, mid a → (f a).Ends kind post) {program : Program Op Answer α} (ends : program.Ends kind mid) :
    (program >>= f).Ends kind post := by
  induction program with
  | done a => exact continues a ends
  | ask op next ih => exact ⟨ends.1, fun answer => ih answer (ends.2 answer)⟩

theorem Ends.leads {kind : Op → Prop} {post : α → Prop} {program : Program Op Answer α} {a : α}
    {asked : List (Exchange Op Answer)} (ends : program.Ends kind post) (leads : program.Leads asked (done a)) : post a := by
  generalize reached : done a = rest at leads
  induction leads with
  | here program =>
    subst reached
    exact ends
  | ask answer _ ih => exact ih (ends.2 answer) reached

theorem Ends.follows {kind : Op → Prop} {post : α → Prop} {κ : Type u} {protocol : Protocol Op Answer κ} {known : κ}
    (inert : ∀ op, kind op → protocol.allowed known op ∧ ∀ answer, protocol.after known op answer = known)
    {program : Program Op Answer α} (ends : program.Ends kind post) :
    program.Follows protocol (fun later a => later = known ∧ post a) known := by
  induction program with
  | done a => exact ⟨rfl, ends⟩
  | ask op next ih =>
    refine ⟨(inert op ends.1).1, ?_⟩
    intro answer
    rw [(inert op ends.1).2]
    exact ih answer (ends.2 answer)

theorem leads_done {a : α} {asked : List (Exchange Op Answer)} {rest : Program Op Answer α} :
    (done a : Program Op Answer α).Leads asked rest ↔ asked = [] ∧ rest = done a := by
  apply Iff.intro
  · intro leads
    cases leads
    exact ⟨rfl, rfl⟩
  · rintro ⟨rfl, rfl⟩
    exact .here _

theorem leads_bind {f : α → Program Op Answer β} {b : β} {program : Program Op Answer α} :
    ∀ {asked : List (Exchange Op Answer)}, (program >>= f).Leads asked (done b) ↔
      ∃ first second a, asked = first ++ second ∧ program.Leads first (done a) ∧ (f a).Leads second (done b) := by
  induction program with
  | done a =>
    intro asked
    rw [bind_done]
    apply Iff.intro
    · intro leads
      exact ⟨[], asked, a, rfl, .here _, leads⟩
    · rintro ⟨first, second, a', rfl, ended, leads⟩
      rcases leads_done.mp ended with ⟨rfl, same⟩
      cases same
      exact leads
  | ask op next ih =>
    intro asked
    rw [bind_ask]
    apply Iff.intro
    · intro leads
      cases leads with
      | ask answer rest =>
        rcases (ih answer).mp rest with ⟨first, second, a, rfl, ran, after⟩
        exact ⟨_ :: first, second, a, rfl, .ask answer ran, after⟩
    · rintro ⟨first, second, a, rfl, ran, after⟩
      cases ran with
      | ask answer rest => exact .ask answer ((ih answer).mpr ⟨_, second, a, rfl, rest, after⟩)

end Program

namespace Stateful

variable {Op : Type} {Answer : Op → Type} {σ ε α β : Type} {kind : Op → Prop} {inv : σ → Prop}

/-- Questions of a kind, and an invariant of the state that also a failure keeps. -/
def Maintains (kind : Op → Prop) (inv : σ → Prop) (step : Stateful Op Answer σ ε α) : Prop :=
  ∀ state, inv state → (step state).Ends kind fun result => inv result.2

theorem maintains_pure (a : α) : Maintains kind inv (pure a : Stateful Op Answer σ ε α) := fun _ holds => holds

theorem maintains_modify {f : σ → σ} (keeps : ∀ state, inv state → inv (f state)) :
    Maintains kind inv (modify f : Stateful Op Answer σ ε Unit) := fun state holds => keeps state holds

theorem Maintains.bind {step : Stateful Op Answer σ ε α} {f : α → Stateful Op Answer σ ε β}
    (first : Maintains kind inv step) (second : ∀ a, Maintains kind inv (f a)) : Maintains kind inv (step >>= f) := by
  intro state holds
  rw [bind_apply]
  apply Program.Ends.bind _ (first state holds)
  intro result kept
  rcases result with ⟨_ | a, later⟩
  · exact kept
  · exact second a later kept

theorem maintains_forM {f : β → Stateful Op Answer σ ε PUnit} {inputs : List β}
    (each : ∀ b ∈ inputs, Maintains kind inv (f b)) : Maintains kind inv (inputs.forM f) := by
  induction inputs with
  | nil => exact maintains_pure _
  | cons b rest ih =>
    apply (each b List.mem_cons_self).bind
    intro _
    exact ih fun other member => each other (List.mem_cons_of_mem _ member)

end Stateful

def Protocol.through {Op : Type} {Answer : Op → Type} {κ : Type u} (protocol : Protocol Op Answer κ) (known : κ)
    (asked : List (Exchange Op Answer)) : κ :=
  asked.foldl (fun later exchange => protocol.after later exchange.1 exchange.2) known

theorem Protocol.through_append {Op : Type} {Answer : Op → Type} {κ : Type u} (protocol : Protocol Op Answer κ)
    (known : κ) (first second : List (Exchange Op Answer)) :
    protocol.through known (first ++ second) = protocol.through (protocol.through known first) second :=
  List.foldl_append

theorem Protocol.through_snoc {Op : Type} {Answer : Op → Type} {κ : Type u} (protocol : Protocol Op Answer κ)
    (known : κ) (asked : List (Exchange Op Answer)) (exchange : Exchange Op Answer) :
    protocol.through known (asked ++ [exchange]) =
      protocol.after (protocol.through known asked) exchange.1 exchange.2 :=
  protocol.through_append known asked [exchange]

def Protocol.Obeys {Op : Type} {Answer : Op → Type} {κ : Type u} (protocol : Protocol Op Answer κ) :
    κ → List (Exchange Op Answer) → Prop
  | _, [] => True
  | known, exchange :: rest =>
    protocol.allowed known exchange.1 ∧ protocol.Obeys (protocol.after known exchange.1 exchange.2) rest

theorem Protocol.obeys_append {Op : Type} {Answer : Op → Type} {κ : Type u} {protocol : Protocol Op Answer κ}
    {first second : List (Exchange Op Answer)} : ∀ {known : κ}, protocol.Obeys known (first ++ second) ↔
      protocol.Obeys known first ∧ protocol.Obeys (protocol.through known first) second := by
  induction first with
  | nil =>
    intro known
    exact (and_iff_right trivial).symm
  | cons exchange rest ih =>
    intro known
    exact (and_congr_right fun _ => ih).trans and_assoc.symm

theorem Program.Follows.obeys {Op : Type} {Answer : Op → Type} {α : Type} {κ : Type u} {protocol : Protocol Op Answer κ}
    {post : κ → α → Prop} {program rest : Program Op Answer α} {asked : List (Exchange Op Answer)}
    (leads : program.Leads asked rest) :
    ∀ {known : κ}, program.Follows protocol post known → protocol.Obeys known asked := by
  induction leads with
  | here program =>
    intro known follows
    trivial
  | ask answer _ ih =>
    intro known follows
    exact ⟨follows.1, ih (follows.2 answer)⟩

theorem Program.Follows.leads {Op : Type} {Answer : Op → Type} {α : Type} {κ : Type u} {protocol : Protocol Op Answer κ}
    {post : κ → α → Prop} {program rest : Program Op Answer α} {asked : List (Exchange Op Answer)}
    (leads : program.Leads asked rest) :
    ∀ {known : κ}, program.Follows protocol post known →
      rest.Follows protocol post (protocol.through known asked) := by
  induction leads with
  | here program =>
    intro known follows
    exact follows
  | ask answer _ ih =>
    intro known follows
    exact ih (follows.2 answer)

/-- A request that is being served: what it was answered so far, and what is left of its program. -/
structure Session (Op : Type) (Answer : Op → Type) (ρ α : Type) where
  request : ρ
  asked : List (Exchange Op Answer) := []
  rest : Program Op Answer α

/-- Requests served side by side, each under a name of its own. One that ended or stopped keeps its name. -/
structure Sessions (σ : Type u) (ι Op : Type) (Answer : Op → Type) (ρ α : Type) where
  state : σ
  session : ι → Option (Session Op Answer ρ α) := fun _ => none

namespace Sessions

variable {σ : Type u} {ι Op : Type} [DecidableEq ι] {Answer : Op → Type} {ρ α : Type}

/-- A request arrives, somebody's question is answered, or the environment moves by itself. Nothing forces a session
to go on, so one whose process stopped is one that takes no more steps. -/
inductive Step (launch : ρ → Program Op Answer α) (runs : σ → ι → (op : Op) → Answer op → σ → Prop)
    (moves : σ → σ → Prop) : Sessions σ ι Op Answer ρ α → Sessions σ ι Op Answer ρ α → Prop where
  | start {pool : Sessions σ ι Op Answer ρ α} {name : ι} (unused : pool.session name = none) (request : ρ) :
    Step launch runs moves pool
      { pool with session := Function.update pool.session name (some ⟨request, [], launch request⟩) }
  | answer {pool : Sessions σ ι Op Answer ρ α} {name : ι} {request : ρ} {asked : List (Exchange Op Answer)} {op : Op}
    {next : Answer op → Program Op Answer α} {answer : Answer op} {state : σ}
    (asking : pool.session name = some ⟨request, asked, .ask op next⟩) (ran : runs pool.state name op answer state) :
    Step launch runs moves pool
      ⟨state, Function.update pool.session name (some ⟨request, asked ++ [⟨op, answer⟩], next answer⟩)⟩
  | move {pool : Sessions σ ι Op Answer ρ α} {state : σ} (moved : moves pool.state state) :
    Step launch runs moves pool { pool with state := state }

abbrev Steps (launch : ρ → Program Op Answer α) (runs : σ → ι → (op : Op) → Answer op → σ → Prop)
    (moves : σ → σ → Prop) : Sessions σ ι Op Answer ρ α → Sessions σ ι Op Answer ρ α → Prop :=
  Relation.ReflTransGen (Step launch runs moves)

inductive Serves (runs : σ → ι → (op : Op) → Answer op → σ → Prop) (name : ι) :
    σ → Program Op Answer α → List (Exchange Op Answer) → σ → Program Op Answer α → Prop where
  | here (s : σ) (program : Program Op Answer α) : Serves runs name s program [] s program
  | ask {s s' last : σ} {op : Op} {next : Answer op → Program Op Answer α} {answer : Answer op}
    {asked : List (Exchange Op Answer)} {rest : Program Op Answer α} (ran : runs s name op answer s')
    (serves : Serves runs name s' (next answer) asked last rest) :
    Serves runs name s (.ask op next) (⟨op, answer⟩ :: asked) last rest

theorem Serves.steps {launch : ρ → Program Op Answer α} {runs : σ → ι → (op : Op) → Answer op → σ → Prop}
    {moves : σ → σ → Prop} {name : ι} {s last : σ} {program rest : Program Op Answer α} {asked : List (Exchange Op Answer)}
    (serves : Serves runs name s program asked last rest) {request : ρ} :
    ∀ {before : List (Exchange Op Answer)} {session : ι → Option (Session Op Answer ρ α)},
      session name = some ⟨request, before, program⟩ → ∃ pool : Sessions σ ι Op Answer ρ α,
        Steps launch runs moves ⟨s, session⟩ pool ∧ pool.state = last ∧
          pool.session name = some ⟨request, before ++ asked, rest⟩ := by
  induction serves with
  | here s program =>
    intro before session present
    refine ⟨_, .refl, rfl, ?_⟩
    rw [List.append_nil]
    exact present
  | @ask s s' last op next answer asked rest ran _ ih =>
    intro before session present
    have step : Step launch runs moves ⟨s, session⟩
        ⟨s', Function.update session name (some ⟨request, before ++ [⟨op, answer⟩], next answer⟩)⟩ := .answer present ran
    rcases ih (Function.update_self name _ session) with ⟨pool, steps, state, there⟩
    refine ⟨pool, .head step steps, state, ?_⟩
    rw [there, List.append_assoc]
    rfl

/-- A session goes on as long as its questions are answered, for a number of steps. -/
def serve (answers : σ → (op : Op) → Option (Answer op × σ)) :
    Nat → σ → Program Op Answer α → List (Exchange Op Answer) × σ × Program Op Answer α
  | 0, s, program => ([], s, program)
  | _ + 1, s, .done a => ([], s, .done a)
  | n + 1, s, .ask op next => match answers s op with
    | none => ([], s, .ask op next)
    | some (answer, s') =>
      let served := serve answers n s' (next answer)
      (⟨op, answer⟩ :: served.1, served.2)

omit [DecidableEq ι] in
theorem serves_serve {answers : σ → (op : Op) → Option (Answer op × σ)} {runs : σ → ι → (op : Op) → Answer op → σ → Prop}
    {name : ι} (possible : ∀ {s op answer s'}, answers s op = some (answer, s') → runs s name op answer s') (n : Nat) :
    ∀ (s : σ) (program : Program Op Answer α),
      Serves runs name s program (serve answers n s program).1 (serve answers n s program).2.1 (serve answers n s program).2.2 := by
  induction n with
  | zero => exact fun s program => .here s program
  | succ n ih =>
    intro s program
    cases program with
    | done a => exact .here s _
    | ask op next =>
      unfold serve
      split
      · exact .here s _
      · rename_i answer s' answered
        exact .ask (possible answered) (ih s' (next answer))

end Sessions

/-- Why sessions do not disturb each other. What a session knows is told by its own exchanges, a fact about the
shared state agrees with it, and neither another session nor the environment breaks that fact. -/
structure Discipline {σ : Type u} {ι Op : Type} {Answer : Op → Type} {ρ α κ : Type}
    (launch : ρ → Program Op Answer α) (runs : σ → ι → (op : Op) → Answer op → σ → Prop) (moves : σ → σ → Prop)
    (protocol : Protocol Op Answer κ) where
  entry : ρ → κ
  post : κ → α → Prop
  inv : σ → Prop
  agrees : σ → ι → Option κ → Prop
  follows : ∀ request, (launch request).Follows protocol post (entry request)
  starts : ∀ {s name} request, inv s → agrees s name none → agrees s name (some (entry request))
  own : ∀ {s s' name known op answer}, inv s → agrees s name (some known) → protocol.allowed known op →
    runs s name op answer s' → inv s' ∧ agrees s' name (some (protocol.after known op answer))
  others : ∀ {s s' name known op answer other thought}, inv s → agrees s name (some known) →
    protocol.allowed known op → runs s name op answer s' → other ≠ name → agrees s other thought →
    agrees s' other thought
  moved : ∀ {s s'}, inv s → moves s s' → inv s' ∧ ∀ name thought, agrees s name thought → agrees s' name thought

namespace Discipline

variable {σ : Type u} {ι Op : Type} [DecidableEq ι] {Answer : Op → Type} {ρ α κ : Type}
  {launch : ρ → Program Op Answer α} {runs : σ → ι → (op : Op) → Answer op → σ → Prop} {moves : σ → σ → Prop}
  {protocol : Protocol Op Answer κ} (discipline : Discipline launch runs moves protocol)

def known (session : Session Op Answer ρ α) : κ :=
  protocol.through (discipline.entry session.request) session.asked

/-- Each session is in the middle of its program, and agrees with the shared state. -/
structure Good (pool : Sessions σ ι Op Answer ρ α) : Prop where
  inv : discipline.inv pool.state
  agrees : ∀ name, discipline.agrees pool.state name ((pool.session name).map discipline.known)
  leads : ∀ {name session}, pool.session name = some session →
    (launch session.request).Leads session.asked session.rest

omit [DecidableEq ι] in
theorem Good.follows {discipline : Discipline launch runs moves protocol} {pool : Sessions σ ι Op Answer ρ α}
    (good : discipline.Good pool) {name : ι} {session : Session Op Answer ρ α} (running : pool.session name = some session) :
    session.rest.Follows protocol discipline.post (discipline.known session) :=
  Program.Follows.leads (good.leads running) (discipline.follows session.request)

omit [DecidableEq ι] in
theorem good_initial {state : σ} (inv : discipline.inv state) (idle : ∀ name, discipline.agrees state name none) :
    discipline.Good ({ state := state } : Sessions σ ι Op Answer ρ α) where
  inv := inv
  agrees := idle
  leads := by
    intro name session present
    cases present

theorem Good.step {discipline : Discipline launch runs moves protocol} {pool later : Sessions σ ι Op Answer ρ α}
    (good : discipline.Good pool) (step : Sessions.Step launch runs moves pool later) : discipline.Good later := by
  cases step with
  | @start name unused request =>
    have idle := good.agrees name
    rw [unused] at idle
    refine ⟨good.inv, ?_, ?_⟩
    · intro other
      by_cases same : other = name
      · subst same
        simp only [Function.update_self, Option.map_some]
        exact discipline.starts request good.inv idle
      · simp only [Function.update_of_ne same]
        exact good.agrees other
    · intro other session present
      by_cases same : other = name
      · subst same
        simp only [Function.update_self, Option.some.injEq] at present
        subst present
        exact .here _
      · simp only [Function.update_of_ne same] at present
        exact good.leads present
  | @answer name request asked op next answer state asking ran =>
    have agrees := good.agrees name
    rw [asking] at agrees
    rcases good.follows asking with ⟨allowed, _⟩
    rcases discipline.own good.inv agrees allowed ran with ⟨inv, told⟩
    have learnt : discipline.known ⟨request, asked ++ [⟨op, answer⟩], next answer⟩ =
        protocol.after (discipline.known ⟨request, asked, .ask op next⟩) op answer := protocol.through_snoc _ _ _
    refine ⟨inv, ?_, ?_⟩
    · intro other
      by_cases same : other = name
      · subst same
        simp only [Function.update_self, Option.map_some]
        rw [learnt]
        exact told
      · simp only [Function.update_of_ne same]
        exact discipline.others good.inv agrees allowed ran same (good.agrees other)
    · intro other session present
      by_cases same : other = name
      · subst same
        simp only [Function.update_self, Option.some.injEq] at present
        subst present
        exact (good.leads asking).snoc answer
      · simp only [Function.update_of_ne same] at present
        exact good.leads present
  | move moved =>
    rcases discipline.moved good.inv moved with ⟨inv, kept⟩
    exact ⟨inv, fun name => kept name _ (good.agrees name), good.leads⟩

theorem Good.steps {discipline : Discipline launch runs moves protocol} {pool later : Sessions σ ι Op Answer ρ α}
    (good : discipline.Good pool) (steps : Sessions.Steps launch runs moves pool later) : discipline.Good later := by
  induction steps with
  | refl => exact good
  | tail _ step ih => exact ih.step step

end Discipline

end Library

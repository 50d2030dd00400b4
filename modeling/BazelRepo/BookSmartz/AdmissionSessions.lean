import BazelRepo.BookSmartz.AdmissionRuns

namespace BookSmartz.Catalog

open Library (Discipline Exchange Program Protocol Session Sessions Stateful)

section Steps

variable {db later : Database} {call other : CallId} {reader : ReaderId} {writes : Writes} {finish : Nat}

theorem Database.frames_tick (mono : db.clock ≤ finish) : db.Frames call { db with clock := finish } :=
  fun locked => ⟨locked, rfl, rfl, rfl, mono⟩

theorem Database.Inv.tick (inv : db.Inv) (mono : db.clock ≤ finish) : ({ db with clock := finish } : Database).Inv := by
  have inside : db.Local 0 { db with clock := finish } := Database.local_tick mono
  apply inside.inv inv
  intro writes opened committing
  rcases inv.sending 0 writes opened committing with ⟨reader, ready⟩
  exact ⟨reader, ready.frame (Database.frames_tick mono)⟩

theorem Database.Agrees.tick {thought : Option Progress} (agrees : db.Agrees call thought) (mono : db.clock ≤ finish) :
    ({ db with clock := finish } : Database).Agrees call thought := by
  have history : ({ db with clock := finish } : Database).history = db.history ++ [] := (List.append_nil _).symm
  have untouched : ({ db with clock := finish } : Database).transaction call = db.transaction call := rfl
  apply agrees.frame untouched history _ (Database.frames_tick mono)
  intro row member
  cases member

structure Database.Steps (db : Database) (call : CallId) (progress : Progress) (later : Database) : Prop where
  inv : later.Inv
  agrees : later.Agrees call (some progress)
  others : ∀ other thought, other ≠ call → db.Agrees other thought → later.Agrees other thought

theorem Database.Ready.steps {progress : Progress} (inv : db.Inv) (ready : db.Ready call reader writes)
    (agrees : (db.durable call writes).Agrees call (some progress)) (mono : (db.durable call writes).clock ≤ finish) :
    db.Steps call progress { db.durable call writes with clock := finish } where
  inv := (ready.durable_inv inv).tick mono
  agrees := agrees.tick mono
  others _ _ differs thought := (ready.durable_others differs thought).tick mono

theorem steps_executed {statement : Statement} {value : statement.Value} {after : Database} {reading : Admission → Nat}
    (inv : db.Inv) (agrees : db.Agrees call (some ⟨reader, statement.turn⟩)) (concerns : statement.Concerns reader)
    (timely : ∀ row, reading row ≤ finish) (mono : after.clock ≤ finish)
    (ran : db.execute call reading statement = some (after, value)) :
    db.Steps call ⟨reader, statement.outcome value⟩ { after with clock := finish } := by
  by_cases inner : statement = .commit
  · subst inner
    rcases Database.execute_run (by simp) ran with ⟨writes, opened, ran⟩
    cases ran
    rcases agrees.commits opened with ⟨ready, admitted⟩
    exact ready.steps inv admitted mono
  · have goes := continues inv agrees concerns inner timely mono ran
    exact ⟨goes.inv inv, goes.agrees inner agrees, fun _ _ differs => goes.others differs⟩

def Statement.failed (statement : Statement) : Phase :=
  match statement with
  | commit => .uncertain
  | _ => .closed

theorem steps_lost {statement : Statement} {value : statement.Value} {after : Database} {reading : Admission → Nat}
    (inv : db.Inv) (agrees : db.Agrees call (some ⟨reader, statement.turn⟩)) (concerns : statement.Concerns reader)
    (timely : ∀ row, reading row ≤ finish) (mono : after.clock ≤ finish)
    (ran : db.execute call reading statement = some (after, value)) :
    db.Steps call ⟨reader, statement.failed⟩ { after with clock := finish } := by
  have step := steps_executed inv agrees concerns timely mono ran
  refine ⟨step.inv, ?_, step.others⟩
  by_cases inner : statement = .commit
  · subst inner
    exact ⟨fun _ _ => trivial, trivial⟩
  · have closed : statement.failed = .closed := by
      cases statement with
      | commit => exact absurd rfl inner
      | begin | tryLock | available | purge | countOf | insert | advanceGate => rfl
    rw [closed]
    exact (continues inv agrees concerns inner timely mono ran).closes agrees.fresh

theorem steps_refused {statement : Statement} (inv : db.Inv) (agrees : db.Agrees call (some ⟨reader, statement.turn⟩)) :
    db.Steps call ⟨reader, statement.failed⟩ db := by
  refine ⟨inv, ?_, fun _ _ _ same => same⟩
  cases statement with
  | commit => exact ⟨fun _ _ => trivial, trivial⟩
  | begin | tryLock | available | purge | countOf | insert | advanceGate => exact agrees.refused

theorem steps_unsettled (inv : db.Inv) (agrees : db.Agrees call (some ⟨reader, .advanced⟩))
    (opened : db.transaction call = some writes) :
    db.Steps call ⟨reader, .uncertain⟩ (db.put call (some { writes with committing := true })) := by
  have inside := db.local_put call (some { writes with committing := true })
  refine ⟨?_, ⟨fun _ _ => trivial, trivial⟩, fun _ _ differs => inside.others differs⟩
  apply inside.inv inv
  intro later still _
  cases (db.put_transaction call _).symm.trans still
  rcases (agrees.1 writes opened).1 with ⟨row, next, drafted, gate, spaced⟩
  exact ⟨reader, row, next, { drafted with }, gate, spaced⟩

theorem steps_elsewhere {ask : Ask} {progress : Progress} (answer : ask.Answer) (inv : db.Inv)
    (agrees : db.Agrees call (some progress)) (allowed : admission.allowed progress ask)
    (other : ∀ statement, ask ≠ .sql statement) : db.Steps call (admission.after progress ask answer) db := by
  refine ⟨inv, ?_, fun _ _ _ same => same⟩
  cases ask with
  | sql statement => exact absurd rfl (other statement)
  | cache | now | sign => exact agrees
  | send =>
    rcases progress with ⟨reader, phase⟩
    have admitted : phase = .admitted := allowed
    subst admitted
    exact agrees

theorem Runs.steps {ask : Ask} {answer : ask.Answer} {progress : Progress} (inv : db.Inv)
    (agrees : db.Agrees call (some progress)) (allowed : admission.allowed progress ask)
    (runs : Runs db call ask answer later) : db.Steps call (admission.after progress ask answer) later := by
  have failed : ∀ (statement : Statement) (error : DatabaseError),
      admission.after progress (.sql statement) (.error error) = ⟨progress.reader, statement.failed⟩ := by
    intro statement error
    cases statement <;> rfl
  rcases progress with ⟨reader, phase⟩
  cases runs with
  | executed timely mono ran =>
    rcases allowed with ⟨turn, concerns⟩
    dsimp only at turn
    subst turn
    exact steps_executed inv agrees concerns (fun row => (timely row).2) mono ran
  | lost error timely mono ran =>
    rcases allowed with ⟨turn, concerns⟩
    dsimp only at turn
    subst turn
    rw [failed]
    exact steps_lost inv agrees concerns (fun row => (timely row).2) mono ran
  | refused error =>
    rcases allowed with ⟨turn, _⟩
    dsimp only at turn
    subst turn
    rw [failed]
    exact steps_refused inv agrees
  | unsettled error opened =>
    rcases allowed with ⟨turn, _⟩
    dsimp only at turn
    subst turn
    exact steps_unsettled inv agrees opened
  | elsewhere answer other => exact steps_elsewhere answer inv agrees allowed other

theorem Database.Inv.rollBack (inv : db.Inv) (call : CallId) : (db.close call).Inv := by
  apply (db.local_close call).inv inv
  intro writes opened
  rw [db.close_transaction] at opened
  cases opened

theorem Database.Agrees.rollBack {thought : Option Progress} (agrees : db.Agrees other thought) (call : CallId) :
    (db.close call).Agrees other thought := by
  by_cases differs : other = call
  · subst differs
    rcases thought with _ | ⟨reader, phase⟩
    · exact ⟨db.close_transaction other, agrees.2⟩
    · refine ⟨?_, agrees.2⟩
      intro writes opened
      rw [db.close_transaction] at opened
      cases opened
  · exact (db.local_close call).others differs agrees

theorem Database.Ready.settles {thought : Option Progress} (ready : db.Ready call reader writes)
    (opened : db.transaction call = some writes) (committing : writes.committing = true)
    (agrees : db.Agrees call thought) : (db.durable call writes).Agrees call thought := by
  have closed : (db.durable call writes).transaction call = none := db.close_transaction call
  rcases thought with _ | ⟨reader', phase⟩
  · rw [agrees.1] at opened
    cases opened
  · refine ⟨fun later still => absurd (closed.symm.trans still) (by simp), ?_⟩
    have prepared := agrees.1 writes opened
    cases phase with
    | uncertain => trivial
    | entered | admitted | sent => exact absurd prepared id
    | begun =>
      have empty : writes = {} := prepared
      rw [empty] at committing
      cases committing
    | locked | available =>
      rw [prepared.1] at committing
      cases committing
    | purged | counted =>
      rcases prepared with ⟨_, rfl, _⟩
      cases committing
    | inserted =>
      rcases prepared with ⟨_, _, uncommitted⟩
      rw [uncommitted] at committing
      cases committing
    | advanced =>
      rw [prepared.2] at committing
      cases committing
    | closed =>
      have uncommitted : writes.committing = false := prepared
      rw [uncommitted] at committing
      cases committing

theorem Moves.keeps (inv : db.Inv) (moves : Moves db later) :
    later.Inv ∧ ∀ call thought, db.Agrees call thought → later.Agrees call thought := by
  cases moves with
  | tick mono => exact ⟨inv.tick mono, fun _ _ agrees => agrees.tick mono⟩
  | rollBack call => exact ⟨inv.rollBack call, fun _ _ agrees => agrees.rollBack call⟩
  | @settle call writes opened committing =>
    rcases inv.sending call writes opened committing with ⟨reader, ready⟩
    refine ⟨ready.durable_inv inv, ?_⟩
    intro other thought agrees
    by_cases differs : other = call
    · subst differs
      exact ready.settles opened committing agrees
    · exact ready.durable_others differs agrees

end Steps

end BookSmartz.Catalog

import BazelRepo.BookSmartz.Admission

namespace BookSmartz.Catalog

open Library (Program Protocol)

def Admission.Spaced (earlier later : Admission) : Prop := earlier.admittedAt + second ≤ later.admittedAt

def window (reader : ReaderId) (start : Nat) (rows : List Admission) : List Admission :=
  rows.filter fun row => row.reader = reader ∧ start ≤ row.admittedAt ∧ row.admittedAt < start + minute

/-- A transaction that has the lock and whose purge, count and insertion were all made under it. -/
structure Database.Drafted (db : Database) (call : CallId) (reader : ReaderId) (writes : Writes) (row : Admission) :
    Prop where
  locked : db.lock = some call
  inserted : writes.inserted = [row]
  owner : row.call = call
  forReader : row.reader = reader
  past : row.admittedAt ≤ db.clock
  opened : ∀ next, db.nextSearchAt = some next → next ≤ row.admittedAt
  old : ∀ gone ∈ writes.purged, gone.admittedAt + minute ≤ row.admittedAt
  recent : ∀ earlier ∈ db.history, row.admittedAt < earlier.admittedAt + minute → earlier ∈ db.admissions
  few : ((db.admissions.filter (· ∉ writes.purged)).filter (·.reader = reader)).length < 10
  fresh : ∀ earlier ∈ db.history, earlier.call ≠ call

def Database.Ready (db : Database) (call : CallId) (reader : ReaderId) (writes : Writes) : Prop :=
  ∃ row next, db.Drafted call reader writes row ∧ writes.nextSearchAt = some next ∧ row.admittedAt + second ≤ next

structure Database.Inv (db : Database) : Prop where
  spaced : db.history.Pairwise Admission.Spaced
  gated : ∀ row ∈ db.history, ∃ next, db.nextSearchAt = some next ∧ row.admittedAt + second ≤ next
  past : ∀ row ∈ db.history, row.admittedAt ≤ db.clock
  kept : ∀ row ∈ db.history, db.clock < row.admittedAt + minute → row ∈ db.admissions
  distinct : (db.history.map (·.call)).Nodup
  windows : ∀ reader start, (window reader start db.history).length ≤ 10
  sending : ∀ call writes, db.transaction call = some writes → writes.committing →
    ∃ reader, db.Ready call reader writes

/-- What the open transaction of a call has done, by how far the call came. -/
def Database.Prepared (db : Database) (call : CallId) (reader : ReaderId) (writes : Writes) : Phase → Prop
  | .entered | .admitted | .sent => False
  | .begun => writes = {}
  | .locked => writes = {} ∧ db.lock = some call
  | .available => writes = {} ∧ db.lock = some call ∧ ∀ next, db.nextSearchAt = some next → next ≤ db.clock
  | .purged => ∃ purged, writes = { purged } ∧ db.lock = some call ∧
      (∀ next, db.nextSearchAt = some next → next ≤ db.clock) ∧ ∀ gone ∈ purged, gone.admittedAt + minute ≤ db.clock
  | .counted => ∃ purged, writes = { purged } ∧ db.lock = some call ∧
      (∀ next, db.nextSearchAt = some next → next ≤ db.clock) ∧
      (∀ gone ∈ purged, gone.admittedAt + minute ≤ db.clock) ∧
      ((db.admissions.filter (· ∉ purged)).filter (·.reader = reader)).length < 10
  | .inserted => ∃ row, db.Drafted call reader writes row ∧ writes.committing = false
  | .advanced => db.Ready call reader writes ∧ writes.committing = false
  | .closed => writes.committing = false
  | .uncertain => True

def Phase.Recorded (call : CallId) (reader : ReaderId) (history : List Admission) : Phase → Prop
  | .admitted | .sent => ∃ row ∈ history, row.call = call ∧ row.reader = reader
  | .uncertain => True
  | _ => ∀ row ∈ history, row.call ≠ call

def Database.Agrees (db : Database) (call : CallId) : Option Progress → Prop
  | none => db.transaction call = none ∧ ∀ row ∈ db.history, row.call ≠ call
  | some ⟨reader, phase⟩ =>
    (∀ writes, db.transaction call = some writes → db.Prepared call reader writes phase) ∧
      phase.Recorded call reader db.history

section Frame

def Database.Frames (db : Database) (call : CallId) (later : Database) : Prop :=
  db.lock = some call → later.lock = some call ∧ later.nextSearchAt = db.nextSearchAt ∧
    later.admissions = db.admissions ∧ later.history = db.history ∧ db.clock ≤ later.clock

variable {db later : Database} {call : CallId} {reader : ReaderId} {writes : Writes}

theorem Database.Drafted.frame {row : Admission} (frames : db.Frames call later)
    (drafted : db.Drafted call reader writes row) : later.Drafted call reader writes row := by
  rcases frames drafted.locked with ⟨locked, gate, admissions, history, clock⟩
  exact {
    locked
    inserted := drafted.inserted
    owner := drafted.owner
    forReader := drafted.forReader
    past := drafted.past.trans clock
    opened := gate ▸ drafted.opened
    old := drafted.old
    recent := by
      rw [history, admissions]
      exact drafted.recent
    few := admissions ▸ drafted.few
    fresh := history ▸ drafted.fresh }

theorem Database.Ready.frame (frames : db.Frames call later) (ready : db.Ready call reader writes) :
    later.Ready call reader writes := by
  rcases ready with ⟨row, next, drafted, gate, spaced⟩
  exact ⟨row, next, drafted.frame frames, gate, spaced⟩

theorem Database.Prepared.frame (frames : db.Frames call later) {phase : Phase}
    (prepared : db.Prepared call reader writes phase) : later.Prepared call reader writes phase := by
  cases phase with
  | entered | admitted | sent => exact prepared
  | begun | closed | uncertain => exact prepared
  | locked =>
    rcases prepared with ⟨empty, locked⟩
    exact ⟨empty, (frames locked).1⟩
  | available =>
    rcases prepared with ⟨empty, locked, opened⟩
    rcases frames locked with ⟨still, gate, _, _, clock⟩
    exact ⟨empty, still, fun next present => (opened next (gate ▸ present)).trans clock⟩
  | purged =>
    rcases prepared with ⟨purged, same, locked, opened, old⟩
    rcases frames locked with ⟨still, gate, _, _, clock⟩
    exact ⟨purged, same, still, fun next present => (opened next (gate ▸ present)).trans clock,
      fun gone member => (old gone member).trans clock⟩
  | counted =>
    rcases prepared with ⟨purged, same, locked, opened, old, few⟩
    rcases frames locked with ⟨still, gate, admissions, _, clock⟩
    exact ⟨purged, same, still, fun next present => (opened next (gate ▸ present)).trans clock,
      fun gone member => (old gone member).trans clock, admissions ▸ few⟩
  | inserted =>
    rcases prepared with ⟨row, drafted, uncommitted⟩
    exact ⟨row, drafted.frame frames, uncommitted⟩
  | advanced => exact ⟨prepared.1.frame frames, prepared.2⟩

theorem Phase.Recorded.frame {phase : Phase} {history more : List Admission} (others : ∀ row ∈ more, row.call ≠ call)
    (recorded : phase.Recorded call reader history) : phase.Recorded call reader (history ++ more) := by
  have absent : (∀ row ∈ history, row.call ≠ call) → ∀ row ∈ history ++ more, row.call ≠ call := by
    intro none row member
    rcases List.mem_append.mp member with member | member
    · exact none row member
    · exact others row member
  cases phase with
  | admitted | sent =>
    rcases recorded with ⟨row, member, own⟩
    exact ⟨row, List.mem_append_left _ member, own⟩
  | uncertain => trivial
  | entered | begun | locked | available | purged | counted | inserted | advanced | closed => exact absent recorded

/-- A call agrees with whatever leaves its transaction, its rows and, while it has the lock, the tables. -/
theorem Database.Agrees.frame {thought : Option Progress} {more : List Admission}
    (untouched : later.transaction call = db.transaction call) (history : later.history = db.history ++ more)
    (others : ∀ row ∈ more, row.call ≠ call) (frames : db.Frames call later) (agrees : db.Agrees call thought) :
    later.Agrees call thought := by
  rcases thought with _ | ⟨reader, phase⟩
  · rcases agrees with ⟨closed, absent⟩
    refine ⟨untouched.trans closed, ?_⟩
    intro row member
    rw [history] at member
    rcases List.mem_append.mp member with member | member
    · exact absent row member
    · exact others row member
  · rcases agrees with ⟨prepared, recorded⟩
    refine ⟨?_, history ▸ recorded.frame others⟩
    intro writes opened
    exact (prepared writes (untouched ▸ opened)).frame frames

end Frame

section Local

/-- A step inside one transaction: the tables stay, and so do the other transactions and their lock. -/
structure Database.Local (db : Database) (call : CallId) (later : Database) : Prop where
  gate : later.nextSearchAt = db.nextSearchAt
  admissions : later.admissions = db.admissions
  history : later.history = db.history
  clock : db.clock ≤ later.clock
  transactions : ∀ other, other ≠ call → later.transaction other = db.transaction other
  locks : ∀ other, other ≠ call → db.lock = some other → later.lock = some other

variable {db later : Database} {call other : CallId} {reader : ReaderId} {writes : Writes}

theorem Database.Local.frames (inside : db.Local call later) (differs : other ≠ call) : db.Frames other later :=
  fun locked => ⟨inside.locks other differs locked, inside.gate, inside.admissions, inside.history, inside.clock⟩

theorem Database.Local.others (inside : db.Local call later) (differs : other ≠ call) {thought : Option Progress}
    (agrees : db.Agrees other thought) : later.Agrees other thought := by
  have history : later.history = db.history ++ [] := inside.history.trans (List.append_nil _).symm
  apply agrees.frame (inside.transactions other differs) history _ (inside.frames differs)
  intro row member
  cases member

theorem Database.Local.inv (inside : db.Local call later) (inv : db.Inv)
    (own : ∀ writes, later.transaction call = some writes → writes.committing →
      ∃ reader, later.Ready call reader writes) : later.Inv where
  spaced := inside.history ▸ inv.spaced
  gated := by
    rw [inside.history, inside.gate]
    exact inv.gated
  past := by
    rw [inside.history]
    exact fun row member => (inv.past row member).trans inside.clock
  kept := by
    rw [inside.history, inside.admissions]
    exact fun row member young => inv.kept row member (inside.clock.trans_lt young)
  distinct := inside.history ▸ inv.distinct
  windows := inside.history ▸ inv.windows
  sending := by
    intro other writes opened committing
    by_cases same : other = call
    · subst same
      exact own writes opened committing
    · rcases inv.sending other writes (inside.transactions other same ▸ opened) committing with ⟨reader, ready⟩
      exact ⟨reader, ready.frame (inside.frames same)⟩

theorem Database.Local.trans {last : Database} (first : db.Local call later) (second : later.Local call last) :
    db.Local call last where
  gate := second.gate.trans first.gate
  admissions := second.admissions.trans first.admissions
  history := second.history.trans first.history
  clock := first.clock.trans second.clock
  transactions other differs := (second.transactions other differs).trans (first.transactions other differs)
  locks other differs locked := second.locks other differs (first.locks other differs locked)

theorem Database.local_put (db : Database) (call : CallId) (writes : Option Writes) : db.Local call (db.put call writes) where
  gate := rfl
  admissions := rfl
  history := rfl
  clock := le_refl _
  transactions _ differs := Function.update_of_ne differs _ _
  locks _ _ locked := locked

theorem Database.local_tick {time : Nat} (mono : db.clock ≤ time) : db.Local call { db with clock := time } where
  gate := rfl
  admissions := rfl
  history := rfl
  clock := mono
  transactions _ _ := rfl
  locks _ _ locked := locked

theorem Database.local_release (db : Database) (call : CallId) : db.Local call (db.release call) where
  gate := rfl
  admissions := rfl
  history := rfl
  clock := le_refl _
  transactions _ _ := rfl
  locks other differs locked := by
    unfold Database.release
    have unlocked : db.lock ≠ some call := by
      rw [locked]
      exact fun same => differs (Option.some.inj same)
    exact (if_neg unlocked).trans locked

theorem Database.local_close (db : Database) (call : CallId) : db.Local call (db.close call) :=
  (db.local_release call).trans (Database.local_put _ call none)

theorem Database.local_lock (free : db.lock = none ∨ db.lock = some call) : db.Local call { db with lock := some call } where
  gate := rfl
  admissions := rfl
  history := rfl
  clock := le_refl _
  transactions _ _ := rfl
  locks other differs locked := by
    rcases free with free | free
    · rw [locked] at free
      cases free
    · exact absurd (Option.some.inj (locked.symm.trans free)) differs

theorem Database.put_transaction (db : Database) (call : CallId) (writes : Option Writes) :
    (db.put call writes).transaction call = writes := Function.update_self _ _ _

theorem Database.close_transaction (db : Database) (call : CallId) : (db.close call).transaction call = none :=
  Function.update_self _ _ _

end Local

section Durable

variable {db : Database} {call other : CallId} {reader : ReaderId} {writes : Writes} {row : Admission}

theorem Database.Drafted.visible_eq (drafted : db.Drafted call reader writes row) :
    db.visible writes = db.admissions.filter (· ∉ writes.purged) ++ [row] := by
  have unpurged : row ∉ writes.purged := by
    intro member
    have := drafted.old row member
    unfold minute second at this
    omega
  unfold Database.visible
  rw [drafted.inserted, List.filter_append, List.filter_singleton, decide_eq_true unpurged]
  rfl

theorem Database.Drafted.keeps (drafted : db.Drafted call reader writes row) {earlier : Admission}
    (member : earlier ∈ db.history) (young : row.admittedAt < earlier.admittedAt + minute) :
    earlier ∈ db.admissions.filter (· ∉ writes.purged) := by
  apply List.mem_filter.mpr
  refine ⟨drafted.recent earlier member young, decide_eq_true ?_⟩
  intro gone
  have := drafted.old earlier gone
  omega

theorem Database.Drafted.spaced (inv : db.Inv) (drafted : db.Drafted call reader writes row) :
    ∀ earlier ∈ db.history, earlier.Spaced row := by
  intro earlier member
  rcases inv.gated earlier member with ⟨next, gate, spaced⟩
  exact spaced.trans (drafted.opened next gate)

theorem nodup_of_spaced {rows : List Admission} (spaced : rows.Pairwise Admission.Spaced) : rows.Nodup := by
  apply spaced.imp
  rintro earlier later apart rfl
  unfold Admission.Spaced second at apart
  omega

theorem Database.Drafted.windows (inv : db.Inv) (drafted : db.Drafted call reader writes row) (start : Nat)
    (late : row.admittedAt < start + minute) : (window reader start db.history).length < 10 := by
  apply lt_of_le_of_lt _ drafted.few
  have distinct : (window reader start db.history).Nodup := (nodup_of_spaced inv.spaced).filter _
  apply (List.subperm_of_subset distinct _).length_le
  intro earlier member
  rcases List.mem_filter.mp member with ⟨listed, inside⟩
  rcases of_decide_eq_true inside with ⟨own, after, _⟩
  exact List.mem_filter.mpr ⟨drafted.keeps listed (by omega), decide_eq_true own⟩

theorem Database.Ready.durable_inv (inv : db.Inv) (ready : db.Ready call reader writes) : (db.durable call writes).Inv := by
  rcases ready with ⟨row, next, drafted, gate, spacing⟩
  have history : (db.durable call writes).history = db.history ++ [row] := by
    unfold Database.durable
    rw [drafted.inserted]
  have admissions : (db.durable call writes).admissions = db.admissions.filter (· ∉ writes.purged) ++ [row] :=
    drafted.visible_eq
  have gated : (db.durable call writes).nextSearchAt = some next := by
    unfold Database.durable
    rw [gate]
    rfl
  have spaced := drafted.spaced inv
  exact {
    spaced := by
      rw [history, List.pairwise_append]
      refine ⟨inv.spaced, List.pairwise_singleton _ _, ?_⟩
      intro earlier member later last
      rw [List.mem_singleton.mp last]
      exact spaced earlier member
    gated := by
      intro earlier member
      refine ⟨next, gated, ?_⟩
      rw [history] at member
      rcases List.mem_append.mp member with member | member
      · have apart : earlier.admittedAt + second ≤ row.admittedAt := spaced earlier member
        omega
      · rw [List.mem_singleton.mp member]
        exact spacing
    past := by
      intro earlier member
      rw [history] at member
      rcases List.mem_append.mp member with member | member
      · exact inv.past earlier member
      · rw [List.mem_singleton.mp member]
        exact drafted.past
    kept := by
      intro earlier member young
      rw [history] at member
      rw [admissions]
      rcases List.mem_append.mp member with member | member
      · apply List.mem_append_left
        exact drafted.keeps member (drafted.past.trans_lt young)
      · exact List.mem_append_right _ member
    distinct := by
      rw [history, List.map_append, List.nodup_append]
      refine ⟨inv.distinct, List.pairwise_singleton _ _, ?_⟩
      intro earlier member last own
      rcases List.mem_map.mp member with ⟨old, listed, rfl⟩
      rcases List.mem_map.mp own with ⟨new, newest, rfl⟩
      rw [List.mem_singleton.mp newest]
      rw [drafted.owner]
      exact drafted.fresh old listed
    windows := by
      intro other start
      rw [history]
      unfold window
      rw [List.filter_append, List.filter_singleton, List.length_append]
      by_cases inside : row.reader = other ∧ start ≤ row.admittedAt ∧ row.admittedAt < start + minute
      · rw [decide_eq_true inside]
        rcases inside with ⟨own, _, late⟩
        rw [drafted.forReader] at own
        subst own
        exact drafted.windows inv start late
      · rw [decide_eq_false inside]
        exact inv.windows other start
    sending := by
      intro other writes' opened committing
      by_cases same : other = call
      · subst same
        have closed : (db.durable other writes).transaction other = none := db.close_transaction other
        rw [closed] at opened
        cases opened
      · have untouched : (db.durable call writes).transaction other = db.transaction other :=
          (db.local_close call).transactions other same
        rcases inv.sending other writes' (untouched ▸ opened) committing with ⟨reader', row', _, drafted', _, _⟩
        exact absurd (Option.some.inj (drafted'.locked.symm.trans drafted.locked)) same }

theorem Database.Ready.durable_others (ready : db.Ready call reader writes) (differs : other ≠ call)
    {thought : Option Progress} (agrees : db.Agrees other thought) : (db.durable call writes).Agrees other thought := by
  rcases ready with ⟨row, next, drafted, gate, spacing⟩
  have untouched : (db.durable call writes).transaction other = db.transaction other :=
    (db.local_close call).transactions other differs
  have history : (db.durable call writes).history = db.history ++ writes.inserted := rfl
  apply agrees.frame untouched history
  · intro new member
    rw [drafted.inserted, List.mem_singleton] at member
    subst member
    rw [drafted.owner]
    exact differs.symm
  · intro locked
    exact absurd (Option.some.inj (locked.symm.trans drafted.locked)) differs

end Durable

section Statements

variable {db after later : Database} {call : CallId} {reader : ReaderId} {reading : Admission → Nat} {finish : Nat}

structure Database.Continues (db : Database) (call : CallId) (reader : ReaderId) (phase : Phase) (later : Database) :
    Prop where
  inside : db.Local call later
  prepared : ∀ writes, later.transaction call = some writes →
    later.Prepared call reader writes phase ∧ writes.committing = false

theorem Database.execute_begin (ran : db.execute call reading .begin = some (after, ())) :
    after = db.put call (some {}) := by
  unfold Database.execute at ran
  cases opened : db.transaction call with
  | none =>
    rw [opened] at ran
    cases ran
    rfl
  | some writes =>
    rw [opened] at ran
    cases ran

theorem Database.execute_run {statement : Statement} {value : statement.Value} (inner : statement ≠ .begin)
    (ran : db.execute call reading statement = some (after, value)) :
    ∃ writes, db.transaction call = some writes ∧ db.run call reading writes statement = (after, value) := by
  unfold Database.execute at ran
  cases opened : db.transaction call with
  | none =>
    rw [opened] at ran
    cases statement with
    | begin => exact absurd rfl inner
    | tryLock | available | purge | countOf | insert | advanceGate | commit => cases ran
  | some writes =>
    rw [opened] at ran
    cases statement with
    | begin => exact absurd rfl inner
    | tryLock | available | purge | countOf | insert | advanceGate | commit => exact ⟨writes, rfl, Option.some.inj ran⟩

theorem continues_begin (mono : (db.put call (some {})).clock ≤ finish) :
    db.Continues call reader .begun { db.put call (some {}) with clock := finish } where
  inside := (db.local_put call _).trans (Database.local_tick mono)
  prepared := by
    intro writes opened
    have same : some {} = some writes := (db.put_transaction call (some {})).symm.trans opened
    cases same
    exact ⟨rfl, rfl⟩

theorem continues_tryLock {writes : Writes} {value : Bool} (opened : db.transaction call = some writes)
    (prepared : db.Prepared call reader writes .begun) (ran : db.run call reading writes .tryLock = (after, value))
    (mono : after.clock ≤ finish) :
    db.Continues call reader (Statement.tryLock.outcome value) { after with clock := finish } := by
  have empty : writes = {} := prepared
  subst empty
  unfold Database.run at ran
  by_cases free : db.lock = none ∨ db.lock = some call
  · simp only [if_pos free, Prod.mk.injEq] at ran
    rcases ran with ⟨rfl, rfl⟩
    refine ⟨(Database.local_lock free).trans (Database.local_tick mono), ?_⟩
    intro later still
    cases opened.symm.trans still
    exact ⟨⟨rfl, rfl⟩, rfl⟩
  · simp only [if_neg free, Prod.mk.injEq] at ran
    rcases ran with ⟨rfl, rfl⟩
    refine ⟨Database.local_tick mono, ?_⟩
    intro later still
    cases opened.symm.trans still
    exact ⟨rfl, rfl⟩

theorem continues_available {writes : Writes} {value : Bool} (opened : db.transaction call = some writes)
    (prepared : db.Prepared call reader writes .locked) (ran : db.run call reading writes .available = (after, value))
    (mono : after.clock ≤ finish) :
    db.Continues call reader (Statement.available.outcome value) { after with clock := finish } := by
  rcases prepared with ⟨rfl, locked⟩
  simp only [Database.run, Option.none_or, Prod.mk.injEq] at ran
  rcases ran with ⟨rfl, told⟩
  refine ⟨Database.local_tick mono, ?_⟩
  intro later still
  cases opened.symm.trans still
  cases value with
  | true =>
    refine ⟨⟨rfl, locked, ?_⟩, rfl⟩
    intro next gate
    have gate : db.nextSearchAt = some next := gate
    rw [gate, Option.all_some, decide_eq_true_eq] at told
    exact told.trans mono
  | false => exact ⟨rfl, rfl⟩

theorem continues_purge {writes : Writes} (prepared : db.Prepared call reader writes .available)
    (ran : db.run call reading writes .purge = (after, ())) (timely : ∀ row, reading row ≤ finish)
    (mono : after.clock ≤ finish) : db.Continues call reader .purged { after with clock := finish } := by
  rcases prepared with ⟨rfl, locked, available⟩
  cases ran
  refine ⟨(db.local_put call _).trans (Database.local_tick mono), ?_⟩
  intro later still
  cases (db.put_transaction call _).symm.trans still
  refine ⟨⟨_, rfl, locked, fun next gate => (available next gate).trans mono, ?_⟩, rfl⟩
  intro gone member
  rcases List.mem_filter.mp member with ⟨_, expired⟩
  exact (of_decide_eq_true expired).trans (timely gone)

theorem continues_countOf {writes : Writes} {value : Nat} (opened : db.transaction call = some writes)
    (prepared : db.Prepared call reader writes .purged) (ran : db.run call reading writes (.countOf reader) = (after, value))
    (mono : after.clock ≤ finish) :
    db.Continues call reader ((Statement.countOf reader).outcome value) { after with clock := finish } := by
  rcases prepared with ⟨purged, rfl, locked, available, old⟩
  simp only [Database.run, Database.visible, List.append_nil, Prod.mk.injEq] at ran
  rcases ran with ⟨rfl, told⟩
  refine ⟨Database.local_tick mono, ?_⟩
  intro later still
  cases opened.symm.trans still
  by_cases many : value ≥ 10
  · have outcome : (Statement.countOf reader).outcome value = .closed := if_pos many
    rw [outcome]
    exact ⟨rfl, rfl⟩
  · have outcome : (Statement.countOf reader).outcome value = .counted := if_neg many
    rw [outcome]
    exact ⟨⟨purged, rfl, locked, fun next gate => (available next gate).trans mono,
      fun gone member => (old gone member).trans mono, told.trans_lt (not_le.mp many)⟩, rfl⟩

theorem continues_insert {writes : Writes} (inv : db.Inv) (fresh : ∀ row ∈ db.history, row.call ≠ call)
    (prepared : db.Prepared call reader writes .counted) (ran : db.run call reading writes (.insert reader) = (after, ()))
    (mono : after.clock ≤ finish) : db.Continues call reader .inserted { after with clock := finish } := by
  rcases prepared with ⟨purged, rfl, locked, available, old, few⟩
  cases ran
  refine ⟨(db.local_put call _).trans (Database.local_tick mono), ?_⟩
  intro later still
  cases (db.put_transaction call _).symm.trans still
  refine ⟨⟨⟨call, reader, db.clock⟩, ?_, rfl⟩, rfl⟩
  exact {
    locked
    inserted := rfl
    owner := rfl
    forReader := rfl
    past := mono
    opened := available
    old
    recent := inv.kept
    few
    fresh }

theorem continues_advanceGate {writes : Writes} (prepared : db.Prepared call reader writes .inserted)
    (ran : db.run call reading writes .advanceGate = (after, ())) (mono : after.clock ≤ finish) :
    db.Continues call reader .advanced { after with clock := finish } := by
  rcases prepared with ⟨row, drafted, uncommitted⟩
  cases ran
  have inside := (db.local_put call (some { writes with nextSearchAt := some (db.clock + second) })).trans
    (Database.local_tick mono)
  refine ⟨inside, ?_⟩
  intro later still
  cases (db.put_transaction call _).symm.trans still
  refine ⟨⟨⟨row, db.clock + second, ?_, rfl, Nat.add_le_add_right drafted.past second⟩, uncommitted⟩, uncommitted⟩
  exact { drafted with past := drafted.past.trans mono }

theorem continues {statement : Statement} {value : statement.Value} (inv : db.Inv)
    (agrees : db.Agrees call (some ⟨reader, statement.turn⟩)) (concerns : statement.Concerns reader)
    (inner : statement ≠ .commit) (timely : ∀ row, reading row ≤ finish) (mono : after.clock ≤ finish)
    (ran : db.execute call reading statement = some (after, value)) :
    db.Continues call reader (statement.outcome value) { after with clock := finish } := by
  cases statement with
  | begin =>
    cases Database.execute_begin ran
    exact continues_begin mono
  | commit => exact absurd rfl inner
  | tryLock =>
    rcases Database.execute_run (by simp) ran with ⟨writes, opened, ran⟩
    exact continues_tryLock opened (agrees.1 writes opened) ran mono
  | available =>
    rcases Database.execute_run (by simp) ran with ⟨writes, opened, ran⟩
    exact continues_available opened (agrees.1 writes opened) ran mono
  | purge =>
    rcases Database.execute_run (by simp) ran with ⟨writes, opened, ran⟩
    exact continues_purge (agrees.1 writes opened) ran timely mono
  | countOf other =>
    rcases Database.execute_run (by simp) ran with ⟨writes, opened, ran⟩
    have same : other = reader := concerns
    subst same
    exact continues_countOf opened (agrees.1 writes opened) ran mono
  | insert other =>
    rcases Database.execute_run (by simp) ran with ⟨writes, opened, ran⟩
    have same : other = reader := concerns
    subst same
    exact continues_insert inv agrees.2 (agrees.1 writes opened) ran mono
  | advanceGate =>
    rcases Database.execute_run (by simp) ran with ⟨writes, opened, ran⟩
    exact continues_advanceGate (agrees.1 writes opened) ran mono

variable {writes : Writes} {other : CallId} {thought : Option Progress} {phase : Phase}

theorem Database.Continues.others (continues : db.Continues call reader phase later) (differs : other ≠ call)
    (agrees : db.Agrees other thought) : later.Agrees other thought := continues.inside.others differs agrees

theorem Database.Continues.inv (continues : db.Continues call reader phase later) (inv : db.Inv) : later.Inv := by
  apply continues.inside.inv inv
  intro writes opened committing
  have uncommitted := (continues.prepared writes opened).2
  rw [uncommitted] at committing
  cases committing

theorem Database.Agrees.fresh {statement : Statement} (agrees : db.Agrees call (some ⟨reader, statement.turn⟩)) :
    ∀ row ∈ db.history, row.call ≠ call := by
  cases statement <;> exact agrees.2

theorem Statement.recorded_outcome {statement : Statement} (inner : statement ≠ .commit) (value : statement.Value)
    {history : List Admission} (fresh : ∀ row ∈ history, row.call ≠ call) :
    (statement.outcome value).Recorded call reader history := by
  cases statement with
  | commit => exact absurd rfl inner
  | begin | purge | insert | advanceGate => exact fresh
  | tryLock | available => cases value <;> exact fresh
  | countOf =>
    unfold outcome
    dsimp only
    split <;> exact fresh

theorem Database.Continues.agrees {statement : Statement} {value : statement.Value}
    (continues : db.Continues call reader (statement.outcome value) later) (inner : statement ≠ .commit)
    (agrees : db.Agrees call (some ⟨reader, statement.turn⟩)) :
    later.Agrees call (some ⟨reader, statement.outcome value⟩) := by
  refine ⟨fun writes opened => (continues.prepared writes opened).1, ?_⟩
  rw [continues.inside.history]
  exact Statement.recorded_outcome inner value agrees.fresh

theorem Database.Continues.closes (continues : db.Continues call reader phase later)
    (fresh : ∀ row ∈ db.history, row.call ≠ call) : later.Agrees call (some ⟨reader, .closed⟩) := by
  refine ⟨fun writes opened => (continues.prepared writes opened).2, ?_⟩
  rw [continues.inside.history]
  exact fresh

theorem Database.Agrees.uncommitted {statement : Statement} (agrees : db.Agrees call (some ⟨reader, statement.turn⟩))
    (opened : db.transaction call = some writes) : writes.committing = false := by
  have prepared := agrees.1 writes opened
  cases statement with
  | begin => exact absurd prepared id
  | tryLock =>
    have empty : writes = {} := prepared
    rw [empty]
  | available | purge =>
    rw [prepared.1]
  | countOf | insert =>
    rcases prepared with ⟨_, rfl, _⟩
    rfl
  | advanceGate =>
    rcases prepared with ⟨_, _, uncommitted⟩
    exact uncommitted
  | commit => exact prepared.2

theorem Database.Agrees.refused {statement : Statement} (agrees : db.Agrees call (some ⟨reader, statement.turn⟩)) :
    db.Agrees call (some ⟨reader, .closed⟩) :=
  ⟨fun _ opened => agrees.uncommitted opened, agrees.fresh⟩

theorem Database.Agrees.commits (agrees : db.Agrees call (some ⟨reader, .advanced⟩))
    (opened : db.transaction call = some writes) :
    db.Ready call reader writes ∧ (db.durable call writes).Agrees call (some ⟨reader, .admitted⟩) := by
  rcases agrees.1 writes opened with ⟨ready, _⟩
  refine ⟨ready, ?_, ?_⟩
  · intro later still
    have closed : (db.durable call writes).transaction call = none := db.close_transaction call
    rw [closed] at still
    cases still
  · rcases ready with ⟨row, _, drafted, _⟩
    refine ⟨row, ?_, drafted.owner, drafted.forReader⟩
    unfold Database.durable
    rw [drafted.inserted]
    exact List.mem_append_right _ (List.mem_singleton_self row)

end Statements

end BookSmartz.Catalog

import BazelRepo.PredictionBot.Store
import BazelRepo.PredictionBot.Transitions

namespace PredictionBot

open Library

theorem EventRevision.next_eq_some {revision next : EventRevision} :
    revision.next = some next ↔ next.val.toInt = revision.val.toInt + 1 := by
  unfold EventRevision.next
  rw [Option.map_eq_some_iff]
  have one : (1 : Int64).toInt = 1 := rfl
  constructor
  · rintro ⟨value, added, rfl⟩
    rw [checkedAdd_eq_some] at added
    simpa [one] using added
  · intro value
    exact ⟨next.val, checkedAdd_eq_some.mpr (by rw [one]; exact value), rfl⟩

theorem EventRevision.compare_lt {a b : EventRevision} (below : a.val.toInt < b.val.toInt) :
    compare a b = .lt := by
  have values : compare a.val b.val = .lt := Std.compare_eq_lt.mpr (Int64.lt_iff_toInt_lt.mpr below)
  exact values

theorem envelope_inv {store : Store} {guild : GuildId} {key : String} {acceptedAt : Int64} {id : Uuid}
    {revision : EventRevision} {event : Event} {cloud : CloudEvent}
    (made : envelope store guild key acceptedAt id revision event = .ok cloud) :
    cloud.payload = .ok event ∧ cloud.validate (store.context guild revision key acceptedAt) event.name
      event.subject = .ok () := by
  unfold envelope at made
  rw [reject_eq_ok, mapError_eq_ok] at made
  obtain ⟨_, made⟩ := made
  obtain ⟨time, _, made⟩ := bind_eq_ok.mp made
  obtain ⟨_, validated, made⟩ := bind_eq_ok.mp made
  cases made
  exact ⟨rfl, validated⟩

theorem insertEvent_inv {database result : Database} {guild : GuildId} {revision : EventRevision}
    {row : EventRow} (inserted : database.insertEvent guild revision row = .ok result) :
    (∀ (other : EventRevision) (stored : EventRow), database.events[other]? = some stored →
      stored.event.identity ≠ row.event.identity) ∧
      result = { database with events := database.events.insert revision row } := by
  unfold Database.insertEvent at inserted
  simp only [reject_eq_ok, Except.ok.injEq, not_or, List.any_eq_true, not_exists, not_and, beq_iff_eq]
    at inserted
  obtain ⟨_, ⟨_, distinct⟩, stored⟩ := inserted
  exact ⟨fun other row found => distinct (other, row) (BTreeMap.mem_toList.mpr found), stored.symm⟩

theorem enqueue_inv {database result : Database} {revision : EventRevision} {event : Event} {state : State}
    {odds : List OutcomeOdds} (queued : enqueue database revision event state odds = .ok result) :
    result.events = database.events ∧ result.commands = database.commands := by
  unfold enqueue at queued
  split at queued
  · cases queued
    exact ⟨rfl, rfl⟩
  · obtain ⟨snapshot, _, queued⟩ := bind_eq_ok.mp queued
    cases snapshot with
    | none =>
      cases queued
      exact ⟨rfl, rfl⟩
    | some entry =>
      obtain ⟨_, stored⟩ := reject_eq_ok.mp queued
      cases stored
      exact ⟨rfl, rfl⟩

theorem insertCommand_inv {database result : Database} {key : String} {row : CommandRow}
    (inserted : database.insertCommand key row = .ok result) :
    database.commands[key]? = none ∧
      result = { database with commands := database.commands.insert key row } := by
  unfold Database.insertCommand at inserted
  simp only [reject_eq_ok, Except.ok.injEq, Option.not_isSome_iff_eq_none] at inserted
  exact ⟨inserted.2.1, inserted.2.2.symm⟩

/-- The event rows as the loader reads them, joined with a table of receipts. -/
def joined (events : BTreeMap EventRevision EventRow) (commands : BTreeMap String CommandRow) :
    List (EventRevision × EventRow × Option CommandRow) :=
  events.toList.map fun (revision, row) => (revision, row, commands[row.commandKey]?)

theorem joined_insert_event {events : BTreeMap EventRevision EventRow} {commands : BTreeMap String CommandRow}
    {revision : EventRevision} (row : EventRow)
    (above : ∀ (other : EventRevision) (stored : EventRow), events[other]? = some stored →
      other.val.toInt < revision.val.toInt) :
    joined (events.insert revision row) commands =
      joined events commands ++ [(revision, row, commands[row.commandKey]?)] := by
  unfold joined
  rw [BTreeMap.toList_insert_last row fun other stored found =>
    EventRevision.compare_lt (above other stored found), List.map_append]
  rfl

theorem maxRevision_insert {events : BTreeMap EventRevision EventRow} {revision : EventRevision} (row : EventRow)
    (above : ∀ (other : EventRevision) (stored : EventRow), events[other]? = some stored →
      other.val.toInt < revision.val.toInt) : maxRevision (events.insert revision row) = revision := by
  unfold maxRevision
  rw [BTreeMap.toList_insert_last row fun other stored found =>
    EventRevision.compare_lt (above other stored found)]
  simp

theorem joined_insert_command {events : BTreeMap EventRevision EventRow} {commands : BTreeMap String CommandRow}
    {key : String} (command : CommandRow)
    (unused : ∀ (revision : EventRevision) (row : EventRow), events[revision]? = some row → row.commandKey ≠ key) :
    joined events (commands.insert key command) = joined events commands := by
  unfold joined
  refine List.map_congr_left ?_
  rintro ⟨revision, row⟩ member
  have other := unused revision row (BTreeMap.mem_toList.mp member)
  dsimp only
  rw [BTreeMap.getElem?_insert_eq, if_neg other]

/-- The stored events under the keys of their commands, in revision order. -/
def written (events : BTreeMap EventRevision EventRow) : List (String × Option Event) :=
  events.toList.map fun entry => (entry.2.commandKey, entry.2.event.data)

def keyed (key : String) (events : List Event) : List (String × Option Event) :=
  events.map fun event => (key, some event)

theorem written_insert {events : BTreeMap EventRevision EventRow} {revision : EventRevision} (row : EventRow)
    (above : ∀ (other : EventRevision) (stored : EventRow), events[other]? = some stored →
      other.val.toInt < revision.val.toInt) :
    written (events.insert revision row) = written events ++ [(row.commandKey, row.event.data)] := by
  unfold written
  rw [BTreeMap.toList_insert_last row fun other stored found =>
    EventRevision.compare_lt (above other stored found), List.map_append]
  rfl

/-- What the loader knows after the rows of a table, while no transaction is open. -/
structure Settled (store : Store) (guild : GuildId) (events : BTreeMap EventRevision EventRow)
    (commands : BTreeMap String CommandRow) (reader : Reader) : Prop where
  read : (joined events commands).foldlM (Reader.read store guild) {} = .ok reader
  above : ∀ (revision : EventRevision) (row : EventRow), events[revision]? = some row →
    revision.val.toInt ≤ reader.revision.val.toInt
  latest : maxRevision events = reader.revision
  counted : reader.revision.val.toInt = reader.events.length
  identities : ∀ identity ∈ reader.identities, ∃ (revision : EventRevision) (row : EventRow),
    events[revision]? = some row ∧ row.event.identity = identity
  linked : ∀ (revision : EventRevision) (row : EventRow), events[revision]? = some row →
    ∃ command, commands[row.commandKey]? = some command
  completed : ∀ key ∈ reader.completedCommands, ∃ command, commands[key]? = some command
  boundary : ∀ key finish, reader.commandEnd = some (key, finish) →
    key ∉ reader.completedCommands ∧ (∃ command, commands[key]? = some command) ∧ finish = reader.revision
  enrolled : reader.enrollment = none

/-- The same while one command writes its events, joined with the receipt it will leave. -/
structure Writing (store : Store) (guild : GuildId) (key : String) (command : CommandRow)
    (events : BTreeMap EventRevision EventRow) (commands : BTreeMap String CommandRow) (reader : Reader) :
    Prop where
  read : (joined events (commands.insert key command)).foldlM (Reader.read store guild) {} = .ok reader
  above : ∀ (revision : EventRevision) (row : EventRow), events[revision]? = some row →
    revision.val.toInt ≤ reader.revision.val.toInt
  latest : maxRevision events = reader.revision
  counted : reader.revision.val.toInt = reader.events.length
  identities : ∀ identity ∈ reader.identities, ∃ (revision : EventRevision) (row : EventRow),
    events[revision]? = some row ∧ row.event.identity = identity
  linked : ∀ (revision : EventRevision) (row : EventRow), events[revision]? = some row →
    row.commandKey = key ∨ ∃ command, commands[row.commandKey]? = some command
  unused : commands[key]? = none
  completed : ∀ other ∈ reader.completedCommands, ∃ command, commands[other]? = some command
  boundary : ∀ other finish, reader.commandEnd = some (other, finish) →
    other ∉ reader.completedCommands ∧ ((other = key ∧ finish = command.lastRevision) ∨
      ((∃ command, commands[other]? = some command) ∧ finish = reader.revision))

theorem Settled.write {store : Store} {guild : GuildId} {events : BTreeMap EventRevision EventRow}
    {commands : BTreeMap String CommandRow} {reader : Reader} {key : String}
    (settled : Settled store guild events commands reader) (unused : commands[key]? = none)
    (command : CommandRow) : Writing store guild key command events commands reader := by
  have other : ∀ (revision : EventRevision) (row : EventRow), events[revision]? = some row →
      row.commandKey ≠ key := by
    intro revision row found same
    obtain ⟨command, present⟩ := settled.linked revision row found
    rw [same, unused] at present
    cases present
  refine ⟨?_, settled.above, settled.latest, settled.counted, settled.identities, ?_, unused, settled.completed, ?_⟩
  · rw [joined_insert_command command other]
    exact settled.read
  · intro revision row found
    exact .inr (settled.linked revision row found)
  · intro other finish bounded
    obtain ⟨once, present⟩ := settled.boundary other finish bounded
    exact ⟨once, .inr present⟩

theorem Writing.commit {store : Store} {guild : GuildId} {events : BTreeMap EventRevision EventRow}
    {commands : BTreeMap String CommandRow} {reader : Reader} {key : String} {command : CommandRow}
    (writing : Writing store guild key command events commands reader)
    (ended : command.lastRevision = reader.revision) (enrolled : reader.enrollment = none) :
    Settled store guild events (commands.insert key command) reader := by
  have kept : ∀ other : String, (∃ stored : CommandRow, commands[other]? = some stored) →
      ∃ stored, (commands.insert key command)[other]? = some stored := by
    rintro other ⟨stored, found⟩
    rw [BTreeMap.getElem?_insert_eq]
    split
    · exact ⟨command, rfl⟩
    · exact ⟨stored, found⟩
  have written : ∃ stored, (commands.insert key command)[key]? = some stored := by
    rw [BTreeMap.getElem?_insert_eq, if_pos rfl]
    exact ⟨command, rfl⟩
  refine ⟨writing.read, writing.above, writing.latest, writing.counted, writing.identities, ?_, ?_, ?_, enrolled⟩
  · intro revision row found
    rcases writing.linked revision row found with same | present
    · rw [same]
      exact written
    · exact kept _ present
  · intro other member
    exact kept other (writing.completed other member)
  · intro other finish bounded
    obtain ⟨once, current | ⟨present, finished⟩⟩ := writing.boundary other finish bounded
    · obtain ⟨rfl, rfl⟩ := current
      exact ⟨once, written, ended⟩
    · exact ⟨once, kept other present, finished⟩

theorem Writing.unseen {store : Store} {guild : GuildId} {key : String} {command : CommandRow}
    {events : BTreeMap EventRevision EventRow} {commands : BTreeMap String CommandRow} {reader : Reader}
    (writing : Writing store guild key command events commands reader) : key ∉ reader.completedCommands := by
  intro member
  obtain ⟨stored, found⟩ := writing.completed key member
  rw [writing.unused] at found
  cases found

theorem Writing.boundary_ok {store : Store} {guild : GuildId} {key : String} {command : CommandRow}
    {events : BTreeMap EventRevision EventRow} {commands : BTreeMap String CommandRow} {reader : Reader}
    (writing : Writing store guild key command events commands reader) :
    ∃ completed, reader.boundary key command.lastRevision = .ok completed ∧ key ∉ completed ∧
      ∀ other ∈ completed, ∃ command, commands[other]? = some command := by
  unfold Reader.boundary
  cases ended : reader.commandEnd with
  | none => exact ⟨reader.completedCommands, rfl, writing.unseen, writing.completed⟩
  | some entry =>
    obtain ⟨prior, finish⟩ := entry
    obtain ⟨once, current | ⟨present, finished⟩⟩ := writing.boundary prior finish ended
    · obtain ⟨rfl, rfl⟩ := current
      exact ⟨reader.completedCommands, by simp, writing.unseen, writing.completed⟩
    · obtain ⟨stored, found⟩ := present
      have other : prior ≠ key := by
        rintro rfl
        rw [writing.unused] at found
        cases found
      have fresh : key ∉ prior :: reader.completedCommands := by
        rw [List.mem_cons, not_or]
        exact ⟨Ne.symm other, writing.unseen⟩
      refine ⟨prior :: reader.completedCommands, ?_, fresh, ?_⟩
      · simp only [ne_eq, other, not_false_eq_true, if_true, finished, not_true_eq_false, once, fresh, or_self,
          if_false]
      · intro earlier member
        rcases List.mem_cons.mp member with rfl | member
        · exact ⟨stored, found⟩
        · exact writing.completed earlier member

/-- One more event of the open command: what the writer accepts the reader accepts after it. -/
theorem Writing.append {store : Store} {guild : GuildId} {events : BTreeMap EventRevision EventRow}
    {commands : BTreeMap String CommandRow} {reader : Reader} {key : String} {command : CommandRow}
    {actor : UserId} {event : Event} {cloud : CloudEvent} {revision : EventRevision}
    (writing : Writing store guild key command events commands reader)
    (receipt : command.actorId = toString actor) (next : reader.revision.next = some revision)
    (last : revision.val.toInt ≤ command.lastRevision.val.toInt)
    (payload : cloud.payload = .ok event)
    (valid : cloud.validate (store.context guild revision key command.acceptedAt) event.name event.subject =
      .ok ())
    (distinct : ∀ (other : EventRevision) (stored : EventRow), events[other]? = some stored →
      stored.event.identity ≠ cloud.identity)
    (time : validateEventTime event command.acceptedAt = .ok ()) (author : validateEventActor event actor = .ok ())
    (enrollment : reader.checkEnrollment event key command.acceptedAt = .ok ()) :
    ∃ result : Reader,
      Writing store guild key command (events.insert revision ⟨key, command.acceptedAt, cloud⟩) commands result ∧
        result.revision = revision ∧ result.events = reader.events ++ [event] ∧
        written (events.insert revision ⟨key, command.acceptedAt, cloud⟩) = written events ++ keyed key [event] ∧
        result.enrollment = pendingEnrollment event key command.acceptedAt := by
  have step := EventRevision.next_eq_some.mp next
  have below : ∀ (other : EventRevision) (stored : EventRow), events[other]? = some stored →
      other.val.toInt < revision.val.toInt := by
    intro other stored found
    have bound := writing.above other stored found
    omega
  have unread : cloud.identity ∉ reader.identities := by
    intro member
    obtain ⟨other, stored, found, same⟩ := writing.identities _ member
    exact distinct other stored found same
  obtain ⟨completed, passed, fresh, members⟩ := writing.boundary_ok
  have parsed : parseU64 (toString actor.val) = some actor.val := parseU64_toString actor.val
  have written : command.actorId = toString actor.val := receipt
  have bounded : ¬ command.lastRevision.val < revision.val := by
    rw [Int64.lt_iff_toInt_lt]
    exact not_lt.mpr last
  refine ⟨⟨revision, cloud.identity :: reader.identities, reader.events ++ [event],
    pendingEnrollment event key command.acceptedAt, some (key, command.lastRevision), completed⟩,
    ⟨?_, ?_, ?_, ?_, ?_, ?_, writing.unused, members, ?_⟩, rfl, rfl, ?_, rfl⟩
  · rw [joined_insert_event _ below, BTreeMap.getElem?_insert_eq, if_pos rfl]
    refine foldlM_append_ok writing.read ?_
    rw [List.foldlM_cons]
    simp only [Reader.read, next, ne_eq, not_true_eq_false, if_false, okOr, ok_bind, written, parsed, bounded, or_self,
      passed, payload, Except.mapError, valid, unread, time, author, enrollment]
    rfl
  · intro other stored found
    rw [BTreeMap.getElem?_insert_eq] at found
    split at found
    · rename_i same
      subst same
      exact le_refl _
    · exact (below other stored found).le
  · exact maxRevision_insert _ below
  · have counted := writing.counted
    dsimp only
    rw [List.length_append, List.length_singleton]
    push_cast
    omega
  · intro identity member
    rcases List.mem_cons.mp member with rfl | member
    · refine ⟨revision, ⟨key, command.acceptedAt, cloud⟩, ?_, rfl⟩
      rw [BTreeMap.getElem?_insert_eq, if_pos rfl]
    · obtain ⟨other, stored, found, same⟩ := writing.identities _ member
      refine ⟨other, stored, ?_, same⟩
      have different : other ≠ revision := by
        rintro rfl
        exact absurd (below other stored found) (lt_irrefl _)
      rw [BTreeMap.getElem?_insert_eq, if_neg different]
      exact found
  · intro other stored found
    rw [BTreeMap.getElem?_insert_eq] at found
    split at found
    · cases found
      exact .inl rfl
    · exact writing.linked other stored found
  · intro other finish bounded
    cases bounded
    exact ⟨fresh, .inl ⟨rfl, rfl⟩⟩
  · have data : cloud.data = some event := okOr_eq_ok.mp payload
    rw [written_insert _ below, data]
    rfl

def enrolledBy : Event → Option UserId
  | .memberEnrolled userId _ => some userId
  | _ => none

/-- The events of one command, each enrollment directly before its initial grant. -/
def Grouped : Option UserId → List Event → Prop
  | pending, [] => pending = none
  | pending, event :: rest => isInitialGrant event = pending ∧ Grouped (enrolledBy event) rest

theorem pendingEnrollment_eq (event : Event) (key : String) (acceptedAt : Int64) :
    pendingEnrollment event key acceptedAt = (enrolledBy event).map fun user => (user, key, acceptedAt) := by
  cases event <;> rfl

theorem checkEnrollment_ok {reader : Reader} {event : Event} {key : String} {acceptedAt : Int64}
    {pending : Option UserId} (owed : reader.enrollment = pending.map fun user => (user, key, acceptedAt))
    (follows : isInitialGrant event = pending) : reader.checkEnrollment event key acceptedAt = .ok () := by
  unfold Reader.checkEnrollment
  rw [owed]
  cases pending with
  | none => simp [follows]
  | some user => simp [follows]

theorem appendEvent_inv [Lowercase] {store : Store} {guild : GuildId} {delivery : Delivery} {work result : Work}
    {event : Event} (appended : appendEvent store guild delivery work event = .ok result) :
    ∃ revision state cloud, work.view.revision.next = some revision ∧
      validateEventActor event delivery.actor.userId = .ok () ∧
      validateEventTime event delivery.acceptedAt = .ok () ∧
      cloud.payload = .ok event ∧
      cloud.validate (store.context guild revision delivery.key delivery.acceptedAt) event.name
        event.subject = .ok () ∧
      apply work.view.state event = .ok state ∧
      (∀ (other : EventRevision) (stored : EventRow), work.database.events[other]? = some stored →
        stored.event.identity ≠ cloud.identity) ∧
      result.view = ⟨revision, state⟩ ∧
      result.database.events =
        work.database.events.insert revision ⟨delivery.key, delivery.acceptedAt, cloud⟩ ∧
      result.database.commands = work.database.commands := by
  unfold appendEvent at appended
  simp only [bind_eq_ok, okOr_eq_ok, mapError_eq_ok, Except.ok.injEq] at appended
  obtain ⟨_, author, _, time, revision, next, cloud, made, state, applied, inserted, added, queued, later,
    stored⟩ := appended
  obtain ⟨payload, valid⟩ := envelope_inv made
  obtain ⟨distinct, rfl⟩ := insertEvent_inv added
  obtain ⟨events, commands⟩ := enqueue_inv later
  subst stored
  exact ⟨revision, state, cloud, next, author, time, payload, valid, applied, distinct, rfl, events, commands⟩

theorem appendEvents_revision [Lowercase] {store : Store} {guild : GuildId} {delivery : Delivery} :
    ∀ {events : List Event} {work final : Work}, events.foldlM (appendEvent store guild delivery) work = .ok final →
      work.view.revision.val.toInt ≤ final.view.revision.val.toInt := by
  intro events
  induction events with
  | nil =>
    intro work final run
    cases run
    exact le_refl _
  | cons event rest ih =>
    intro work final run
    rw [List.foldlM_cons, bind_eq_ok] at run
    obtain ⟨middle, first, run⟩ := run
    obtain ⟨revision, _, _, next, _, _, _, _, _, _, view, _⟩ := appendEvent_inv first
    have step := EventRevision.next_eq_some.mp next
    have later := ih run
    rw [view] at later
    dsimp only at later
    omega

theorem appendEvents_writing [Lowercase] {store : Store} {guild : GuildId} {delivery : Delivery}
    (command : CommandRow) (receipt : command.actorId = toString delivery.actor.userId)
    (accepted : command.acceptedAt = delivery.acceptedAt) :
    ∀ {events : List Event} {work final : Work} {reader : Reader} {pending : Option UserId},
      Writing store guild delivery.key command work.database.events work.database.commands reader →
      reader.revision = work.view.revision → replay reader.events = .ok work.view.state →
      reader.enrollment = pending.map (fun user => (user, delivery.key, delivery.acceptedAt)) →
      Grouped pending events → events.foldlM (appendEvent store guild delivery) work = .ok final →
      final.view.revision.val.toInt ≤ command.lastRevision.val.toInt →
      ∃ result, Writing store guild delivery.key command final.database.events work.database.commands result ∧
        result.revision = final.view.revision ∧ result.events = reader.events ++ events ∧
        written final.database.events = written work.database.events ++ keyed delivery.key events ∧
        replay result.events = .ok final.view.state ∧ result.enrollment = none ∧ final.database.commands = work.database.commands ∧
        events.foldlM apply work.view.state = .ok final.view.state := by
  intro events
  induction events with
  | nil =>
    intro work final reader pending writing revision replayed owed grouped run _
    cases run
    cases grouped
    exact ⟨reader, writing, revision, by simp, by simp [keyed], replayed, owed, rfl, rfl⟩
  | cons event rest ih =>
    intro work final reader pending writing revision replayed owed grouped run last
    rw [List.foldlM_cons, bind_eq_ok] at run
    obtain ⟨middle, first, run⟩ := run
    obtain ⟨follows, grouped⟩ := grouped
    obtain ⟨next, state, cloud, following, author, time, payload, valid, applied, distinct, view, stored,
      commands⟩ := appendEvent_inv first
    have later := appendEvents_revision run
    rw [view] at later
    obtain ⟨extended, writing, position, listed, logged, enrollment⟩ := writing.append receipt
      (by rw [revision]; exact following) (le_trans later last) payload (by rw [accepted]; exact valid) distinct
      (by rw [accepted]; exact time) author
      (checkEnrollment_ok (by rw [accepted]; exact owed) follows)
    obtain ⟨result, writing, finished, prolonged, log, replayed, settled, kept, folded⟩ := ih
      (by rw [stored, commands, ← accepted]; exact writing) (by rw [view]; exact position)
      (by
        rw [listed, view]
        refine foldlM_append_ok replayed ?_
        rw [List.foldlM_cons]
        have projected : applyInner work.view.state event = .ok state := applied
        rw [projected]
        rfl)
      (by rw [enrollment, pendingEnrollment_eq, accepted]) grouped run last
    refine ⟨result, by rw [← commands]; exact writing, finished, by simp [prolonged, listed], ?_, replayed,
      settled, by rw [kept, commands], ?_⟩
    · rw [log, stored, ← accepted, logged, List.append_assoc]
      rfl
    rw [List.foldlM_cons, applied]
    rw [view] at folded
    exact folded

end PredictionBot

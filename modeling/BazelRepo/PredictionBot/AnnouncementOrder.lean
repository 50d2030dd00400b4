import BazelRepo.PredictionBot.Outbox

namespace PredictionBot

open Library

def WorkerPhase.item : WorkerPhase → Option PendingAnnouncement
  | .idle => none
  | .due item | .eligible item | .sent item _ => some item

def WorkerPhase.underWay : WorkerPhase → Option EventRevision
  | .eligible item => some item.revision
  | _ => none

def Database.Behind (database : Database) (revision : EventRevision) : Prop :=
  ∀ (other : EventRevision) (row : OutboxRow), database.outbox[other]? = some row → row.state = .pending →
    revision.val.toInt ≤ other.val.toInt

def Database.Logged (database : Database) (revision : EventRevision) : Prop :=
  ∃ stored : EventRow, database.events[revision]? = some stored

structure Announcer.Inv [Lowercase] (store : Store) (guild : GuildId) (announcer : Announcer) : Prop where
  recorded : ∃ state reader, Recorded store guild announcer.database state reader
  backed : ∀ (revision : EventRevision) (row : OutboxRow), announcer.database.outbox[revision]? = some row →
    announcer.database.Logged revision
  ordered : announcer.sent.Pairwise fun earlier later => earlier.val.toInt ≤ later.val.toInt
  behind : ∀ revision ∈ announcer.sent, announcer.database.Logged revision ∧ announcer.database.Behind revision
  current : ∀ item, announcer.phase.item = some item → announcer.database.Logged item.revision ∧
    announcer.database.Behind item.revision ∧ ∀ revision ∈ announcer.sent, revision.val.toInt ≤ item.revision.val.toInt

theorem Database.Announces.logged {before after : Database} (announces : before.Announces after)
    {revision : EventRevision} (logged : before.Logged revision) : after.Logged revision := by
  rcases logged with ⟨stored, found⟩
  exact ⟨stored, announces.events revision stored found⟩

theorem Database.Announces.behind {before after : Database} (announces : before.Announces after)
    {revision : EventRevision} (logged : before.Logged revision) (behind : before.Behind revision) :
    after.Behind revision := by
  intro other row found pending
  rcases announces.fresh other row found with ⟨earlier, before, was⟩ | ⟨_, above⟩
  · exact behind other earlier before (was pending)
  · rcases logged with ⟨stored, found⟩
    exact le_of_lt (above revision stored found)

theorem behind_of_oldest {database : Database} {revision : EventRevision} (oldest : database.oldest revision = true) :
    database.Behind revision := by
  intro other row found pending
  have every := List.all_eq_true.mp oldest (other, row) (BTreeMap.mem_toList.mpr found)
  rw [pending] at every
  simp only [beq_self_eq_true, Bool.true_and, Bool.not_eq_true', decide_eq_false_iff_not, Int64.lt_iff_toInt_lt]
    at every
  omega

theorem nextDue_eq_some {database : Database} {now : Int64} {item : PendingAnnouncement}
    (due : nextDue database now = .ok (some item)) : ∃ row : OutboxRow, database.outbox[item.revision]? = some row ∧
      row.state = .pending ∧ database.Behind item.revision := by
  unfold nextDue at due
  cases stored : database.settings with
  | none =>
    rw [stored] at due
    cases due
  | some settings =>
    rw [stored] at due
    dsimp only at due
    split at due
    · cases due
    · rename_i row found
      have holds := List.find?_some found
      have listed := BTreeMap.mem_toList.mp (List.mem_of_find?_eq_some found)
      simp only [Bool.and_eq_true, beq_iff_eq] at holds
      cases decoded : decodePending settings row.1 row.2 with
      | error failure =>
        rw [decoded] at due
        cases due
      | ok decodedItem =>
        rw [decoded] at due
        cases due
        unfold decodePending at decoded
        simp only [bind_eq_ok, Except.ok.injEq] at decoded
        rcases decoded with ⟨_, _, _, _, rfl⟩
        exact ⟨row.2, listed, holds.1.1.1, behind_of_oldest holds.1.2⟩

theorem finishAttempt_tables (database : Database) (item : PendingAnnouncement) (outcome : AttemptOutcome)
    (completedAt : Int64) : (finishAttempt database item outcome completedAt).events = database.events ∧
      (finishAttempt database item outcome completedAt).commands = database.commands := by
  have updates : ∀ (tables : Database) update, (updateRow tables item.revision update).events = tables.events ∧
      (updateRow tables item.revision update).commands = tables.commands := by
    intro tables update
    unfold updateRow
    split
    · split <;> exact ⟨rfl, rfl⟩
    · exact ⟨rfl, rfl⟩
  cases outcome with
  | delivered messageId => exact updates database _
  | retry reason providerDelay =>
    unfold finishAttempt
    dsimp only
    split
    · exact updates database _
    · exact ⟨rfl, rfl⟩
  | pause reason =>
    unfold finishAttempt
    dsimp only
    split
    · exact updates _ _
    · exact ⟨rfl, rfl⟩

section Runs

variable [Lowercase] {store : Store} {guild : GuildId} {announcer : Announcer}

theorem Recorded.of_tables {before after : Database} {state : State} {reader : Reader}
    (recorded : Recorded store guild before state reader) (events : after.events = before.events)
    (commands : after.commands = before.commands) : Recorded store guild after state reader := by
  refine ⟨?_, recorded.replayed⟩
  rw [events, commands]
  exact recorded.settled

theorem Announcer.Inv.commit (inv : announcer.Inv store guild) {after : Database}
    (recorded : ∃ state reader, Recorded store guild after state reader)
    (announces : announcer.database.Announces after) : Announcer.Inv store guild { announcer with database := after } where
  recorded := recorded
  backed := by
    intro revision row found
    rcases announces.fresh revision row found with ⟨earlier, before, _⟩ | ⟨logged, _⟩
    · exact announces.logged (inv.backed revision earlier before)
    · exact logged
  ordered := inv.ordered
  behind := by
    intro revision member
    rcases inv.behind revision member with ⟨logged, behind⟩
    exact ⟨announces.logged logged, announces.behind logged behind⟩
  current := by
    intro item held
    rcases inv.current item held with ⟨logged, behind, sent⟩
    exact ⟨announces.logged logged, announces.behind logged behind, sent⟩

theorem Announcer.Inv.rest (inv : announcer.Inv store guild) :
    Announcer.Inv store guild { announcer with phase := .idle } where
  recorded := inv.recorded
  backed := inv.backed
  ordered := inv.ordered
  behind := inv.behind
  current := by
    intro item held
    cases held

theorem Announcer.Inv.discover (inv : announcer.Inv store guild) (now : Int64) :
    (announcer.discover now).Inv store guild := by
  unfold Announcer.discover
  split
  · rename_i item _ due
    rcases nextDue_eq_some due with ⟨row, found, pending, behind⟩
    refine ⟨inv.recorded, inv.backed, inv.ordered, inv.behind, ?_⟩
    rintro _ ⟨⟩
    refine ⟨inv.backed _ row found, behind, ?_⟩
    intro revision member
    exact (inv.behind revision member).2 _ row found pending
  · exact inv

theorem Announcer.Inv.check (inv : announcer.Inv store guild) : announcer.check.Inv store guild := by
  unfold Announcer.check
  split
  · rename_i item phase
    refine ⟨inv.recorded, inv.backed, inv.ordered, inv.behind, ?_⟩
    intro other held
    dsimp only at held
    split at held
    · cases held
      exact inv.current item (by rw [phase]; rfl)
    · cases held
  · exact inv

theorem Announcer.Inv.send (inv : announcer.Inv store guild) (outcome : AttemptOutcome) :
    (announcer.send outcome).Inv store guild := by
  unfold Announcer.send
  split
  · rename_i item phase
    rcases inv.current item (by rw [phase]; rfl) with ⟨logged, behind, earlier⟩
    refine ⟨inv.recorded, inv.backed, ?_, ?_, ?_⟩
    · refine List.pairwise_append.mpr ⟨inv.ordered, List.pairwise_singleton _ _, ?_⟩
      intro revision member last new
      rw [List.mem_singleton.mp new]
      exact earlier revision member
    · intro revision member
      rcases List.mem_append.mp member with member | member
      · exact inv.behind revision member
      · rw [List.mem_singleton.mp member]
        exact ⟨logged, behind⟩
    · rintro _ ⟨⟩
      refine ⟨logged, behind, ?_⟩
      intro revision member
      rcases List.mem_append.mp member with member | member
      · exact earlier revision member
      · rw [List.mem_singleton.mp member]
  · exact inv

theorem Announcer.Inv.finish (inv : announcer.Inv store guild) (completedAt : Int64) :
    (announcer.finish completedAt).Inv store guild := by
  unfold Announcer.finish
  split
  · rename_i item outcome phase
    rcases inv.recorded with ⟨state, reader, recorded⟩
    have tables := finishAttempt_tables announcer.database item outcome completedAt
    have later := inv.commit ⟨state, reader, recorded.of_tables tables.1 tables.2⟩
      (announces_finishAttempt announcer.database item outcome completedAt)
    exact later.rest
  · exact inv

theorem Announcer.Inv.step (inv : announcer.Inv store guild) (action : AnnouncerAction) :
    (announcer.step store guild action).Inv store guild ∧
      announcer.database.Announces (announcer.step store guild action).database := by
  cases action with
  | execute delivery =>
    unfold Announcer.step
    dsimp only
    split
    · rcases inv.recorded with ⟨state, reader, recorded⟩
      cases ran : transact store guild delivery announcer.database with
      | error failure => exact ⟨inv, .refl _⟩
      | ok committed =>
        rcases transact_recorded recorded ran with ⟨next, result, after, _⟩
        have announces := transact_announces recorded ran
        exact ⟨inv.commit ⟨next, result, after⟩ announces, announces⟩
    · exact ⟨inv, .refl _⟩
  | configure configuration =>
    unfold Announcer.step
    dsimp only
    rcases inv.recorded with ⟨state, reader, recorded⟩
    cases ran : configureAnnouncements store guild configuration announcer.database with
    | error failure => exact ⟨inv, .refl _⟩
    | ok committed =>
      rcases configureAnnouncements_recorded recorded ran with ⟨result, after, _⟩
      have announces := (configureAnnouncements_announces recorded ran).1
      exact ⟨inv.commit ⟨state, result, after⟩ announces, announces⟩
  | discover now =>
    refine ⟨inv.discover now, ?_⟩
    have same : (announcer.discover now).database = announcer.database := by
      unfold Announcer.discover
      split <;> rfl
    exact announces_of_same (congrArg Database.events same) (congrArg Database.outbox same)
  | check =>
    refine ⟨inv.check, ?_⟩
    have same : announcer.check.database = announcer.database := by
      unfold Announcer.check
      split <;> rfl
    exact announces_of_same (congrArg Database.events same) (congrArg Database.outbox same)
  | send outcome =>
    refine ⟨inv.send outcome, ?_⟩
    have same : (announcer.send outcome).database = announcer.database := by
      unfold Announcer.send
      split <;> rfl
    exact announces_of_same (congrArg Database.events same) (congrArg Database.outbox same)
  | finish completedAt =>
    refine ⟨inv.finish completedAt, ?_⟩
    show announcer.database.Announces (announcer.finish completedAt).database
    unfold Announcer.finish
    split
    · exact announces_finishAttempt _ _ _ _
    · exact .refl _
  | abandon => exact ⟨inv.rest, .refl _⟩

theorem Announcer.Inv.run (inv : announcer.Inv store guild) (actions : List AnnouncerAction) :
    (announcer.run store guild actions).Inv store guild ∧
      announcer.database.Announces (announcer.run store guild actions).database := by
  induction actions generalizing announcer with
  | nil => exact ⟨inv, .refl _⟩
  | cons action rest ih =>
    rcases inv.step action with ⟨first, announces⟩
    rcases ih first with ⟨last, later⟩
    exact ⟨last, announces.trans later⟩

structure Announcer.Ended (announcer : Announcer) (revision : EventRevision) (row : OutboxRow) : Prop where
  found : announcer.database.outbox[revision]? = some row
  decided : row.state ≠ .pending
  quiet : announcer.phase.underWay ≠ some revision

omit [Lowercase] in
theorem stillEligible_pending {database : Database} {item : PendingAnnouncement} {row : OutboxRow}
    (eligible : stillEligible database item = true) (found : database.outbox[item.revision]? = some row) :
    row.state = .pending := by
  unfold stillEligible at eligible
  rw [found] at eligible
  cases settings : database.settings with
  | none =>
    rw [settings] at eligible
    cases eligible
  | some stored =>
    rw [settings] at eligible
    simp only [Bool.and_eq_true, beq_iff_eq] at eligible
    exact eligible.1.1.1.1

theorem Announcer.Ended.step {revision : EventRevision} {row : OutboxRow} (inv : announcer.Inv store guild)
    (ended : announcer.Ended revision row) (action : AnnouncerAction) :
    (announcer.step store guild action).Ended revision row ∧
      (announcer.step store guild action).sent.count revision = announcer.sent.count revision := by
  have found := (inv.step action).2.settled revision row ended.found ended.decided
  have quiet : (announcer.step store guild action).phase.underWay ≠ some revision ∧
      (announcer.step store guild action).sent.count revision = announcer.sent.count revision := by
    cases action with
    | execute delivery =>
      unfold Announcer.step
      dsimp only
      split
      · split <;> exact ⟨ended.quiet, rfl⟩
      · exact ⟨ended.quiet, rfl⟩
    | configure configuration =>
      unfold Announcer.step
      dsimp only
      split <;> exact ⟨ended.quiet, rfl⟩
    | discover now =>
      show (announcer.discover now).phase.underWay ≠ some revision ∧ (announcer.discover now).sent.count revision = _
      unfold Announcer.discover
      split
      · exact ⟨by simp [WorkerPhase.underWay], rfl⟩
      · exact ⟨ended.quiet, rfl⟩
    | check =>
      show announcer.check.phase.underWay ≠ some revision ∧ announcer.check.sent.count revision = _
      unfold Announcer.check
      split
      · rename_i item phase
        refine ⟨?_, rfl⟩
        dsimp only
        split
        · rename_i eligible
          intro same
          cases same
          exact ended.decided (stillEligible_pending eligible ended.found)
        · simp [WorkerPhase.underWay]
      · exact ⟨ended.quiet, rfl⟩
    | send outcome =>
      show (announcer.send outcome).phase.underWay ≠ some revision ∧ (announcer.send outcome).sent.count revision = _
      unfold Announcer.send
      split
      · rename_i item phase
        have other : item.revision ≠ revision := by
          intro same
          apply ended.quiet
          rw [phase, ← same]
          rfl
        refine ⟨by simp [WorkerPhase.underWay], ?_⟩
        rw [List.count_append, List.count_singleton, if_neg (by simpa using other), Nat.add_zero]
      · exact ⟨ended.quiet, rfl⟩
    | finish completedAt =>
      show (announcer.finish completedAt).phase.underWay ≠ some revision ∧
        (announcer.finish completedAt).sent.count revision = _
      unfold Announcer.finish
      split
      · exact ⟨by simp [WorkerPhase.underWay], rfl⟩
      · exact ⟨ended.quiet, rfl⟩
    | abandon => exact ⟨by simp [Announcer.step, WorkerPhase.underWay], rfl⟩
  exact ⟨⟨found, ended.decided, quiet.1⟩, quiet.2⟩

theorem Announcer.Ended.run {revision : EventRevision} {row : OutboxRow} (inv : announcer.Inv store guild)
    (ended : announcer.Ended revision row) (actions : List AnnouncerAction) :
    (announcer.run store guild actions).sent.count revision = announcer.sent.count revision := by
  induction actions generalizing announcer with
  | nil => rfl
  | cons action rest ih =>
    rcases ended.step inv action with ⟨later, same⟩
    have next := ih (inv.step action).1 later
    exact next.trans same

theorem announcer_inv_empty (store : Store) (guild : GuildId) : Announcer.Inv store guild {} := by
  refine ⟨⟨{}, {}, recorded_empty store guild⟩, ?_, List.Pairwise.nil, ?_, ?_⟩
  · intro revision row found
    simp at found
  · intro revision member
    cases member
  · intro item held
    cases held

/-- What holds of the announcements of a guild at any time, and after it. -/
structure Announcer.Orderly (store : Store) (guild : GuildId) (announcer : Announcer) : Prop where
  /-- A row that was delivered or discarded stays as it is. -/
  final : ∀ (actions : List AnnouncerAction) (revision : EventRevision) (row : OutboxRow),
    announcer.database.outbox[revision]? = some row → row.state ≠ .pending →
      (announcer.run store guild actions).database.outbox[revision]? = some row
  /-- What is pending when announcements are disabled stays discarded, and only a send under way can still reach
  the channel. -/
  disabled : ∀ configuration committed, configuration.change = .disable →
    configureAnnouncements store guild configuration announcer.database = .ok committed → committed.recorded = true →
      ∀ (actions : List AnnouncerAction) (revision : EventRevision) (row : OutboxRow),
        announcer.database.outbox[revision]? = some row → row.state = .pending →
          (∃ later : OutboxRow, later.state = .discarded ∧
            ((announcer.step store guild (.configure configuration)).run store guild actions).database.outbox[revision]? =
              some later) ∧
          (announcer.phase.underWay ≠ some revision →
            ((announcer.step store guild (.configure configuration)).run store guild actions).sent.count revision =
              announcer.sent.count revision)
  ordered : announcer.sent.Pairwise fun earlier later => earlier.val.toInt ≤ later.val.toInt
  /-- The row in hand, like every one that was sent, has no older pending row. -/
  oldest : ∀ revision, (revision ∈ announcer.sent ∨ ∃ item, announcer.phase.item = some item ∧ item.revision = revision) →
    announcer.database.Behind revision
  stale : ∀ item outcome completedAt, (∀ messageId, outcome ≠ .delivered messageId) →
    announcer.database.settings.map SettingsRow.configurationVersion ≠ some item.configurationVersion.val →
      finishAttempt announcer.database item outcome completedAt = announcer.database
  /-- Another destination keeps what is pending except for the welcomes. -/
  redirected : ∀ configuration committed channelId, configuration.change = .set channelId →
    announcer.database.settings.bind SettingsRow.channelId ≠ some (toString channelId) →
    configureAnnouncements store guild configuration announcer.database = .ok committed → committed.recorded = true →
      ∀ (revision : EventRevision) (row : OutboxRow), announcer.database.outbox[revision]? = some row →
        row.state = .pending → ∃ later : OutboxRow, committed.database.outbox[revision]? = some later ∧
          later.snapshot = row.snapshot ∧
          ((∃ occurredAt, row.snapshot = .enabled occurredAt) → later.state = .discarded) ∧
          ((∀ occurredAt, row.snapshot ≠ .enabled occurredAt) → later.state = .pending)

omit [Lowercase] in
theorem finishAttempt_stale {database : Database} {item : PendingAnnouncement} {outcome : AttemptOutcome}
    (completedAt : Int64) (undelivered : ∀ messageId, outcome ≠ .delivered messageId)
    (stale : database.settings.map SettingsRow.configurationVersion ≠ some item.configurationVersion.val) :
    finishAttempt database item outcome completedAt = database := by
  have inapplicable : ¬ applicable database item = true := by
    unfold applicable
    cases settings : database.settings with
    | none => simp
    | some row =>
      rw [settings] at stale
      have other : row.configurationVersion ≠ item.configurationVersion.val := by simpa using stale
      simp [other]
  unfold finishAttempt
  cases outcome with
  | delivered messageId => exact absurd rfl (undelivered messageId)
  | retry => exact if_neg inapplicable
  | pause => exact if_neg inapplicable

theorem Announcer.Inv.orderly (inv : announcer.Inv store guild) : announcer.Orderly store guild where
  final := fun actions revision row found decided => (inv.run actions).2.settled revision row found decided
  disabled := by
    intro configuration committed disables ran recorded actions revision row found pending
    rcases inv.recorded with ⟨state, reader, before⟩
    have configured := (configureAnnouncements_announces before ran).2 recorded revision row found pending
    have changed : configuredRow announcer.database configuration row = { row with state := .discarded } := by
      rw [configuredRow, disables]
      rfl
    have stepped : announcer.step store guild (.configure configuration) =
        { announcer with database := committed.database } := by
      unfold Announcer.step
      dsimp only
      rw [ran]
    have after := (inv.step (.configure configuration)).1
    rw [stepped] at after ⊢
    rw [changed] at configured
    refine ⟨⟨_, rfl, (after.run actions).2.settled revision _ configured (by simp)⟩, ?_⟩
    intro quiet
    exact Announcer.Ended.run after ⟨configured, by simp, quiet⟩ actions
  ordered := inv.ordered
  oldest := by
    rintro revision (sent | ⟨item, held, rfl⟩)
    · exact (inv.behind revision sent).2
    · exact (inv.current item held).2.1
  stale := fun item outcome completedAt undelivered stale => finishAttempt_stale completedAt undelivered stale
  redirected := by
    intro configuration committed channelId sets elsewhere ran recorded revision row found pending
    rcases inv.recorded with ⟨state, reader, before⟩
    have configured := (configureAnnouncements_announces before ran).2 recorded revision row found pending
    have welcome : welcomeChannel announcer.database (.set channelId) = some channelId := by
      unfold welcomeChannel
      dsimp only
      cases settings : announcer.database.settings with
      | none => rfl
      | some stored =>
        rw [settings] at elsewhere
        have other : stored.channelId ≠ some (toString channelId) := elsewhere
        simp [other]
    rw [configuredRow, sets, welcome] at configured
    refine ⟨_, configured, ?_⟩
    dsimp only [pendingUpdate, discardWelcome]
    cases snapshot : row.snapshot <;> simp [pending]

end Runs

/-- Whatever the commands, configurations and attempts, and wherever they come between each other. -/
theorem announcements_stay_in_order [Lowercase] (store : Store) (guild : GuildId) (actions : List AnnouncerAction) :
    (Announcer.run store guild {} actions).Orderly store guild :=
  ((announcer_inv_empty store guild).run actions).1.orderly

end PredictionBot

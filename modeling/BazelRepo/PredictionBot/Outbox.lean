import BazelRepo.PredictionBot.Delivery

namespace PredictionBot

open Library

/-- What a transaction may do to the announcements of a guild: a row that was decided stays as it is, none
disappears, and a new one comes after every event there was. -/
structure Database.Announces (before after : Database) : Prop where
  events : ∀ (revision : EventRevision) (row : EventRow), before.events[revision]? = some row →
    after.events[revision]? = some row
  settled : ∀ (revision : EventRevision) (row : OutboxRow), before.outbox[revision]? = some row →
    row.state ≠ .pending → after.outbox[revision]? = some row
  kept : ∀ (revision : EventRevision) (row : OutboxRow), before.outbox[revision]? = some row →
    ∃ later : OutboxRow, after.outbox[revision]? = some later
  fresh : ∀ (revision : EventRevision) (row : OutboxRow), after.outbox[revision]? = some row →
    (∃ earlier : OutboxRow, before.outbox[revision]? = some earlier ∧ (row.state = .pending → earlier.state = .pending)) ∨
      ((∃ stored : EventRow, after.events[revision]? = some stored) ∧
        ∀ (other : EventRevision) (stored : EventRow), before.events[other]? = some stored →
          other.val.toInt < revision.val.toInt)

theorem Database.Announces.refl (database : Database) : database.Announces database where
  events := fun _ _ found => found
  settled := fun _ _ found _ => found
  kept := fun _ row found => ⟨row, found⟩
  fresh := fun _ row found => .inl ⟨row, found, fun pending => pending⟩

theorem Database.Announces.trans {first second third : Database} (one : first.Announces second)
    (two : second.Announces third) : first.Announces third where
  events := fun revision row found => two.events revision row (one.events revision row found)
  settled := fun revision row found decided =>
    two.settled revision row (one.settled revision row found decided) decided
  kept := by
    intro revision row found
    rcases one.kept revision row found with ⟨middle, kept⟩
    exact two.kept revision middle kept
  fresh := by
    intro revision row found
    rcases two.fresh revision row found with ⟨middle, earlier, pending⟩ | ⟨stored, above⟩
    · rcases one.fresh revision middle earlier with ⟨first, oldest, before⟩ | ⟨⟨event, stored⟩, above⟩
      · exact .inl ⟨first, oldest, fun now => before (pending now)⟩
      · exact .inr ⟨⟨event, two.events revision event stored⟩, above⟩
    · refine .inr ⟨stored, ?_⟩
      intro other event earlier
      exact above other event (one.events other event earlier)

theorem announces_of_same {before after : Database} (events : after.events = before.events)
    (outbox : after.outbox = before.outbox) : before.Announces after where
  events := fun _ _ found => events ▸ found
  settled := fun _ _ found _ => outbox ▸ found
  kept := fun _ row found => ⟨row, outbox ▸ found⟩
  fresh := fun _ row found => .inl ⟨row, outbox ▸ found, fun pending => pending⟩

theorem getElem?_updatePending (update : OutboxRow → OutboxRow) (outbox : BTreeMap EventRevision OutboxRow)
    (revision : EventRevision) : (updatePending update outbox)[revision]? =
      outbox[revision]?.map fun row => if row.state = .pending then update row else row := by
  unfold updatePending
  rw [Std.ExtTreeMap.getElem?_map]

theorem announces_updatePending (database : Database) (update : OutboxRow → OutboxRow) :
    database.Announces { database with outbox := updatePending update database.outbox } where
  events := fun _ _ found => found
  settled := by
    intro revision row found decided
    dsimp only
    rw [getElem?_updatePending, found, Option.map_some, if_neg decided]
  kept := by
    intro revision row found
    dsimp only
    rw [getElem?_updatePending, found]
    exact ⟨_, rfl⟩
  fresh := by
    intro revision row found
    dsimp only at found
    rw [getElem?_updatePending, Option.map_eq_some_iff] at found
    rcases found with ⟨earlier, before, changed⟩
    refine .inl ⟨earlier, before, ?_⟩
    intro pending
    by_cases was : earlier.state = .pending
    · exact was
    · rw [if_neg was] at changed
      rw [changed]
      exact pending

theorem announces_updateRow (database : Database) (revision : EventRevision) (update : OutboxRow → OutboxRow) :
    database.Announces (updateRow database revision update) := by
  unfold updateRow
  split
  · rename_i row found
    split
    · rename_i pending
      refine ⟨fun _ _ found => found, ?_, ?_, ?_⟩
      · intro other stored held decided
        dsimp only
        rw [BTreeMap.getElem?_insert_eq, if_neg _]
        · exact held
        · rintro rfl
          rw [found] at held
          cases held
          exact decided pending
      · intro other stored held
        dsimp only
        rw [BTreeMap.getElem?_insert_eq]
        split
        · exact ⟨_, rfl⟩
        · exact ⟨stored, held⟩
      · intro other stored held
        dsimp only at held
        rw [BTreeMap.getElem?_insert_eq] at held
        split at held
        · rename_i same
          subst same
          exact .inl ⟨row, found, fun _ => pending⟩
        · exact .inl ⟨stored, held, fun pending => pending⟩
    · exact .refl database
  · exact .refl database

theorem announces_finishAttempt (database : Database) (item : PendingAnnouncement) (outcome : AttemptOutcome)
    (completedAt : Int64) : database.Announces (finishAttempt database item outcome completedAt) := by
  cases outcome with
  | delivered messageId => exact announces_updateRow database item.revision _
  | retry reason providerDelay =>
    unfold finishAttempt
    dsimp only
    split
    · exact announces_updateRow database item.revision _
    · exact .refl database
  | pause reason =>
    unfold finishAttempt
    dsimp only
    split
    · refine Database.Announces.trans ?_ (announces_updateRow _ item.revision _)
      exact announces_of_same rfl rfl
    · exact .refl database

theorem enqueue_outbox {database result : Database} {revision : EventRevision} {event : Event} {state : State}
    {odds : List OutcomeOdds} (queued : enqueue database revision event state odds = .ok result) :
    result.outbox = database.outbox ∨ database.outbox[revision]? = none ∧ ∃ row : OutboxRow, row.state = .pending ∧
      result.outbox = database.outbox.insert revision row := by
  unfold enqueue at queued
  split at queued
  · cases queued
    exact .inl rfl
  · obtain ⟨snapshot, _, queued⟩ := bind_eq_ok.mp queued
    cases snapshot with
    | none =>
      cases queued
      exact .inl rfl
    | some entry =>
      obtain ⟨absent, stored⟩ := reject_eq_ok.mp queued
      cases stored
      exact .inr ⟨Option.not_isSome_iff_eq_none.mp absent, _, rfl, rfl⟩

/-- Every event so far has a revision up to this one. -/
def Database.UpTo (database : Database) (revision : EventRevision) : Prop :=
  ∀ (other : EventRevision) (stored : EventRow), database.events[other]? = some stored →
    other.val.toInt ≤ revision.val.toInt

theorem announces_event {database inserted result : Database} {revision next : EventRevision} {row : EventRow}
    (upTo : database.UpTo revision) (following : revision.next = some next)
    (inserts : inserted = { database with events := database.events.insert next row })
    (events : result.events = inserted.events)
    (outbox : result.outbox = inserted.outbox ∨ inserted.outbox[next]? = none ∧ ∃ row : OutboxRow, row.state = .pending ∧
      result.outbox = inserted.outbox.insert next row) :
    database.Announces result ∧ result.UpTo next := by
  subst inserts
  dsimp only at events outbox
  have step := EventRevision.next_eq_some.mp following
  have above : ∀ (other : EventRevision) (stored : EventRow), database.events[other]? = some stored →
      other.val.toInt < next.val.toInt := by
    intro other stored found
    have bound := upTo other stored found
    omega
  have extended : ∀ (other : EventRevision) (stored : EventRow), database.events[other]? = some stored →
      result.events[other]? = some stored := by
    intro other stored found
    rw [events, BTreeMap.getElem?_insert_eq, if_neg _]
    · exact found
    · rintro rfl
      exact absurd (above _ stored found) (lt_irrefl _)
  have there : ∃ stored : EventRow, result.events[next]? = some stored := by
    rw [events, BTreeMap.getElem?_insert_eq, if_pos rfl]
    exact ⟨row, rfl⟩
  constructor
  · rcases outbox with same | ⟨absent, announced, pending, added⟩
    · refine ⟨extended, ?_, ?_, ?_⟩
      · intro other stored found _
        rw [same]
        exact found
      · intro other stored found
        rw [same]
        exact ⟨stored, found⟩
      · intro other stored found
        rw [same] at found
        exact .inl ⟨stored, found, fun pending => pending⟩
    · have apart : ∀ (other : EventRevision) (stored : OutboxRow), database.outbox[other]? = some stored → other ≠ next := by
        rintro other stored found rfl
        rw [absent] at found
        cases found
      refine ⟨extended, ?_, ?_, ?_⟩
      · intro other stored found _
        rw [added, BTreeMap.getElem?_insert_eq, if_neg (apart other stored found)]
        exact found
      · intro other stored found
        rw [added, BTreeMap.getElem?_insert_eq, if_neg (apart other stored found)]
        exact ⟨stored, found⟩
      · intro other stored found
        rw [added, BTreeMap.getElem?_insert_eq] at found
        split at found
        · rename_i same
          subst same
          exact .inr ⟨there, above⟩
        · exact .inl ⟨stored, found, fun pending => pending⟩
  · intro other stored found
    rw [events, BTreeMap.getElem?_insert_eq] at found
    split at found
    · rename_i same
      subst same
      exact le_refl _
    · exact le_of_lt (above other stored found)

theorem appendEvent_announces [Lowercase] {store : Store} {guild : GuildId} {delivery : Delivery} {work result : Work}
    {event : Event} (upTo : work.database.UpTo work.view.revision)
    (appended : appendEvent store guild delivery work event = .ok result) :
    work.database.Announces result.database ∧ result.database.UpTo result.view.revision := by
  unfold appendEvent at appended
  simp only [bind_eq_ok, okOr_eq_ok, mapError_eq_ok, Except.ok.injEq] at appended
  rcases appended with ⟨_, _, _, _, revision, next, cloud, _, state, _, inserted, added, queued, later, rfl⟩
  rcases insertEvent_inv added with ⟨_, same⟩
  rcases enqueue_inv later with ⟨events, _⟩
  exact announces_event upTo next same events (enqueue_outbox later)

theorem appendEvents_announces [Lowercase] {store : Store} {guild : GuildId} {delivery : Delivery} :
    ∀ {events : List Event} {work final : Work}, work.database.UpTo work.view.revision →
      events.foldlM (appendEvent store guild delivery) work = .ok final → work.database.Announces final.database := by
  intro events
  induction events with
  | nil =>
    intro work final _ run
    cases run
    exact .refl _
  | cons event rest ih =>
    intro work final upTo run
    rw [List.foldlM_cons, bind_eq_ok] at run
    rcases run with ⟨middle, first, run⟩
    rcases appendEvent_announces upTo first with ⟨announces, later⟩
    exact announces.trans (ih later run)

theorem transact_announces [Lowercase] {store : Store} {guild : GuildId} {database : Database} {state : State}
    {reader : Reader} {delivery : Delivery} {committed : Committed} (recorded : Recorded store guild database state reader)
    (ran : transact store guild delivery database = .ok committed) : database.Announces committed.database := by
  unfold transact at ran
  rcases bind_eq_ok.mp ran with ⟨found, _, ran⟩
  cases found with
  | some response =>
    cases ran
    exact .refl database
  | none =>
    cases verified : delivery.verificationError with
    | some error =>
      rw [verified] at ran
      cases ran
    | none =>
      rw [verified] at ran
      simp only [bind_eq_ok] at ran
      rcases ran with ⟨view, loaded, decision, _, ran⟩
      rw [atStage, mapError_eq_ok, recorded.load] at loaded
      cases loaded
      split at ran
      · cases ran
        exact .refl database
      · simp only [bind_eq_ok, atStage, mapError_eq_ok, Except.ok.injEq] at ran
        rcases ran with ⟨work, appended, tables, inserted, rfl⟩
        rcases insertCommand_inv inserted with ⟨_, rfl⟩
        have upTo : database.UpTo reader.revision := recorded.settled.above
        have announces : (⟨⟨reader.revision, state⟩, database, 0⟩ : Work).database.Announces work.database :=
          appendEvents_announces upTo appended
        exact announces.trans (announces_of_same rfl rfl)

def pendingUpdate (change : ConfigurationChange) (acceptedAt : Int64) (row : OutboxRow) : OutboxRow :=
  match change with
  | .set _ => { row with attempts := 0, nextAttemptAt := acceptedAt, lastFailure := none }
  | .disable => { row with state := .discarded }

theorem changeSettings_outbox (database : Database) (change : ConfigurationChange) (version acceptedAt : Int64) :
    (changeSettings database change version acceptedAt).1.outbox =
      updatePending (pendingUpdate change acceptedAt) database.outbox := by
  cases change <;> rfl

theorem changeSettings_announces (database : Database) (change : ConfigurationChange) (version acceptedAt : Int64) :
    database.Announces (changeSettings database change version acceptedAt).1 := by
  have updated := announces_updatePending database (pendingUpdate change acceptedAt)
  apply updated.trans
  exact announces_of_same (changeSettings_tables database change version acceptedAt).1
    (changeSettings_outbox database change version acceptedAt)

/-- The announcements after a welcome: the older welcomes are gone, and its own may follow. -/
theorem appendWelcome_announces {store : Store} {guild : GuildId} {configuration : Configuration}
    {channelId : ChannelId} {database result : Database} {revision next : EventRevision} (upTo : database.UpTo revision)
    (appended : appendWelcome store guild configuration channelId database revision = .ok (result, next)) :
    database.Announces result ∧ ∀ (other : EventRevision) (row : OutboxRow), database.outbox[other]? = some row →
      row.state = .pending → result.outbox[other]? = some (discardWelcome row) := by
  unfold appendWelcome at appended
  simp only [bind_eq_ok, okOr_eq_ok, Except.ok.injEq, Prod.mk.injEq] at appended
  rcases appended with ⟨following, after, cloud, _, inserted, added, queued, later, rfl, rfl⟩
  rcases insertEvent_inv added with ⟨_, same⟩
  rcases enqueue_inv later with ⟨events, _⟩
  have outbox := enqueue_outbox later
  have clears := announces_updatePending database discardWelcome
  have still : Database.UpTo { database with outbox := updatePending discardWelcome database.outbox } revision := upTo
  have announces := announces_event still after same events outbox
  refine ⟨clears.trans announces.1, ?_⟩
  intro other row found pending
  have cleared : inserted.outbox[other]? = some (discardWelcome row) := by
    rw [same]
    dsimp only
    rw [getElem?_updatePending, found, Option.map_some, if_pos pending]
  rcases outbox with unchanged | ⟨absent, announced, _, extended⟩
  · rw [unchanged]
    exact cleared
  · rw [extended, BTreeMap.getElem?_insert_eq, if_neg _]
    · exact cleared
    · rintro rfl
      rw [absent] at cleared
      cases cleared

/-- What a configuration that takes effect does to a row that is pending. -/
def configuredRow (database : Database) (configuration : Configuration) (row : OutboxRow) : OutboxRow :=
  match welcomeChannel database configuration.change with
  | some _ => discardWelcome (pendingUpdate configuration.change configuration.acceptedAt row)
  | none => pendingUpdate configuration.change configuration.acceptedAt row

theorem configureAnnouncements_announces [Lowercase] {store : Store} {guild : GuildId} {database : Database}
    {state : State} {reader : Reader} {configuration : Configuration} {committed : Committed}
    (recorded : Recorded store guild database state reader)
    (ran : configureAnnouncements store guild configuration database = .ok committed) :
    database.Announces committed.database ∧ (committed.recorded = true →
      ∀ (revision : EventRevision) (row : OutboxRow), database.outbox[revision]? = some row → row.state = .pending →
        committed.database.outbox[revision]? = some (configuredRow database configuration row)) := by
  unfold configureAnnouncements at ran
  rcases bind_eq_ok.mp ran with ⟨_, _, ran⟩
  rcases bind_eq_ok.mp ran with ⟨found, _, ran⟩
  cases found with
  | some response =>
    cases ran
    refine ⟨.refl database, ?_⟩
    intro impossible
    cases impossible
  | none =>
    rcases bind_eq_ok.mp ran with ⟨version, _, ran⟩
    have changes := changeSettings_announces database configuration.change version configuration.acceptedAt
    have tables := (changeSettings_tables database configuration.change version configuration.acceptedAt).1
    have outbox := changeSettings_outbox database configuration.change version configuration.acceptedAt
    generalize changeSettings database configuration.change version configuration.acceptedAt = changed
      at ran changes tables outbox
    have updated : ∀ (revision : EventRevision) (row : OutboxRow), database.outbox[revision]? = some row →
        row.state = .pending → changed.1.outbox[revision]? =
          some (pendingUpdate configuration.change configuration.acceptedAt row) := by
      intro revision row held pending
      rw [outbox, getElem?_updatePending, held, Option.map_some, if_pos pending]
    rcases bind_eq_ok.mp ran with ⟨⟨appended, revision⟩, wrote, ran⟩
    rcases bind_eq_ok.mp ran with ⟨last, inserted, ran⟩
    cases ran
    rcases insertCommand_inv inserted with ⟨_, rfl⟩
    have unchanged : ∀ row, appended.Announces
        { appended with commands := appended.commands.insert configuration.key row } := fun _ => announces_of_same rfl rfl
    unfold configuredRow
    cases welcomed : welcomeChannel database configuration.change with
    | none =>
      rw [welcomed] at wrote
      cases wrote
      exact ⟨changes.trans (unchanged _), fun _ => updated⟩
    | some channelId =>
      rw [welcomed] at wrote
      have upTo : changed.1.UpTo (maxRevision changed.1.events) := by
        rw [tables, recorded.settled.latest]
        intro other stored held
        rw [tables] at held
        exact recorded.settled.above other stored held
      rcases appendWelcome_announces upTo wrote with ⟨announces, cleared⟩
      refine ⟨(changes.trans announces).trans (unchanged _), ?_⟩
      intro _ other row held pending
      have set := welcomeChannel_some welcomed
      apply cleared other _ (updated other row held pending)
      rw [set]
      exact pending

end PredictionBot

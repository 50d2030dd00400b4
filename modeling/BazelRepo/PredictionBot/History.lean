import BazelRepo.PredictionBot.Agreement

namespace PredictionBot

open Library

theorem grouped_single {event : Event} (grant : isInitialGrant event = none) (enrollment : enrolledBy event = none) :
    Grouped none [event] :=
  ⟨grant, enrollment⟩

theorem decideJoin_grouped [Lowercase] {state : State} {actor : Actor} {now : Int64} {defaults : Policy}
    {decision : Decision} (decided : decideJoin state actor now defaults = .ok decision) :
    Grouped none decision.events := by
  unfold decideJoin at decided
  obtain ⟨_, decided⟩ := reject_eq_ok.mp decided
  split at decided
  · rw [(finish_eq_ok decided).1]
    rfl
  · simp only [bind_eq_ok] at decided
    obtain ⟨_, _, nextGrant, _, decided⟩ := decided
    rw [(finish_eq_ok decided).1]
    split
    · exact ⟨rfl, rfl, rfl, rfl⟩
    · exact ⟨rfl, rfl, rfl⟩

theorem decideGrant_grouped [Lowercase] {state : State} {actor : Actor} {userId : UserId} {now : Int64}
    {decision : Decision} (decided : decideGrant state actor userId now = .ok decision) :
    Grouped none decision.events := by
  unfold decideGrant at decided
  simp only [reject_eq_ok, bind_eq_ok] at decided
  obtain ⟨_, _, _, _, _, _, _, decided⟩ := decided
  split at decided
  · rw [(finish_eq_ok decided).1]
    rfl
  · simp only [bind_eq_ok] at decided
    obtain ⟨_, _, _, _, _, _, _, _, _, _, decided⟩ := decided
    rw [(finish_eq_ok decided).1]
    exact grouped_single rfl rfl

theorem decideCreate_grouped [Lowercase] {state : State} {actor : Actor} {id : MarketId} {question : String}
    {options : List String} {closesAt now : Int64} {decision : Decision}
    (decided : decideCreate state actor id question options closesAt now = .ok decision) :
    Grouped none decision.events := by
  unfold decideCreate at decided
  simp only [reject_eq_ok, bind_eq_ok] at decided
  obtain ⟨_, _, _, _, _, _, decided⟩ := decided
  rw [(finish_eq_ok decided).1]
  exact grouped_single rfl rfl

theorem decideBet_grouped [Lowercase] {state : State} {actor : Actor} {id : MarketId} {outcome : OutcomeIndex}
    {amount : Points} {now : Int64} {decision : Decision}
    (decided : decideBet state actor id outcome amount now = .ok decision) : Grouped none decision.events := by
  unfold decideBet at decided
  simp only [reject_eq_ok, bind_eq_ok] at decided
  obtain ⟨_, _, _, _, _, _, _, _, _, _, _, _, decided⟩ := decided
  rw [(finish_eq_ok decided).1]
  exact grouped_single rfl rfl

theorem decideResolve_grouped [Lowercase] {state : State} {actor : Actor} {id : MarketId}
    {outcome : OutcomeIndex} {now : Int64} {membership : Option MembershipEvidence} {decision : Decision}
    (decided : decideResolve state actor id outcome now membership = .ok decision) :
    Grouped none decision.events := by
  unfold decideResolve at decided
  simp only [reject_eq_ok, bind_eq_ok] at decided
  obtain ⟨_, _, _, _, _, _, _, _, _, decided⟩ := decided
  rw [(finish_eq_ok decided).1]
  exact grouped_single rfl rfl

theorem decideAddResolver_grouped [Lowercase] {state : State} {actor : Actor} {id : MarketId} {userId : UserId}
    {now : Int64} {membership : Option MembershipEvidence} {decision : Decision}
    (decided : decideAddResolver state actor id userId now membership = .ok decision) :
    Grouped none decision.events := by
  unfold decideAddResolver at decided
  simp only [reject_eq_ok, bind_eq_ok] at decided
  obtain ⟨_, _, _, _, _, _, _, decided⟩ := decided
  split at decided
  · rw [(finish_eq_ok decided).1]
    rfl
  · rw [(finish_eq_ok decided).1]
    exact grouped_single rfl rfl

theorem decideRemoveResolver_grouped [Lowercase] {state : State} {actor : Actor} {id : MarketId}
    {userId : UserId} {now : Int64} {decision : Decision}
    (decided : decideRemoveResolver state actor id userId now = .ok decision) :
    Grouped none decision.events := by
  unfold decideRemoveResolver at decided
  simp only [reject_eq_ok, bind_eq_ok] at decided
  obtain ⟨_, _, _, _, _, decided⟩ := decided
  split at decided
  · rw [(finish_eq_ok decided).1]
    rfl
  · rw [(finish_eq_ok decided).1]
    exact grouped_single rfl rfl

theorem decideCancel_grouped [Lowercase] {state : State} {actor : Actor} {id : MarketId} {now : Int64}
    {decision : Decision} (decided : decideCancel state actor id now = .ok decision) :
    Grouped none decision.events := by
  unfold decideCancel at decided
  simp only [reject_eq_ok, bind_eq_ok] at decided
  obtain ⟨_, _, _, _, _, _, decided⟩ := decided
  rw [(finish_eq_ok decided).1]
  exact grouped_single rfl rfl

theorem decide_grouped [Lowercase] {state : State} {actor : Actor} {command : Command} {now : Int64}
    {defaults : Policy} {membership : Option MembershipEvidence} {decision : Decision}
    (decided : decideWithMembership state actor command now defaults membership = .ok decision) :
    Grouped none decision.events := by
  cases command with
  | join => exact decideJoin_grouped decided
  | create id question options closesAt => exact decideCreate_grouped decided
  | bet id outcome amount => exact decideBet_grouped decided
  | resolve id outcome => exact decideResolve_grouped decided
  | addResolver id userId => exact decideAddResolver_grouped decided
  | removeResolver id userId => exact decideRemoveResolver_grouped decided
  | cancel id => exact decideCancel_grouped decided
  | grant userId => exact decideGrant_grouped decided

theorem decideCommand_inv [Lowercase] {store : Store} {state : State} {delivery : Delivery} {decision : Decision}
    (decided : decideCommand store state delivery = .ok decision) :
    decideWithMembership state delivery.actor delivery.command delivery.acceptedAt store.defaults
      delivery.membership = .ok decision := by
  unfold decideCommand at decided
  split at decided
  · cases decided
  · cases decided
  · rename_i same
    cases decided
    exact same

/-- The rows of a guild as its writers leave them: the loader ends on the projection of their events. -/
structure Recorded [Lowercase] (store : Store) (guild : GuildId) (database : Database) (state : State)
    (reader : Reader) : Prop where
  settled : Settled store guild database.events database.commands reader
  replayed : replay reader.events = .ok state

theorem Recorded.load [Lowercase] {store : Store} {guild : GuildId} {database : Database} {state : State}
    {reader : Reader} (recorded : Recorded store guild database state reader) :
    load store guild database = .ok ⟨reader.revision, state⟩ := by
  have ended : ¬ (reader.commandEnd.any fun boundary => Decidable.decide (boundary.2 ≠ reader.revision)) = true := by
    cases last : reader.commandEnd with
    | none => simp
    | some entry =>
      obtain ⟨key, finish⟩ := entry
      have same := (recorded.settled.boundary key finish last).2.2
      simp [same]
  have read : database.rows.foldlM (Reader.read store guild) {} = .ok reader := recorded.settled.read
  rw [PredictionBot.load, read, ok_bind, Reader.finish, if_neg ended, recorded.settled.enrolled, recorded.replayed]
  rfl

theorem recorded_empty [Lowercase] (store : Store) (guild : GuildId) : Recorded store guild {} {} {} := by
  refine ⟨⟨?_, ?_, ?_, ?_, ?_, ?_, ?_, ?_, rfl⟩, rfl⟩
  · rfl
  · intro revision row found
    simp at found
  · rfl
  · rfl
  · intro identity member
    cases member
  · intro revision row found
    simp at found
  · intro key member
    cases member
  · intro key finish bounded
    cases bounded

theorem receipt_none {database : Database} {key : String} {actor : UserId}
    (absent : receipt database key actor = .ok none) : database.commands[key]? = none := by
  unfold receipt at absent
  cases found : database.commands[key]? with
  | none => rfl
  | some row =>
    rw [found] at absent
    dsimp only at absent
    rw [reject_eq_ok] at absent
    cases absent.2

/-- What a commit under a key does to the tables: a receipt that was there answers and nothing changes,
or nothing is due and nothing changes (where a command may come too early), or the events and their
receipt are added. -/
inductive Commits (key : String) (actor : UserId) (early : Prop) (database : Database) (committed : Committed) :
    Prop where
  | replayed (row : CommandRow) (found : database.commands[key]? = some row) (actor : row.actorId = toString actor)
      (response : committed.response = row.response) (recorded : committed.recorded = false)
      (events : committed.events = []) (published : committed.published = none)
      (unchanged : committed.database = database)
  | idle (grant : early) (unused : database.commands[key]? = none) (recorded : committed.recorded = false)
      (events : committed.events = []) (published : committed.published ≠ none)
      (unchanged : committed.database = database)
  | appended (row : CommandRow) (unused : database.commands[key]? = none) (actor : row.actorId = toString actor)
      (response : committed.response = row.response) (recorded : committed.recorded = true)
      (commands : committed.database.commands = database.commands.insert key row)
      (log : written committed.database.events = written database.events ++ keyed key committed.events)

theorem receipt_some {database : Database} {key : String} {actor : UserId} {response : String}
    (found : receipt database key actor = .ok (some response)) :
    ∃ row, database.commands[key]? = some row ∧ row.actorId = toString actor ∧ response = row.response := by
  unfold receipt at found
  cases stored : database.commands[key]? with
  | none =>
    rw [stored] at found
    cases found
  | some row =>
    rw [stored] at found
    dsimp only at found
    rw [reject_eq_ok] at found
    obtain ⟨same, response⟩ := found
    cases response
    exact ⟨row, rfl, not_not.mp same, rfl⟩

theorem transact_recorded [Lowercase] {store : Store} {guild : GuildId} {database : Database} {state : State}
    {reader : Reader} {delivery : Delivery} {committed : Committed}
    (recorded : Recorded store guild database state reader)
    (ran : transact store guild delivery database = .ok committed) :
    ∃ next result, Recorded store guild committed.database next result ∧
      result.events = reader.events ++ committed.events ∧
      committed.events.foldlM apply state = .ok next ∧
      Commits delivery.key delivery.actor.userId (isGrant delivery.command) database committed ∧
      (∀ view, committed.published = some view → view = ⟨result.revision, next⟩) := by
  unfold transact at ran
  obtain ⟨found, looked, ran⟩ := bind_eq_ok.mp ran
  cases found with
  | some response =>
    cases ran
    obtain ⟨row, stored, same, answer⟩ := receipt_some (mapError_eq_ok.mp looked)
    exact ⟨state, reader, recorded, by simp, rfl, .replayed row stored same answer rfl rfl rfl rfl, by simp⟩
  | none =>
    have unused := receipt_none (mapError_eq_ok.mp looked)
    cases verified : delivery.verificationError with
    | some error =>
      rw [verified] at ran
      cases ran
    | none =>
      rw [verified] at ran
      simp only [bind_eq_ok] at ran
      obtain ⟨view, loaded, decision, decided, ran⟩ := ran
      rw [atStage, mapError_eq_ok, recorded.load] at loaded
      cases loaded
      split at ran
      · rename_i idle
        cases ran
        refine ⟨state, reader, recorded, by simp, rfl, .idle idle.1 unused rfl rfl (by simp) rfl, ?_⟩
        intro view same
        cases same
        rfl
      · simp only [bind_eq_ok, atStage, mapError_eq_ok, Except.ok.injEq] at ran
        obtain ⟨work, appended, committedDatabase, inserted, rfl⟩ := ran
        obtain ⟨_, rfl⟩ := insertCommand_inv inserted
        obtain ⟨result, writing, position, prolonged, log, replayed, enrolled, commands, folded⟩ :=
          appendEvents_writing
          ⟨toString delivery.actor.userId, delivery.acceptedAt, decision.response, work.view.revision⟩
          rfl rfl (recorded.settled.write unused _) rfl recorded.replayed
          (by rw [recorded.settled.enrolled]; rfl) (decide_grouped (decideCommand_inv decided)) appended (le_refl _)
        refine ⟨work.view.state, result, ⟨?_, replayed⟩, prolonged, folded,
          .appended _ unused rfl rfl rfl (by rw [commands]) log, ?_⟩
        · dsimp only
          rw [commands]
          exact writing.commit position.symm enrolled
        · intro view same
          cases same
          rw [position]

theorem changeSettings_tables (database : Database) (change : ConfigurationChange) (version acceptedAt : Int64) :
    (changeSettings database change version acceptedAt).1.events = database.events ∧
      (changeSettings database change version acceptedAt).1.commands = database.commands := by
  cases change <;> exact ⟨rfl, rfl⟩

theorem validateConfigurationRequest_inv {guild : GuildId} {configuration : Configuration}
    (valid : validateConfigurationRequest guild configuration = .ok ()) :
    configuration.actor.userId.val ≠ 0 ∧ configuration.change ≠ .set ⟨0⟩ := by
  unfold validateConfigurationRequest validateAdministrator at valid
  simp only [bind_eq_ok, reject_eq_ok, not_or] at valid
  obtain ⟨_, ⟨⟨_, actor, _⟩, _⟩, _, _, change, _⟩ := valid
  exact ⟨actor, change⟩

theorem appendWelcome_inv {store : Store} {guild : GuildId} {configuration : Configuration}
    {channelId : ChannelId} {database result : Database} {revision next : EventRevision}
    (appended : appendWelcome store guild configuration channelId database revision = .ok (result, next)) :
    ∃ cloud, revision.next = some next ∧
      envelope store guild configuration.key configuration.acceptedAt configuration.id next
        (.announcementsEnabled channelId configuration.actor.userId configuration.acceptedAt) = .ok cloud ∧
      (∀ (other : EventRevision) (stored : EventRow), database.events[other]? = some stored →
        stored.event.identity ≠ cloud.identity) ∧
      result.events = database.events.insert next ⟨configuration.key, configuration.acceptedAt, cloud⟩ ∧
      result.commands = database.commands := by
  unfold appendWelcome at appended
  simp only [bind_eq_ok, okOr_eq_ok, Except.ok.injEq, Prod.mk.injEq] at appended
  obtain ⟨following, next, cloud, made, inserted, added, queued, later, rfl, rfl⟩ := appended
  obtain ⟨distinct, rfl⟩ := insertEvent_inv added
  obtain ⟨events, commands⟩ := enqueue_inv later
  exact ⟨cloud, next, made, distinct, events, commands⟩

theorem welcomeChannel_some {database : Database} {change : ConfigurationChange} {channelId : ChannelId}
    (welcomed : welcomeChannel database change = some channelId) : change = .set channelId := by
  unfold welcomeChannel at welcomed
  cases change with
  | disable => cases welcomed
  | set channel =>
    dsimp only at welcomed
    split at welcomed
    · cases welcomed
    · cases welcomed
      rfl

/-- A welcome moves no points, so the projection of a longer record is the one before. -/
theorem replay_welcome [Lowercase] {events : List Event} {state : State} {channelId : ChannelId}
    {moderator : UserId} {enabledAt : Int64} (replayed : replay events = .ok state)
    (channel : channelId.val ≠ 0) (human : moderator.val ≠ 0) :
    replay (events ++ [.announcementsEnabled channelId moderator enabledAt]) = .ok state := by
  refine foldlM_append_ok replayed ?_
  have valid : validateAnnouncementActivation channelId moderator = .ok () := by
    simp [validateAnnouncementActivation, channel, human]
  rw [List.foldlM_cons, applyInner, valid]
  rfl

theorem configureAnnouncements_recorded [Lowercase] {store : Store} {guild : GuildId} {database : Database}
    {state : State} {reader : Reader} {configuration : Configuration} {committed : Committed}
    (recorded : Recorded store guild database state reader)
    (ran : configureAnnouncements store guild configuration database = .ok committed) :
    ∃ result, Recorded store guild committed.database state result ∧
      result.events = reader.events ++ committed.events ∧
      Commits configuration.key configuration.actor.userId False database committed := by
  unfold configureAnnouncements at ran
  obtain ⟨_, request, ran⟩ := bind_eq_ok.mp ran
  obtain ⟨human, channel⟩ := validateConfigurationRequest_inv request
  obtain ⟨found, looked, ran⟩ := bind_eq_ok.mp ran
  cases found with
  | some response =>
    cases ran
    obtain ⟨row, stored, same, answer⟩ := receipt_some looked
    exact ⟨reader, recorded, by simp, .replayed row stored same answer rfl rfl rfl rfl⟩
  | none =>
    have unused := receipt_none looked
    obtain ⟨version, _, ran⟩ := bind_eq_ok.mp ran
    generalize changes : changeSettings database configuration.change version configuration.acceptedAt = changed at ran
    obtain ⟨events, commands⟩ := changeSettings_tables database configuration.change version configuration.acceptedAt
    rw [changes] at events commands
    obtain ⟨⟨appended, revision⟩, wrote, ran⟩ := bind_eq_ok.mp ran
    obtain ⟨tables, inserted, ran⟩ := bind_eq_ok.mp ran
    cases ran
    obtain ⟨_, rfl⟩ := insertCommand_inv inserted
    have writing := recorded.settled.write unused
      ⟨toString configuration.actor.userId, configuration.acceptedAt, changed.2, revision⟩
    have latest : maxRevision changed.1.events = reader.revision := events ▸ recorded.settled.latest
    cases welcomed : welcomeChannel database configuration.change with
    | none =>
      rw [welcomed] at wrote
      cases wrote
      refine ⟨reader, ⟨?_, recorded.replayed⟩, by simp [welcomeEvents],
        .appended _ unused rfl rfl rfl (by rw [commands]) (by simp [events, keyed, welcomeEvents])⟩
      have settled := writing.commit latest recorded.settled.enrolled
      rw [← events, ← commands] at settled
      exact settled
    | some channelId =>
      rw [welcomed] at wrote
      have set := welcomeChannel_some welcomed
      have positive : channelId.val ≠ 0 := by
        intro zero
        cases channelId
        subst zero
        exact channel set
      obtain ⟨cloud, next, made, distinct, stored, kept⟩ := appendWelcome_inv wrote
      obtain ⟨payload, valid⟩ := envelope_inv made
      rw [latest] at next
      rw [events] at distinct
      have owed : reader.enrollment =
          none.map fun user : UserId => (user, configuration.key, configuration.acceptedAt) :=
        recorded.settled.enrolled
      obtain ⟨extended, writing, position, listed, log, enrollment⟩ := writing.append rfl next (le_refl _) payload valid
        distinct (by simp [validateEventTime, eventTimeMatches]) (by simp [validateEventActor, eventActor])
        (checkEnrollment_ok owed rfl)
      refine ⟨extended, ⟨?_, ?_⟩, listed, .appended _ unused rfl rfl rfl (by rw [kept, commands]) ?_⟩
      · dsimp only
        rw [stored, kept, events, commands]
        exact writing.commit position.symm enrollment
      · rw [listed]
        exact replay_welcome recorded.replayed positive human
      · dsimp only
        rw [stored, events]
        exact log

inductive Operation where
  | execute (delivery : Delivery)
  | configure (configuration : Configuration)

/-- The rows of a guild, and beside them the state its transactions computed for themselves. -/
structure Ledger where
  database : Database := {}
  folded : Except DomainError State := .ok {}

/-- One writer of the guild; whatever it refuses or fails to do is rolled back. -/
def Ledger.perform [Lowercase] (store : Store) (guild : GuildId) (ledger : Ledger) : Operation → Ledger
  | .execute delivery =>
    if validKey guild delivery.key delivery.actor then
      match transact store guild delivery ledger.database with
      | .error _ => ledger
      | .ok committed =>
        { database := committed.database
          folded := ledger.folded >>= fun state => committed.events.foldlM apply state }
    else ledger
  | .configure configuration =>
    match configureAnnouncements store guild configuration ledger.database with
    | .error _ => ledger
    | .ok committed => { ledger with database := committed.database }

def Ledger.run [Lowercase] (store : Store) (guild : GuildId) (operations : List Operation) : Ledger :=
  operations.foldl (Ledger.perform store guild) {}

def Ledger.Agrees [Lowercase] (store : Store) (guild : GuildId) (ledger : Ledger) : Prop :=
  ∃ state reader, Recorded store guild ledger.database state reader ∧ ledger.folded = .ok state

theorem Ledger.Agrees.perform [Lowercase] {store : Store} {guild : GuildId} {ledger : Ledger}
    (agrees : ledger.Agrees store guild) (operation : Operation) :
    (ledger.perform store guild operation).Agrees store guild := by
  obtain ⟨state, reader, recorded, folded⟩ := agrees
  cases operation with
  | execute delivery =>
    unfold Ledger.perform
    dsimp only
    split
    · cases ran : transact store guild delivery ledger.database with
      | error failure => exact ⟨state, reader, recorded, folded⟩
      | ok committed =>
        obtain ⟨next, result, recorded, _, applied, _⟩ := transact_recorded recorded ran
        refine ⟨next, result, recorded, ?_⟩
        dsimp only
        rw [folded, ok_bind]
        exact applied
    · exact ⟨state, reader, recorded, folded⟩
  | configure configuration =>
    unfold Ledger.perform
    dsimp only
    cases ran : configureAnnouncements store guild configuration ledger.database with
    | error failure => exact ⟨state, reader, recorded, folded⟩
    | ok committed =>
      obtain ⟨result, recorded, _⟩ := configureAnnouncements_recorded recorded ran
      exact ⟨state, result, recorded, folded⟩

theorem Ledger.agrees_run [Lowercase] (store : Store) (guild : GuildId) (operations : List Operation) :
    (Ledger.run store guild operations).Agrees store guild := by
  unfold Ledger.run
  induction operations using List.reverseRecOn with
  | nil => exact ⟨{}, {}, recorded_empty store guild, rfl⟩
  | append_singleton earlier operation ih =>
    rw [List.foldl_append]
    exact ih.perform operation

/-- Whatever a guild's writers commit, in any order and under any clocks, the loader accepts, and it
ends on the state the writers folded themselves. -/
theorem load_accepts_every_history [Lowercase] (store : Store) (guild : GuildId) (operations : List Operation) :
    ∃ state, (Ledger.run store guild operations).folded = .ok state ∧
      load store guild (Ledger.run store guild operations).database =
        .ok ⟨maxRevision (Ledger.run store guild operations).database.events, state⟩ := by
  obtain ⟨state, reader, recorded, folded⟩ := Ledger.agrees_run store guild operations
  refine ⟨state, folded, ?_⟩
  rw [recorded.load, recorded.settled.latest]

end PredictionBot

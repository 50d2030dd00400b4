import BazelRepo.PredictionBot.Delivery
import Std.Data.String.ToInt

namespace PredictionBot

open Library

def Commit.log (commit : Commit) : List (String × Option Event) := keyed commit.key commit.events

def committedEvents (commits : List Commit) : List Event := commits.flatMap Commit.events

/-- A view of the past: the projection of the first events ever committed. -/
def Past [Lowercase] (commits : List Commit) (view : View) : Prop :=
  ∃ count, count ≤ (committedEvents commits).length ∧ view.revision.val.toInt = count ∧
    replay ((committedEvents commits).take count) = .ok view.state

def Receipted (database : Database) (request : CommandCall) (response : String) : Prop :=
  ∃ row, database.commands[request.key]? = some row ∧ row.actorId = toString request.actor.userId ∧
    row.response = response

/-- A response is the recorded one, or that of a grant for which nothing was due. -/
def Answers (database : Database) (request : CommandCall) (response : String) : Prop :=
  Receipted database request response ∨ isGrant request.command

def PhaseSound [Lowercase] (guild : GuildId) (database : Database) (commits : List Commit)
    (request : CommandCall) : Phase → Prop
  | .preflight => validKey guild request.key request.actor
  | .attempt _ => validKey guild request.key request.actor
  | .refresh response _ => validKey guild request.key request.actor ∧ Receipted database request response
  | .publishing response view => Answers database request response ∧ Past commits view
  | .finished (.ok response) => Answers database request response
  | .finished (.error _) => True

structure Sound [Lowercase] (store : Store) (guild : GuildId) (world : World) : Prop where
  recorded : ∃ state reader, Recorded store guild world.database state reader ∧
    reader.events = committedEvents world.commits
  log : written world.database.events = world.commits.flatMap Commit.log
  distinct : (world.commits.map Commit.key).Nodup
  receipts : ∀ commit ∈ world.commits, ∃ row, world.database.commands[commit.key]? = some row ∧
    row.actorId = toString commit.actor ∧ row.response = commit.response
  complete : ∀ (key : String) (row : CommandRow), world.database.commands[key]? = some row →
    ∃ commit ∈ world.commits, commit.key = key
  keys : ∀ commit ∈ world.commits, ∀ actor : Actor, actor.userId = commit.actor →
    validKey guild commit.key actor
  calls : ∀ id call, world.calls id = some call →
    PhaseSound guild world.database world.commits call.request call.phase
  started : ∀ id call, world.calls id = some call → id < world.next
  published : ∀ view, world.published = some view → Past world.commits view
  loaded : ∀ view ∈ world.loaded, Past world.commits view

structure Grows (before after : World) : Prop where
  commands : ∀ (key : String) (row : CommandRow), before.database.commands[key]? = some row →
    after.database.commands[key]? = some row
  commits : before.commits <+: after.commits

theorem Grows.refl (world : World) : Grows world world :=
  ⟨fun _ _ found => found, List.prefix_refl _⟩

theorem Grows.trans {first second third : World} (earlier : Grows first second) (later : Grows second third) :
    Grows first third :=
  ⟨fun key row found => later.commands key row (earlier.commands key row found),
    earlier.commits.trans later.commits⟩

theorem Past.grow [Lowercase] {before after : List Commit} {view : View} (past : Past before view)
    (longer : before <+: after) : Past after view := by
  obtain ⟨count, bound, revision, replayed⟩ := past
  obtain ⟨more, rfl⟩ := longer
  have events : committedEvents (before ++ more) = committedEvents before ++ committedEvents more := by
    simp [committedEvents]
  refine ⟨count, ?_, revision, ?_⟩
  · rw [events, List.length_append]
    omega
  · rw [events, List.take_append_of_le_length bound]
    exact replayed

theorem Receipted.grow {before after : World} {request : CommandCall} {response : String}
    (receipted : Receipted before.database request response) (grows : Grows before after) :
    Receipted after.database request response := by
  obtain ⟨row, found, actor, answer⟩ := receipted
  exact ⟨row, grows.commands _ row found, actor, answer⟩

theorem Answers.grow {before after : World} {request : CommandCall} {response : String}
    (answers : Answers before.database request response) (grows : Grows before after) :
    Answers after.database request response := by
  rcases answers with receipted | grant
  · exact .inl (receipted.grow grows)
  · exact .inr grant

theorem PhaseSound.grow [Lowercase] {guild : GuildId} {before after : World} {request : CommandCall}
    {phase : Phase} (sound : PhaseSound guild before.database before.commits request phase)
    (grows : Grows before after) : PhaseSound guild after.database after.commits request phase := by
  cases phase with
  | preflight => exact sound
  | attempt attempt => exact sound
  | refresh response attempt => exact ⟨sound.1, sound.2.grow grows⟩
  | publishing response view => exact ⟨sound.1.grow grows, sound.2.grow grows.commits⟩
  | finished result =>
    cases result with
    | error error => exact True.intro
    | ok response => exact Answers.grow sound grows

theorem Sound.setPhase [Lowercase] {store : Store} {guild : GuildId} {world : World}
    (sound : Sound store guild world) {id : Nat} (started : id < world.next) {request : CommandCall}
    {phase : Phase} (phaseSound : PhaseSound guild world.database world.commits request phase) :
    Sound store guild (world.setPhase id request phase) := by
  refine { sound with calls := ?_, started := ?_ }
  · intro other call found
    by_cases same : other = id
    · subst same
      simp only [World.setPhase, Function.update_self, Option.some.injEq] at found
      subst found
      exact phaseSound
    · simp only [World.setPhase, Function.update_of_ne same] at found
      exact sound.calls other call found
  · intro other call found
    by_cases same : other = id
    · subst same
      exact started
    · simp only [World.setPhase, Function.update_of_ne same] at found
      exact sound.started other call found

theorem grows_setPhase (world : World) (id : Nat) (request : CommandCall) (phase : Phase) :
    Grows world (world.setPhase id request phase) :=
  ⟨fun _ _ found => found, List.prefix_refl _⟩

theorem grows_commit {world : World} {key : String} {actor : UserId} {early : Prop} {committed : Committed}
    (commits : Commits key actor early world.database committed) : Grows world (world.commit key actor committed) := by
  cases commits with
  | replayed row found actor response recorded events published unchanged | idle grant unused recorded events _ unchanged =>
    refine ⟨?_, ?_⟩
    · intro other row found
      dsimp only [World.commit]
      rw [unchanged]
      exact found
    · simp [World.commit, recorded]
  | appended row unused actor response recorded commands log =>
    refine ⟨?_, ?_⟩
    · intro other stored found
      dsimp only [World.commit]
      rw [commands, BTreeMap.getElem?_insert_eq]
      split
      · rename_i same
        rw [same, unused] at found
        cases found
      · exact found
    · simp [World.commit, recorded]

theorem commit_unrecorded {world : World} {key : String} {actor : UserId} {committed : Committed}
    (recorded : committed.recorded = false) (unchanged : committed.database = world.database) :
    world.commit key actor committed = world := by
  simp [World.commit, recorded, unchanged]

/-- A commit keeps the books: its key is new, and its events follow all others. -/
theorem Sound.commit [Lowercase] {store : Store} {guild : GuildId} {world : World}
    (sound : Sound store guild world) {key : String} {actor : UserId} {early : Prop} {committed : Committed}
    {state : State}
    {before after : Reader} (earlier : before.events = committedEvents world.commits)
    (recorded : Recorded store guild committed.database state after)
    (prolonged : after.events = before.events ++ committed.events)
    (commits : Commits key actor early world.database committed)
    (valid : ∀ sender : Actor, sender.userId = actor → validKey guild key sender) :
    Sound store guild (world.commit key actor committed) ∧
      after.events = committedEvents (world.commit key actor committed).commits := by
  have grows := grows_commit commits
  cases commits with
  | replayed row found actor response unrecorded events published unchanged | idle grant unused unrecorded events _ unchanged =>
    rw [commit_unrecorded unrecorded unchanged]
    refine ⟨sound, ?_⟩
    rw [prolonged, events, List.append_nil, earlier]
  | appended row unused sender response written commands log =>
    have list : (world.commit key actor committed).commits =
        world.commits ++ [⟨key, actor, committed.response, committed.events⟩] := by
      simp [World.commit, written]
    have events : after.events = committedEvents (world.commit key actor committed).commits := by
      rw [list, prolonged, earlier]
      simp [committedEvents]
    refine ⟨⟨⟨state, after, recorded, events⟩, ?_, ?_, ?_, ?_, ?_, ?_, sound.started, ?_, ?_⟩, events⟩
    · rw [list, List.flatMap_append, ← sound.log]
      dsimp only [World.commit]
      rw [log]
      simp [Commit.log]
    · rw [list, List.map_append, List.nodup_append]
      refine ⟨sound.distinct, by simp, ?_⟩
      intro other member single present same
      obtain ⟨commit, listed, rfl⟩ := List.mem_map.mp member
      obtain ⟨stored, found, _⟩ := sound.receipts commit listed
      rw [List.map_singleton, List.mem_singleton] at present
      rw [same, present, unused] at found
      cases found
    · intro commit member
      rw [list] at member
      rcases List.mem_append.mp member with listed | latest
      · obtain ⟨stored, found, facts⟩ := sound.receipts commit listed
        exact ⟨stored, grows.commands _ stored found, facts⟩
      · cases List.mem_singleton.mp latest
        refine ⟨row, ?_, sender, response.symm⟩
        dsimp only [World.commit]
        rw [commands, BTreeMap.getElem?_insert_eq, if_pos rfl]
    · intro other stored found
      rw [list]
      dsimp only [World.commit] at found
      rw [commands, BTreeMap.getElem?_insert_eq] at found
      split at found
      · rename_i same
        exact ⟨_, List.mem_append_right _ List.mem_cons_self, same.symm⟩
      · obtain ⟨commit, listed, same⟩ := sound.complete other stored found
        exact ⟨commit, List.mem_append_left _ listed, same⟩
    · intro commit member
      rw [list] at member
      rcases List.mem_append.mp member with listed | latest
      · exact sound.keys commit listed
      · cases List.mem_singleton.mp latest
        exact valid
    · intro id call found
      exact (sound.calls id call found).grow grows
    · intro view found
      exact (sound.published view found).grow grows.commits
    · intro view member
      exact (sound.loaded view member).grow grows.commits

theorem Recorded.past [Lowercase] {store : Store} {guild : GuildId} {database : Database} {state : State}
    {reader : Reader} {commits : List Commit} (recorded : Recorded store guild database state reader)
    (events : reader.events = committedEvents commits) : Past commits ⟨reader.revision, state⟩ := by
  refine ⟨reader.events.length, by rw [events], recorded.settled.counted, ?_⟩
  rw [← events, List.take_length]
  exact recorded.replayed

theorem past_publishView [Lowercase] {commits : List Commit} {published : Option View} {view : View}
    (before : ∀ view, published = some view → Past commits view) (past : Past commits view) :
    ∀ result, publishView published view = some result → Past commits result := by
  intro result chosen
  unfold publishView at chosen
  cases published with
  | none =>
    cases chosen
    exact past
  | some current =>
    dsimp only at chosen
    split at chosen
    · exact before result chosen
    · cases chosen
      exact past

theorem phaseSound_afterFailure [Lowercase] {guild : GuildId} (database : Database) (commits : List Commit)
    {request : CommandCall} (valid : validKey guild request.key request.actor) (attempt : Attempt)
    (failure : TransactionFailure) :
    PhaseSound guild database commits request (afterFailure attempt failure) := by
  unfold afterFailure
  split
  · exact valid
  · exact True.intro

theorem phaseSound_failedRefresh [Lowercase] {guild : GuildId} (database : Database) (commits : List Commit)
    {request : CommandCall} (valid : validKey guild request.key request.actor) (attempt : Option Attempt)
    (error : StoreError) : PhaseSound guild database commits request (failedRefresh attempt error) := by
  cases attempt with
  | none => exact True.intro
  | some attempt => exact phaseSound_afterFailure database commits valid attempt _

theorem phaseSound_preflight [Lowercase] {guild : GuildId} (database : Database) (commits : List Commit)
    {request : CommandCall} (valid : validKey guild request.key request.actor) (fault : Option StoreError)
    (membership : Option MembershipEvidence) (verificationError : Option StoreError) :
    PhaseSound guild database commits request
      (preflightPhase database request fault membership verificationError) := by
  unfold preflightPhase
  cases fault with
  | some error => exact True.intro
  | none =>
    dsimp only
    split
    · exact True.intro
    · rename_i response found
      obtain ⟨row, stored, actor, same⟩ := receipt_some found
      exact ⟨valid, row, stored, actor, same.symm⟩
    · exact valid

theorem phaseSound_refresh [Lowercase] {store : Store} {guild : GuildId} {database : Database}
    {commits : List Commit} {state : State} {reader : Reader}
    (recorded : Recorded store guild database state reader) (events : reader.events = committedEvents commits)
    {request : CommandCall} (valid : validKey guild request.key request.actor) {response : String}
    (receipted : Receipted database request response) (attempt : Option Attempt) (fault : Option StoreError) :
    PhaseSound guild database commits request (refreshPhase store guild database response attempt fault) := by
  unfold refreshPhase
  cases fault with
  | some error => exact phaseSound_failedRefresh database commits valid attempt error
  | none =>
    dsimp only
    rw [recorded.load]
    exact ⟨.inl receipted, recorded.past events⟩

theorem phaseSound_committed [Lowercase] {guild : GuildId} {database : Database} {request : CommandCall}
    {committed : Committed} {attempt : Attempt} {view : View} {commits : List Commit}
    (valid : validKey guild request.key request.actor)
    (committing : Commits request.key request.actor.userId (isGrant request.command) database committed)
    (published : ∀ other, committed.published = some other → other = view) (past : Past commits view) :
    PhaseSound guild committed.database commits request (committedPhase committed attempt) := by
  unfold committedPhase
  cases committing with
  | replayed row found actor response recorded events none unchanged =>
    rw [none]
    refine ⟨valid, row, ?_, actor, response.symm⟩
    rw [unchanged]
    exact found
  | idle grant unused recorded events answered unchanged =>
    cases chosen : committed.published with
    | none => exact absurd chosen answered
    | some other =>
      cases published other chosen
      exact ⟨.inr grant, past⟩
  | appended row unused actor response recorded commands log =>
    have receipted : Receipted committed.database request committed.response := by
      refine ⟨row, ?_, actor, response.symm⟩
      rw [commands, BTreeMap.getElem?_insert_eq, if_pos rfl]
    cases chosen : committed.published with
    | none => exact ⟨valid, receipted⟩
    | some other =>
      cases published other chosen
      exact ⟨.inl receipted, past⟩

theorem validKey_sender {guild : GuildId} {key : String} {actor sender : Actor}
    (valid : validKey guild key actor) (same : sender.userId = actor.userId) : validKey guild key sender := by
  unfold validKey at valid ⊢
  rw [same]
  exact valid

/-- What one step may do to a world: keep it sound, and only ever add to it. -/
def Advances [Lowercase] (store : Store) (guild : GuildId) (before after : World) : Prop :=
  Sound store guild after ∧ Grows before after

theorem Sound.unchanged [Lowercase] {store : Store} {guild : GuildId} {world : World}
    (sound : Sound store guild world) : Advances store guild world world :=
  ⟨sound, Grows.refl world⟩

theorem Sound.phased [Lowercase] {store : Store} {guild : GuildId} {world : World}
    (sound : Sound store guild world) {id : Nat} (started : id < world.next) {request : CommandCall}
    {phase : Phase} (phaseSound : PhaseSound guild world.database world.commits request phase) :
    Advances store guild world (world.setPhase id request phase) :=
  ⟨sound.setPhase started phaseSound, grows_setPhase world id request phase⟩

theorem Sound.transact [Lowercase] {store : Store} {guild : GuildId} {world : World}
    (sound : Sound store guild world) {id : Nat} (started : id < world.next) {request : CommandCall}
    (valid : validKey guild request.key request.actor) (attempt : Attempt) (acceptedAt : Int64)
    (ids : Nat → Uuid) (fault : Option Fault) :
    Advances store guild world (world.transact store guild id request attempt acceptedAt ids fault) := by
  have failed : ∀ failure, Advances store guild world
      (world.setPhase id request (afterFailure attempt failure)) := fun failure =>
    sound.phased started (phaseSound_afterFailure _ _ valid attempt failure)
  obtain ⟨state, reader, recorded, events⟩ := sound.recorded
  unfold World.transact
  split
  · exact failed _
  · cases ran : PredictionBot.transact store guild (request.delivery attempt acceptedAt ids) world.database with
    | error failure => exact failed failure
    | ok committed =>
      obtain ⟨next, result, recorded, prolonged, _, commits, published⟩ := transact_recorded recorded ran
      have grows : Grows world (world.commit request.key request.actor.userId committed) := grows_commit commits
      have later : Sound store guild (world.commit request.key request.actor.userId committed) ∧
          result.events = committedEvents (world.commit request.key request.actor.userId committed).commits :=
        sound.commit events recorded prolonged commits fun sender same => validKey_sender valid same
      dsimp only
      refine ⟨later.1.setPhase started ?_, grows.trans (grows_setPhase _ _ _ _)⟩
      unfold heardPhase
      split
      · exact phaseSound_afterFailure _ _ valid _ _
      · exact phaseSound_committed valid commits published (recorded.past later.2)

theorem Sound.publish [Lowercase] {store : Store} {guild : GuildId} {world : World}
    (sound : Sound store guild world) {view : View} (past : Past world.commits view) :
    Advances store guild world { world with published := publishView world.published view } :=
  ⟨{ sound with published := past_publishView sound.published past }, ⟨fun _ _ found => found, List.prefix_refl _⟩⟩

theorem Sound.advance [Lowercase] {store : Store} {guild : GuildId} {world : World}
    (sound : Sound store guild world) {id : Nat} {call : Call} (found : world.calls id = some call)
    (action : Action) : Advances store guild world (world.advance store guild id call action) := by
  have started := sound.started id call found
  have phase := sound.calls id call found
  unfold World.advance
  cases action with
  | preflight _ fault membership verificationError =>
    dsimp only
    split
    · rename_i same
      rw [same] at phase
      exact sound.phased started (phaseSound_preflight _ _ phase fault membership verificationError)
    · exact sound.unchanged
  | attempt _ acceptedAt ids fault =>
    dsimp only
    split
    · rename_i same
      rw [same] at phase
      exact sound.transact started phase _ acceptedAt ids fault
    · exact sound.unchanged
  | refresh _ fault =>
    dsimp only
    split
    · rename_i same
      rw [same] at phase
      obtain ⟨state, reader, recorded, events⟩ := sound.recorded
      exact sound.phased started (phaseSound_refresh recorded events phase.1 phase.2 _ fault)
    · exact sound.unchanged
  | publish _ =>
    dsimp only
    split
    · rename_i response view same
      rw [same] at phase
      have ended : Advances store guild world (world.setPhase id call.request (.finished (.ok response))) :=
        sound.phased started phase.1
      have shown := ended.1.publish phase.2
      exact ⟨shown.1, ended.2.trans shown.2⟩
    · exact sound.unchanged
  | _ => exact sound.unchanged

theorem Sound.deliver [Lowercase] {store : Store} {guild : GuildId} {world : World}
    (sound : Sound store guild world) (request : CommandCall) :
    Advances store guild world (world.deliver guild request) := by
  have room : Sound store guild { world with next := world.next + 1 } :=
    { sound with started := fun id call found => Nat.lt_succ_of_lt (sound.started id call found) }
  have phase : PhaseSound guild world.database world.commits request
      (if validKey guild request.key request.actor then .preflight
        else .finished (.error (.configuration "invalid guild or command key"))) := by
    split
    · assumption
    · exact True.intro
  exact ⟨room.setPhase (Nat.lt_succ_self world.next) phase, ⟨fun _ _ found => found, List.prefix_refl _⟩⟩

theorem validKey_configuration {guild : GuildId} {configuration : Configuration}
    (valid : validateConfigurationRequest guild configuration = .ok ()) {sender : Actor}
    (same : sender.userId = configuration.actor.userId) : validKey guild configuration.key sender := by
  unfold validateConfigurationRequest validateAdministrator validateKey at valid
  simp only [bind_eq_ok, reject_eq_ok, not_or] at valid
  obtain ⟨_, ⟨⟨guilds, human, _⟩, _⟩, _, ⟨⟨filled, short, plain, named, ended⟩, _⟩, _⟩ := valid
  have named := not_not.mp named
  have short := Nat.not_lt.mp short
  have unsystematic : "grant:".toList.isPrefixOf configuration.key.toList = false := by
    obtain ⟨rest, split⟩ := List.isPrefixOf_iff_prefix.mp named
    rw [← split]
    rfl
  have commanded : hasCommandPrefix configuration.key = true := by
    unfold hasCommandPrefix
    rw [named, Bool.true_or]
  unfold validKey
  rw [same, commanded, unsystematic]
  simp [guilds, human, filled, short, plain, ended]

theorem Sound.configure [Lowercase] {store : Store} {guild : GuildId} {world : World}
    (sound : Sound store guild world) (configuration : Configuration) :
    Advances store guild world (world.configure store guild configuration) := by
  unfold World.configure
  cases ran : configureAnnouncements store guild configuration world.database with
  | error error => exact sound.unchanged
  | ok committed =>
    obtain ⟨state, reader, recorded, events⟩ := sound.recorded
    obtain ⟨result, recorded, prolonged, commits⟩ := configureAnnouncements_recorded recorded ran
    have valid : validateConfigurationRequest guild configuration = .ok () := by
      unfold configureAnnouncements at ran
      exact (bind_eq_ok.mp ran).choose_spec.1
    exact ⟨(sound.commit events recorded prolonged commits fun sender same =>
      validKey_configuration valid same).1, grows_commit commits⟩

theorem Sound.step [Lowercase] {store : Store} {guild : GuildId} {world : World}
    (sound : Sound store guild world) (action : Action) :
    Advances store guild world (world.step store guild action) := by
  unfold World.step
  cases caller : action.caller with
  | some id =>
    dsimp only
    cases found : world.calls id with
    | none => exact sound.unchanged
    | some call => exact sound.advance found action
  | none =>
    dsimp only
    cases action with
    | deliver request => exact sound.deliver request
    | configure configuration => exact sound.configure configuration
    | view =>
      obtain ⟨state, reader, recorded, events⟩ := sound.recorded
      dsimp only
      rw [recorded.load]
      refine ⟨{ sound with loaded := ?_ }, ⟨fun _ _ found => found, List.prefix_refl _⟩⟩
      intro view member
      rcases List.mem_append.mp member with earlier | latest
      · exact sound.loaded view earlier
      · cases List.mem_singleton.mp latest
        exact recorded.past events
    | publishLoaded index =>
      dsimp only
      cases found : world.loaded[index]? with
      | none => exact sound.unchanged
      | some view => exact sound.publish (sound.loaded view (List.mem_of_getElem? found))
    | crash =>
      refine ⟨{ sound with calls := ?_, started := ?_, published := ?_, loaded := ?_ },
        ⟨fun _ _ found => found, List.prefix_refl _⟩⟩
      · intro id call found
        cases found
      · intro id call found
        cases found
      · intro view found
        cases found
      · intro view member
        cases member
    | _ => cases caller

theorem sound_empty [Lowercase] (store : Store) (guild : GuildId) : Sound store guild {} := by
  refine ⟨⟨{}, {}, recorded_empty store guild, rfl⟩, ?_, by simp, ?_, ?_, ?_, ?_, ?_, ?_, ?_⟩
  · rfl
  · intro commit member
    cases member
  · intro key row found
    simp at found
  · intro commit member
    cases member
  · intro id call found
    cases found
  · intro id call found
    cases found
  · intro view found
    cases found
  · intro view member
    cases member

theorem Sound.run [Lowercase] {store : Store} {guild : GuildId} {world : World}
    (sound : Sound store guild world) (actions : List Action) :
    Advances store guild world (World.run store guild world actions) := by
  induction actions generalizing world with
  | nil => exact sound.unchanged
  | cons action rest ih =>
    have first := sound.step action
    have others := ih first.1
    exact ⟨others.1, first.2.trans others.2⟩

theorem receipt_of_row {database : Database} {key : String} {row : CommandRow}
    (found : database.commands[key]? = some row) (actor : UserId) :
    receipt database key actor =
      if row.actorId = toString actor then .ok (some row.response)
      else .error (.history "command actor mismatch") := by
  unfold receipt
  rw [found]
  by_cases same : row.actorId = toString actor
  · simp [same]
  · simp [same]

def Answering (response : String) : Phase → Prop
  | .preflight => True
  | .refresh answer none => answer = response
  | .publishing answer _ => answer = response
  | .finished (.ok answer) => answer = response
  | _ => False

def Refused : Phase → Prop
  | .preflight => True
  | .finished (.error _) => True
  | _ => False

/-- A call that was delivered once, and that keeps to certain phases while it lives. -/
def Keeps (id : Nat) (request : CommandCall) (good : Phase → Prop) (world : World) : Prop :=
  id < world.next ∧ ∀ call, world.calls id = some call → call.request = request ∧ good call.phase

theorem Keeps.setPhase {id : Nat} {request : CommandCall} {good : Phase → Prop} {world : World}
    (keeps : Keeps id request good world) {phase : Phase} (kept : good phase) :
    Keeps id request good (world.setPhase id request phase) := by
  refine ⟨keeps.1, ?_⟩
  intro call found
  simp only [World.setPhase, Function.update_self, Option.some.injEq] at found
  subst found
  exact ⟨rfl, kept⟩

theorem setPhase_other {world : World} {id other : Nat} (apart : other ≠ id) (request : CommandCall)
    (phase : Phase) : (world.setPhase id request phase).calls other = world.calls other :=
  Function.update_of_ne apart _ _

theorem advance_other [Lowercase] (store : Store) (guild : GuildId) (world : World) {id other : Nat}
    (apart : other ≠ id) (call : Call) (action : Action) :
    (world.advance store guild id call action).calls other = world.calls other ∧
      (world.advance store guild id call action).next = world.next := by
  unfold World.advance World.transact
  cases action <;> dsimp only
  all_goals
    repeat' split
    all_goals exact ⟨by first | exact setPhase_other apart _ _ | rfl, rfl⟩

theorem Keeps.other [Lowercase] {store : Store} {guild : GuildId} {id : Nat} {request : CommandCall}
    {good : Phase → Prop} {world : World} (keeps : Keeps id request good world) {action : Action}
    (apart : action.caller ≠ some id) : Keeps id request good (world.step store guild action) := by
  unfold World.step
  cases caller : action.caller with
  | some other =>
    dsimp only
    cases found : world.calls other with
    | none => exact keeps
    | some call =>
      have different : id ≠ other := fun same => apart (by rw [caller, same])
      obtain ⟨calls, next⟩ := advance_other store guild world different call action
      refine ⟨by rw [next]; exact keeps.1, ?_⟩
      intro call found
      rw [calls] at found
      exact keeps.2 call found
  | none =>
    dsimp only
    cases action with
    | deliver other =>
      refine ⟨Nat.lt_succ_of_lt keeps.1, ?_⟩
      intro call found
      dsimp only [World.deliver] at found
      rw [setPhase_other (Nat.ne_of_lt keeps.1)] at found
      exact keeps.2 call found
    | configure configuration =>
      dsimp only [World.configure]
      cases configureAnnouncements store guild configuration world.database with
      | error error => exact keeps
      | ok committed => exact keeps
    | view =>
      dsimp only
      cases load store guild world.database with
      | error error => exact keeps
      | ok view => exact keeps
    | publishLoaded index =>
      dsimp only
      cases world.loaded[index]? with
      | none => exact keeps
      | some view => exact keeps
    | crash =>
      refine ⟨keeps.1, ?_⟩
      intro call found
      cases found
    | _ => cases caller

theorem Keeps.answering [Lowercase] {store : Store} {guild : GuildId} {id : Nat} {request : CommandCall}
    {world : World} (sound : Sound store guild world) {row : CommandRow}
    (found : world.database.commands[request.key]? = some row)
    (actor : row.actorId = toString request.actor.userId)
    (keeps : Keeps id request (Answering row.response) world) {action : Action}
    (caller : action.caller = some id) (clean : action.faulty = false) :
    Keeps id request (Answering row.response) (world.step store guild action) := by
  unfold World.step
  rw [caller]
  dsimp only
  cases present : world.calls id with
  | none => exact keeps
  | some call =>
    obtain ⟨requested, phase⟩ := keeps.2 call present
    have replied : receipt world.database request.key request.actor.userId = .ok (some row.response) := by
      rw [receipt_of_row found, if_pos actor]
    obtain ⟨state, reader, recorded, _⟩ := sound.recorded
    unfold World.advance
    dsimp only
    cases action with
    | preflight _ fault membership verificationError =>
      dsimp only
      split
      · rw [requested]
        apply keeps.setPhase
        cases fault with
        | some error => cases clean
        | none =>
          rw [preflightPhase, replied]
          rfl
      · exact keeps
    | attempt _ acceptedAt ids fault =>
      dsimp only
      split
      · rename_i same
        rw [same] at phase
        cases phase
      · exact keeps
    | refresh _ fault =>
      dsimp only
      split
      · rename_i response attempt same
        rw [same] at phase
        rw [requested]
        apply keeps.setPhase
        cases fault with
        | some error => cases clean
        | none =>
          cases attempt with
          | some attempt => cases phase
          | none =>
            rw [refreshPhase, recorded.load]
            exact phase
      · exact keeps
    | publish _ =>
      dsimp only
      split
      · rename_i response view same
        rw [same] at phase
        rw [requested]
        exact keeps.setPhase phase
      · exact keeps
    | _ => exact keeps

theorem Keeps.refused [Lowercase] {store : Store} {guild : GuildId} {id : Nat} {request : CommandCall}
    {world : World} {row : CommandRow} (found : world.database.commands[request.key]? = some row)
    (actor : row.actorId ≠ toString request.actor.userId) (keeps : Keeps id request Refused world)
    {action : Action} (caller : action.caller = some id) :
    Keeps id request Refused (world.step store guild action) := by
  unfold World.step
  rw [caller]
  dsimp only
  cases present : world.calls id with
  | none => exact keeps
  | some call =>
    obtain ⟨requested, phase⟩ := keeps.2 call present
    have replied : receipt world.database request.key request.actor.userId =
        .error (.history "command actor mismatch") := by
      rw [receipt_of_row found, if_neg actor]
    unfold World.advance
    dsimp only
    cases action with
    | preflight _ fault membership verificationError =>
      dsimp only
      split
      · rw [requested]
        apply keeps.setPhase
        cases fault with
        | some error => exact True.intro
        | none =>
          rw [preflightPhase, replied]
          exact True.intro
      · exact keeps
    | attempt _ acceptedAt ids fault | refresh _ fault | publish _ =>
      dsimp only
      split
      · rename_i same
        rw [same] at phase
        cases phase
      · exact keeps
    | _ => exact keeps

theorem Keeps.answering_run [Lowercase] {store : Store} {guild : GuildId} {id : Nat} {request : CommandCall}
    {row : CommandRow} (actor : row.actorId = toString request.actor.userId) {actions : List Action}
    (clean : ∀ action ∈ actions, action.caller = some id → action.faulty = false) :
    ∀ {world : World}, Sound store guild world → world.database.commands[request.key]? = some row →
      Keeps id request (Answering row.response) world →
      Keeps id request (Answering row.response) (World.run store guild world actions) := by
  induction actions with
  | nil => exact fun _ _ keeps => keeps
  | cons action rest ih =>
    intro world sound found keeps
    obtain ⟨after, grows⟩ := sound.step action
    refine ih (fun other member => clean other (List.mem_cons_of_mem _ member)) after
      (grows.commands _ row found) ?_
    by_cases caller : action.caller = some id
    · exact keeps.answering sound found actor caller (clean action List.mem_cons_self caller)
    · exact keeps.other caller

theorem Keeps.refused_run [Lowercase] {store : Store} {guild : GuildId} {id : Nat} {request : CommandCall}
    {row : CommandRow} (actor : row.actorId ≠ toString request.actor.userId) (actions : List Action) :
    ∀ {world : World}, Sound store guild world → world.database.commands[request.key]? = some row →
      Keeps id request Refused world → Keeps id request Refused (World.run store guild world actions) := by
  induction actions with
  | nil => exact fun _ _ keeps => keeps
  | cons action rest ih =>
    intro world sound found keeps
    obtain ⟨after, grows⟩ := sound.step action
    refine ih after (grows.commands _ row found) ?_
    by_cases caller : action.caller = some id
    · exact keeps.refused found actor caller
    · exact keeps.other caller

theorem step_caller [Lowercase] {store : Store} {guild : GuildId} {world : World} {action : Action} {id : Nat}
    (caller : action.caller = some id) {call : Call} (found : world.calls id = some call) :
    world.step store guild action = world.advance store guild id call action := by
  unfold World.step
  rw [caller]
  dsimp only
  rw [found]

theorem calls_setPhase (world : World) (id : Nat) (request : CommandCall) (phase : Phase) :
    (world.setPhase id request phase).calls id = some ⟨request, phase⟩ :=
  Function.update_self _ _ _

/-- Left alone, a redelivery comes to its end: reading the receipt, refreshing, publishing. A step
that does not fit the phase leaves the world as it is. -/
theorem answering_ends [Lowercase] {store : Store} {guild : GuildId} {id : Nat} {request : CommandCall}
    {world : World} (sound : Sound store guild world) {row : CommandRow}
    (found : world.database.commands[request.key]? = some row)
    (actor : row.actorId = toString request.actor.userId) {phase : Phase}
    (present : world.calls id = some ⟨request, phase⟩) (answering : Answering row.response phase)
    (membership : Option MembershipEvidence) (verificationError : Option StoreError) :
    (World.run store guild world [.preflight id none membership verificationError, .refresh id none, .publish id]).calls
        id = some ⟨request, .finished (.ok row.response)⟩ := by
  obtain ⟨state, reader, recorded, _⟩ := sound.recorded
  have replied : receipt world.database request.key request.actor.userId = .ok (some row.response) := by
    rw [receipt_of_row found, if_pos actor]
  have publishing : ∀ {other : World} (view : View),
      other.calls id = some ⟨request, .publishing row.response view⟩ →
      (other.step store guild (.publish id)).calls id = some ⟨request, .finished (.ok row.response)⟩ := by
    intro other view present
    rw [step_caller rfl present]
    exact calls_setPhase other id request _
  have refreshing : ∀ {other : World}, Recorded store guild other.database state reader →
      other.calls id = some ⟨request, .refresh row.response none⟩ →
      ((other.step store guild (.refresh id none)).step store guild (.publish id)).calls id =
        some ⟨request, .finished (.ok row.response)⟩ := by
    intro other recorded present
    rw [step_caller rfl present]
    apply publishing ⟨reader.revision, state⟩
    dsimp only [World.advance]
    rw [calls_setPhase, refreshPhase, recorded.load]
  simp only [World.run, List.foldl_cons, List.foldl_nil]
  cases phase with
  | preflight =>
    rw [step_caller rfl present]
    dsimp only [World.advance]
    rw [preflightPhase, replied]
    exact refreshing recorded (calls_setPhase world id request _)
  | attempt attempt => cases answering
  | refresh response attempt =>
    cases attempt with
    | some attempt => cases answering
    | none =>
      cases answering
      have idle : world.step store guild (.preflight id none membership verificationError) = world :=
        step_caller rfl present
      rw [idle]
      exact refreshing recorded present
  | publishing response view =>
    cases answering
    have idle : world.step store guild (.preflight id none membership verificationError) = world :=
      step_caller rfl present
    have waiting : world.step store guild (.refresh id none) = world := step_caller rfl present
    rw [idle, waiting]
    exact publishing view present
  | finished result =>
    cases result with
    | error error => cases answering
    | ok response =>
      cases answering
      have idle : world.step store guild (.preflight id none membership verificationError) = world :=
        step_caller rfl present
      have waiting : world.step store guild (.refresh id none) = world := step_caller rfl present
      have ended : world.step store guild (.publish id) = world := step_caller rfl present
      rw [idle, waiting, ended]
      exact present

theorem refused_ends [Lowercase] {store : Store} {guild : GuildId} {id : Nat} {request : CommandCall}
    {world : World} {row : CommandRow} (found : world.database.commands[request.key]? = some row)
    (actor : row.actorId ≠ toString request.actor.userId) {phase : Phase}
    (present : world.calls id = some ⟨request, phase⟩) (refused : Refused phase)
    (membership : Option MembershipEvidence) (verificationError : Option StoreError) :
    ∃ error, (world.step store guild (.preflight id none membership verificationError)).calls id =
      some ⟨request, .finished (.error error)⟩ := by
  rw [step_caller rfl present]
  cases phase with
  | preflight =>
    refine ⟨.history "command actor mismatch", ?_⟩
    dsimp only [World.advance]
    rw [preflightPhase, receipt_of_row found, if_neg actor]
    exact calls_setPhase world id request _
  | finished result =>
    cases result with
    | ok response => cases refused
    | error error => exact ⟨error, present⟩
  | _ => cases refused

theorem commit_receipted {world : World} {key : String} {actor : UserId} {early : Prop}
    {committed : Committed} (commits : Commits key actor early world.database committed) {row : CommandRow}
    (found : world.database.commands[key]? = some row) : world.commit key actor committed = world := by
  cases commits with
  | replayed _ _ _ _ recorded _ _ unchanged => exact commit_unrecorded recorded unchanged
  | idle _ unused =>
    rw [unused] at found
    cases found
  | appended _ unused =>
    rw [unused] at found
    cases found

theorem Sound.receipted [Lowercase] {store : Store} {guild : GuildId} {world : World}
    (sound : Sound store guild world) {action : Action} {id : Nat} (caller : action.caller = some id)
    {call : Call} (present : world.calls id = some call) {row : CommandRow}
    (found : world.database.commands[call.request.key]? = some row) :
    (world.step store guild action).database = world.database ∧
      (world.step store guild action).commits = world.commits := by
  rw [step_caller caller present]
  unfold World.advance
  cases action with
  | preflight _ fault membership verificationError =>
    dsimp only
    split <;> exact ⟨rfl, rfl⟩
  | attempt _ acceptedAt ids fault =>
    dsimp only
    split
    · unfold World.transact
      split
      · exact ⟨rfl, rfl⟩
      · rename_i attempt _ _ _
        cases ran : PredictionBot.transact store guild (call.request.delivery attempt acceptedAt ids)
            world.database with
        | error failure => exact ⟨rfl, rfl⟩
        | ok committed =>
          obtain ⟨state, reader, recorded, _⟩ := sound.recorded
          obtain ⟨_, _, _, _, _, commits, _⟩ := transact_recorded recorded ran
          have same : world.commit call.request.key call.request.actor.userId committed = world :=
            commit_receipted commits found
          dsimp only
          rw [same]
          exact ⟨rfl, rfl⟩
    · exact ⟨rfl, rfl⟩
  | refresh _ fault | publish _ =>
    dsimp only
    split <;> exact ⟨rfl, rfl⟩
  | _ => exact ⟨rfl, rfl⟩

theorem transact_idle [Lowercase] {store : Store} {guild : GuildId} {database : Database} {delivery : Delivery}
    (grant : isGrant delivery.command) (unused : database.commands[delivery.key]? = none) {view : View}
    (loaded : load store guild database = .ok view) {decision : Decision}
    (decided : decideCommand store view.state delivery = .ok decision) (empty : decision.events = [])
    {committed : Committed} (ran : transact store guild delivery database = .ok committed) :
    committed.recorded = false ∧ committed.database = database := by
  have absent : receipt database delivery.key delivery.actor.userId = .ok none := by
    rw [receipt, unused]
  unfold transact at ran
  rw [absent, loaded, atStage, Except.mapError, ok_bind] at ran
  dsimp only at ran
  cases verified : delivery.verificationError with
  | some error =>
    rw [verified] at ran
    cases ran
  | none =>
    rw [verified] at ran
    dsimp only at ran
    rw [atStage, Except.mapError, ok_bind] at ran
    rw [decided, ok_bind, if_pos ⟨grant, empty⟩] at ran
    cases ran
    exact ⟨rfl, rfl⟩

theorem grant_leaves_nothing [Lowercase] {store : Store} {guild : GuildId} {world : World} {id : Nat}
    {request : CommandCall} {attempt : Attempt} (present : world.calls id = some ⟨request, .attempt attempt⟩)
    (grant : isGrant request.command) (unused : world.database.commands[request.key]? = none) {view : View}
    (loaded : load store guild world.database = .ok view) {acceptedAt : Int64} {ids : Nat → Uuid}
    {decision : Decision}
    (decided : decideCommand store view.state (request.delivery attempt acceptedAt ids) = .ok decision)
    (empty : decision.events = []) (fault : Option Fault) :
    (world.step store guild (.attempt id acceptedAt ids fault)).database = world.database ∧
      (world.step store guild (.attempt id acceptedAt ids fault)).commits = world.commits := by
  rw [step_caller rfl present]
  dsimp only [World.advance]
  unfold World.transact
  split
  · exact ⟨rfl, rfl⟩
  · cases ran : PredictionBot.transact store guild (request.delivery attempt acceptedAt ids) world.database with
    | error failure => exact ⟨rfl, rfl⟩
    | ok committed =>
      obtain ⟨recorded, unchanged⟩ := transact_idle grant unused loaded decided empty ran
      have same : world.commit request.key request.actor.userId committed = world :=
        commit_unrecorded recorded unchanged
      dsimp only
      rw [same]
      exact ⟨rfl, rfl⟩

theorem toString_userId_inj {left right : UserId} (same : toString left = toString right) : left = right := by
  have values : some left.val = some right.val := by
    rw [← parseU64_toString left.val, ← parseU64_toString right.val]
    exact congrArg parseU64 same
  cases left
  cases right
  cases values
  rfl

theorem Sound.validKey [Lowercase] {store : Store} {guild : GuildId} {world : World}
    (sound : Sound store guild world) {key : String} {row : CommandRow}
    (found : world.database.commands[key]? = some row) {actor : Actor}
    (same : row.actorId = toString actor.userId) : validKey guild key actor := by
  obtain ⟨commit, listed, rfl⟩ := sound.complete key row found
  obtain ⟨stored, present, sender, _⟩ := sound.receipts commit listed
  rw [found] at present
  cases present
  exact sound.keys commit listed actor (toString_userId_inj (same.symm.trans sender))

structure ExactlyOnce [Lowercase] (store : Store) (guild : GuildId) (world : World) : Prop where
  /-- A key commits at most once, its receipt is stored, and the event table holds the commits' events. -/
  distinct : (world.commits.map Commit.key).Nodup
  log : written world.database.events = world.commits.flatMap Commit.log
  receipted : ∀ commit ∈ world.commits, world.database.commands[commit.key]? ≠ none
  receipts : ∀ (key : String) (row : CommandRow), world.database.commands[key]? = some row →
    ∃ commit ∈ world.commits, commit.key = key ∧ row.actorId = toString commit.actor ∧
      row.response = commit.response
  /-- Once a key has its receipt, no step of any call under it writes anything. -/
  quiet : ∀ (action : Action) (id : Nat) (call : Call) (row : CommandRow), action.caller = some id →
    world.calls id = some call → world.database.commands[call.request.key]? = some row →
    (world.step store guild action).database = world.database
  /-- A later delivery by the actor of the receipt can only answer with it, whatever else happens, unless
  one of its own reads fails; left alone for three steps it does answer. -/
  answered : ∀ (request : CommandCall) (row : CommandRow) (later : List Action),
    world.database.commands[request.key]? = some row → row.actorId = toString request.actor.userId →
    (∀ action ∈ later, action.caller = some world.next → action.faulty = false) →
    ∀ call, (World.run store guild (world.deliver guild request) later).calls world.next = some call →
      Answering row.response call.phase ∧
        ∀ membership verificationError,
          (World.run store guild (World.run store guild (world.deliver guild request) later)
            [.preflight world.next none membership verificationError, .refresh world.next none,
              .publish world.next]).calls world.next = some ⟨request, .finished (.ok row.response)⟩
  /-- A later delivery by anyone else can only fail, and does so at its first step. -/
  refused : ∀ (request : CommandCall) (row : CommandRow) (later : List Action),
    world.database.commands[request.key]? = some row → row.actorId ≠ toString request.actor.userId →
    ∀ call, (World.run store guild (world.deliver guild request) later).calls world.next = some call →
      Refused call.phase ∧
        ∀ membership verificationError, ∃ error,
          ((World.run store guild (world.deliver guild request) later).step store guild
            (.preflight world.next none membership verificationError)).calls world.next =
            some ⟨request, .finished (.error error)⟩
  /-- A grant for which nothing is due changes nothing and leaves no receipt. -/
  idle : ∀ (id : Nat) (request : CommandCall) (attempt : Attempt) (acceptedAt : Int64) (ids : Nat → Uuid)
    (fault : Option Fault) (view : View) (decision : Decision),
    world.calls id = some ⟨request, .attempt attempt⟩ → isGrant request.command →
    world.database.commands[request.key]? = none → load store guild world.database = .ok view →
    decideCommand store view.state (request.delivery attempt acceptedAt ids) = .ok decision →
    decision.events = [] →
    (world.step store guild (.attempt id acceptedAt ids fault)).database = world.database
  /-- Whoever is answered is answered from a receipt, or sent a grant. -/
  answers : ∀ (id : Nat) (request : CommandCall) (response : String),
    world.calls id = some ⟨request, .finished (.ok response)⟩ → Answers world.database request response
  /-- The published view shows the projection of some first events of the guild. -/
  published : ∀ view, world.published = some view → Past world.commits view

theorem Sound.exactlyOnce [Lowercase] {store : Store} {guild : GuildId} {world : World}
    (sound : Sound store guild world) : ExactlyOnce store guild world := by
  -- A delivery takes the next free identity, so nobody else's action is its own.
  have delivered : ∀ (request : CommandCall) (good : Phase → Prop),
      good (if PredictionBot.validKey guild request.key request.actor then .preflight
        else .finished (.error (.configuration "invalid guild or command key"))) →
      Keeps world.next request good (world.deliver guild request) := by
    intro request good first
    refine ⟨Nat.lt_succ_self world.next, ?_⟩
    intro call found
    dsimp only [World.deliver] at found
    rw [calls_setPhase] at found
    cases found
    exact ⟨rfl, first⟩
  refine ⟨sound.distinct, sound.log, ?_, ?_, ?_, ?_, ?_, ?_, ?_, sound.published⟩
  · intro commit listed absent
    obtain ⟨row, found, _⟩ := sound.receipts commit listed
    rw [found] at absent
    cases absent
  · intro key row found
    obtain ⟨commit, listed, rfl⟩ := sound.complete key row found
    obtain ⟨stored, present, facts⟩ := sound.receipts commit listed
    rw [found] at present
    cases present
    exact ⟨commit, listed, rfl, facts⟩
  · intro action id call row caller present found
    exact (sound.receipted caller present found).1
  · intro request row later found actor clean call present
    have started := sound.deliver request
    have stored := started.2.commands _ row found
    have valid : PredictionBot.validKey guild request.key request.actor := sound.validKey found actor
    have first := delivered request (Answering row.response) (by rw [if_pos valid]; exact True.intro)
    have kept := first.answering_run actor clean started.1 stored
    obtain ⟨rfl, answering⟩ := kept.2 call present
    obtain ⟨after, grows⟩ := started.1.run later
    refine ⟨answering, ?_⟩
    intro membership verificationError
    exact answering_ends after (grows.commands _ row stored) actor present answering membership verificationError
  · intro request row later found actor call present
    have started := sound.deliver request
    have stored := started.2.commands _ row found
    have first := delivered request Refused (by split <;> exact True.intro)
    have kept := first.refused_run actor later started.1 stored
    obtain ⟨rfl, refused⟩ := kept.2 call present
    obtain ⟨after, grows⟩ := started.1.run later
    refine ⟨refused, ?_⟩
    intro membership verificationError
    exact refused_ends (grows.commands _ row stored) actor present refused membership verificationError
  · intro id request attempt acceptedAt ids fault view decision present grant unused loaded decided empty
    exact (grant_leaves_nothing present grant unused loaded decided empty fault).1
  · intro id request response present
    exact sound.calls id _ present

/-- Deliveries, redeliveries, lost answers, failures and crashes may interleave in any order: a command
takes effect at most once, and is answered as it was the first time. -/
theorem commands_execute_exactly_once [Lowercase] (store : Store) (guild : GuildId) (actions : List Action) :
    ExactlyOnce store guild (World.run store guild {} actions) :=
  ((sound_empty store guild).run actions).1.exactlyOnce

def grantKey (user : UserId) (due : Int64) : String := s!"grant:{user}:{due}"

def systemActor : Actor := ⟨⟨0⟩, false, false⟩

def grantCall (user : UserId) (due : Int64) : CommandCall := ⟨grantKey user due, systemActor, .grant user⟩

/-- A pass over one guild: the accounts it has still to look at, as it read them, and its clock. -/
structure GrantWorker where
  accounts : List (UserId × Account)
  now : Int64

structure Granting where
  world : World := {}
  workers : List GrantWorker := []

/-- Only the workers speak for the system; every other command has a member behind it. -/
def Action.FromMember : Action → Prop
  | .deliver request => request.actor.userId ≠ ⟨0⟩
  | _ => True

inductive GrantAction where
  | store (action : Action) (member : action.FromMember)
  | discover (now : Int64)
  | issue (worker : Nat)

def Granting.discover [Lowercase] (store : Store) (guild : GuildId) (granting : Granting) (now : Int64) : Granting :=
  match load store guild granting.world.database with
  | .error _ => granting
  | .ok view =>
    { world := granting.world.step store guild .view
      workers := granting.workers ++ [⟨view.state.accounts.toList, now⟩] }

def issueGrant (guild : GuildId) (world : World) (now : Int64) (entry : UserId × Account) : World :=
  if entry.2.nextGrant ≤ now then world.deliver guild (grantCall entry.1 entry.2.nextGrant) else world

def Granting.issue (guild : GuildId) (granting : Granting) (worker : Nat) : Granting :=
  match granting.workers[worker]? with
  | none => granting
  | some pass =>
    match pass.accounts with
    | [] => granting
    | entry :: rest =>
      { world := issueGrant guild granting.world pass.now entry
        workers := granting.workers.set worker ⟨rest, pass.now⟩ }

def survivingWorkers (workers : List GrantWorker) : Action → List GrantWorker
  | .crash => []
  | _ => workers

def Granting.step [Lowercase] (store : Store) (guild : GuildId) (granting : Granting) : GrantAction → Granting
  | .store action _ =>
    { world := granting.world.step store guild action
      workers := survivingWorkers granting.workers action }
  | .discover now => granting.discover store guild now
  | .issue worker => granting.issue guild worker

def Granting.run [Lowercase] (store : Store) (guild : GuildId) (granting : Granting)
    (actions : List GrantAction) : Granting :=
  actions.foldl (Granting.step store guild) granting

theorem toList_grantKey (user : UserId) (due : Int64) :
    (grantKey user due).toList =
      "grant:".toList ++ (Nat.toDigits 10 user.val.toNat ++ ':' :: (Int.repr due.toInt).toList) := by
  have digits : (toString user).toList = Nat.toDigits 10 user.val.toNat := toList_toString_u64 user.val
  have boundary : (toString due).toList = (Int.repr due.toInt).toList := rfl
  rw [← digits, ← boundary]
  simp [grantKey]
  rfl

theorem colon_notMem_digits (n : Nat) : ':' ∉ Nat.toDigits 10 n := by
  intro member
  exact absurd (isAsciiDigit_of_mem_toDigits member) (by decide)

theorem colon_notMem_repr (i : Int) : ':' ∉ (Int.repr i).toList := by
  cases i with
  | ofNat n =>
    have digits : (Int.repr (Int.ofNat n)).toList = Nat.toDigits 10 n := Nat.toList_repr
    rw [digits]
    exact colon_notMem_digits n
  | negSucc n =>
    have digits : (Int.repr (Int.negSucc n)).toList = '-' :: Nat.toDigits 10 (n + 1) := by
      simp [Int.repr]
    rw [digits, List.mem_cons, not_or]
    exact ⟨by decide, colon_notMem_digits (n + 1)⟩

theorem grantKey_inj {user user' : UserId} {due due' : Int64} (same : grantKey user due = grantKey user' due') :
    user = user' ∧ due = due' := by
  have split := congrArg String.toList same
  rw [toList_grantKey, toList_grantKey, List.append_cancel_left_eq,
    List.append_cons_inj_of_notMem (colon_notMem_digits _) (colon_notMem_repr _)] at split
  rcases split with ⟨digits, _, boundary⟩
  constructor
  · apply toString_userId_inj
    apply String.toList_inj.mp
    change (toString user.val).toList = (toString user'.val).toList
    rw [toList_toString_u64, toList_toString_u64, digits]
  · exact Int64.toInt_inj.mp (Int.repr_inj.mp (String.toList_inj.mp boundary))

theorem grantKey_system (user : UserId) (due : Int64) :
    "grant:".toList.isPrefixOf (grantKey user due).toList = true := by
  rw [toList_grantKey, List.isPrefixOf_iff_prefix]
  exact List.prefix_append _ _

theorem validKey_member {guild : GuildId} {key : String} {actor : Actor} (valid : validKey guild key actor)
    (member : actor.userId ≠ ⟨0⟩) (user : UserId) (due : Int64) : key ≠ grantKey user due := by
  rintro rfl
  have zero : actor.userId.val ≠ 0 := fun zero => member (congrArg UserId.mk zero)
  unfold validKey at valid
  rw [grantKey_system] at valid
  simp [zero] at valid

end PredictionBot

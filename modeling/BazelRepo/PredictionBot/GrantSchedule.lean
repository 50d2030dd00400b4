import BazelRepo.PredictionBot.ExactlyOnce

namespace PredictionBot

open Library

def State.due (state : State) (user : UserId) : Option Int64 := state.accounts[user]?.map Account.nextGrant

def Event.reschedules : Event → Option (UserId × Int64)
  | .memberEnrolled userId enrolledAt => some (userId, enrolledAt)
  | .pointsGranted userId _ _ _ _ nextGrant => some (userId, nextGrant)
  | _ => none

def Event.periodic : Event → Bool
  | .pointsGranted _ .periodic .. => true
  | _ => false

def Event.grants : Event → Option (UserId × Int64 × Int64)
  | .pointsGranted userId _ _ fromDue throughDue _ => some (userId, fromDue, throughDue)
  | _ => none

theorem due_insert (state : State) (user other : UserId) (account : Account) :
    State.due { state with accounts := state.accounts.insert user account } other =
      if other = user then some account.nextGrant else state.due other := by
  unfold State.due
  dsimp only
  rw [BTreeMap.getElem?_insert_eq]
  split <;> rfl

theorem creditAllocations_due {entries : List Allocation} {accounts result : BTreeMap UserId Account}
    (credited : creditAllocations accounts entries = .ok result) (user : UserId) :
    result[user]?.map Account.nextGrant = accounts[user]?.map Account.nextGrant := by
  induction entries generalizing accounts with
  | nil =>
    cases credited
    rfl
  | cons entry rest ih =>
    rcases bind_eq_ok.mp credited with ⟨middle, first, others⟩
    rcases creditAllocation_eq_ok.mp first with ⟨account, balance, found, _, rfl⟩
    rw [ih others, BTreeMap.getElem?_insert_eq]
    split
    · rename_i same
      rw [same, found]
      rfl
    · rfl

theorem applyGrant_schedule {state result : State} {userId : UserId} {reason : GrantReason} {amount : Points}
    {fromDue throughDue nextGrant : Int64}
    (applied : applyGrant state userId reason amount fromDue throughDue nextGrant = .ok result) :
    state.due userId = some fromDue ∧ fromDue.toInt ≤ throughDue.toInt ∧ throughDue.toInt < nextGrant.toInt := by
  unfold applyGrant positivePolicy at applied
  simp only [bind_eq_ok, reject_eq_ok, okOr_eq_ok, Except.ok.injEq, not_or, not_not, ne_eq, not_lt, not_le,
    Int64.lt_iff_toInt_lt, Int64.le_iff_toInt_le, Int64.toInt_zero] at applied
  rcases applied with ⟨policy, _, _, ⟨⟨_, interval⟩, _⟩, account, found, ⟨same, ordered, _⟩, _, _, _, _, _, _, _,
    following, added, rfl, _⟩
  refine ⟨?_, by omega, ?_⟩
  · rw [State.due, found, same]
    rfl
  · have sum := checkedAdd_eq_some.mp (okOr_eq_ok.mp added)
    omega

theorem applyInner_due [Lowercase] {state result : State} {event : Event}
    (applied : applyInner state event = .ok result) (user : UserId) :
    result.due user = match event.reschedules with
      | some (userId, due) => if user = userId then some due else state.due user
      | none => state.due user := by
  cases event with
  | announcementsEnabled channelId moderator enabledAt =>
    rcases bind_eq_ok.mp applied with ⟨_, _, same⟩
    cases same
    rfl
  | guildEconomyInitialized amount interval =>
    rcases applyInitialization_inv applied with ⟨_, _, _, rfl⟩
    rfl
  | memberEnrolled userId enrolledAt =>
    rcases applyEnrollment_inv applied with ⟨_, _, _, rfl⟩
    exact due_insert state userId user _
  | pointsGranted userId reason amount fromDue throughDue nextGrant =>
    rcases applyGrant_inv applied with ⟨_, _, _, _, _, _, _, rfl⟩
    exact due_insert state userId user _
  | marketCreated id creator question options createdAt closesAt =>
    rcases applyMarketCreation_inv applied with ⟨_, rfl⟩
    rfl
  | betPlaced id userId outcome amount acceptedAt =>
    rcases applyBet_inv applied with ⟨_, account, _, _, _, found, _, _, _, rfl⟩
    refine (due_insert state userId user _).trans ?_
    split
    · rename_i same
      rw [same, State.due, found]
      rfl
    · rfl
  | marketResolved id outcome resolver settledAt payouts refunded =>
    rcases applyResolution_inv applied with ⟨_, _, _, _, _, _, _, credited, rfl⟩
    exact creditAllocations_due credited user
  | marketResolverAdded id userId addedBy addedAt =>
    rcases applyResolverAdded_inv applied with ⟨_, _, _, rfl⟩
    rfl
  | marketResolverRemoved id userId removedBy removedAt =>
    rcases applyResolverRemoved_inv applied with ⟨_, _, _, rfl⟩
    rfl
  | marketCancelled id moderator cancelledAt refunds =>
    rcases applyCancellation_inv applied with ⟨_, _, _, _, _, _, _, credited, rfl⟩
    exact creditAllocations_due credited user

theorem applyInner_forward [Lowercase] {state result : State} {event : Event}
    (applied : applyInner state event = .ok result) {user : UserId} {due : Int64} (scheduled : state.due user = some due) :
    ∃ next, result.due user = some next ∧ due.toInt ≤ next.toInt ∧
      ∀ fromDue throughDue, event.grants = some (user, fromDue, throughDue) →
        fromDue = due ∧ throughDue.toInt < next.toInt := by
  have moved := applyInner_due applied user
  cases event with
  | memberEnrolled userId enrolledAt =>
    rcases applyEnrollment_inv applied with ⟨_, _, absent, _⟩
    have other : user ≠ userId := by
      rintro rfl
      rw [State.due, absent] at scheduled
      cases scheduled
    refine ⟨due, ?_, le_refl _, fun _ _ granted => by cases granted⟩
    rw [moved]
    exact (if_neg other).trans scheduled
  | pointsGranted userId reason amount fromDue throughDue nextGrant =>
    rcases applyGrant_schedule applied with ⟨current, ordered, beyond⟩
    by_cases same : user = userId
    · subst same
      rw [scheduled] at current
      cases current
      refine ⟨nextGrant, moved.trans (if_pos rfl), by omega, ?_⟩
      intro first last granted
      cases granted
      exact ⟨rfl, beyond⟩
    · refine ⟨due, moved.trans ((if_neg same).trans scheduled), le_refl _, ?_⟩
      intro first last granted
      cases granted
      exact absurd rfl same
  | _ => exact ⟨due, moved.trans scheduled, le_refl _, fun _ _ granted => by cases granted⟩

theorem foldlM_due [Lowercase] {events : List Event} {state result : State} {user : UserId}
    (applied : events.foldlM applyInner state = .ok result)
    (others : ∀ event ∈ events, ∀ due, event.reschedules ≠ some (user, due)) : result.due user = state.due user := by
  induction events generalizing state with
  | nil =>
    cases applied
    rfl
  | cons event rest ih =>
    rw [List.foldlM_cons, bind_eq_ok] at applied
    rcases applied with ⟨middle, first, applied⟩
    rw [ih applied fun other member => others other (List.mem_cons_of_mem _ member), applyInner_due first user]
    have apart := others event List.mem_cons_self
    split
    · rename_i userId due sets
      refine if_neg ?_
      rintro rfl
      exact apart due sets
    · rfl

/-- What a member's command may write: no periodic grant, and a boundary only for a member who had none. -/
def Decision.FromMember (decision : Decision) (state : State) : Prop :=
  ∀ event ∈ decision.events, event.periodic = false ∧
    ∀ user due, event.reschedules = some (user, due) → state.due user = none

theorem fromMember_nil (state : State) (response : String) : Decision.FromMember ⟨[], response⟩ state :=
  fun _ member => absurd member List.not_mem_nil

theorem fromMember_single {state : State} {event : Event} {response : String} (periodic : event.periodic = false)
    (still : event.reschedules = none) : Decision.FromMember ⟨[event], response⟩ state := by
  intro other member
  cases List.mem_singleton.mp member
  refine ⟨periodic, fun user due sets => ?_⟩
  rw [still] at sets
  cases sets

theorem decideJoin_fromMember [Lowercase] {state : State} {actor : Actor} {now : Int64} {defaults : Policy}
    {decision : Decision} (decided : decideJoin state actor now defaults = .ok decision) :
    decision.FromMember state := by
  unfold decideJoin at decided
  rcases reject_eq_ok.mp decided with ⟨_, decided⟩
  split at decided
  · rw [(finish_eq_ok decided).1]
    exact fromMember_nil state _
  · rename_i absent
    have unscheduled : state.due actor.userId = none := by
      rw [Std.ExtTreeMap.contains_eq_isSome_getElem?, Option.not_isSome_iff_eq_none] at absent
      rw [State.due, absent]
      rfl
    simp only [bind_eq_ok] at decided
    rcases decided with ⟨_, _, nextGrant, _, decided⟩
    rw [(finish_eq_ok decided).1]
    intro event member
    rcases List.mem_append.mp member with setup | enrolls
    · split at setup
      · cases List.mem_singleton.mp setup
        exact ⟨rfl, fun _ _ sets => by cases sets⟩
      · cases setup
    · simp only [List.mem_cons, List.not_mem_nil, or_false] at enrolls
      rcases enrolls with rfl | rfl
      · exact ⟨rfl, fun _ _ sets => by cases sets; exact unscheduled⟩
      · exact ⟨rfl, fun _ _ sets => by cases sets; exact unscheduled⟩

theorem decideGrant_inv [Lowercase] {state : State} {actor : Actor} {userId : UserId} {now : Int64}
    {decision : Decision} (decided : decideGrant state actor userId now = .ok decision) :
    actor.userId = ⟨0⟩ ∧ ∃ account, state.accounts[userId]? = some account ∧
      ((now < account.nextGrant ∧ decision.events = []) ∨
        (¬ now < account.nextGrant ∧ ∃ amount throughDue nextGrant,
          decision.events = [.pointsGranted userId .periodic amount account.nextGrant throughDue nextGrant])) := by
  unfold decideGrant at decided
  simp only [reject_eq_ok, bind_eq_ok, okOr_eq_ok, not_not, ne_eq] at decided
  rcases decided with ⟨system, policy, _, _, _, account, found, decided⟩
  refine ⟨system, account, found, ?_⟩
  split at decided
  · rename_i early
    exact .inl ⟨early, by rw [(finish_eq_ok decided).1]⟩
  · rename_i due
    simp only [bind_eq_ok] at decided
    rcases decided with ⟨count, _, amount, _, elapsed, _, throughDue, _, nextGrant, _, decided⟩
    exact .inr ⟨due, ⟨amount⟩, throughDue, nextGrant, by rw [(finish_eq_ok decided).1]⟩

theorem decide_fromMember [Lowercase] {state : State} {actor : Actor} {command : Command} {now : Int64}
    {defaults : Policy} {membership : Option MembershipEvidence} {decision : Decision}
    (decided : decideWithMembership state actor command now defaults membership = .ok decision)
    (member : actor.userId ≠ ⟨0⟩) : decision.FromMember state := by
  cases command with
  | join => exact decideJoin_fromMember decided
  | grant userId => exact absurd (decideGrant_inv decided).1 member
  | create id question options closesAt =>
    unfold decideWithMembership decideCreate at decided
    simp only [reject_eq_ok, bind_eq_ok] at decided
    rcases decided with ⟨_, _, _, _, _, _, decided⟩
    rw [(finish_eq_ok decided).1]
    exact fromMember_single rfl rfl
  | bet id outcome amount =>
    unfold decideWithMembership decideBet at decided
    simp only [reject_eq_ok, bind_eq_ok] at decided
    rcases decided with ⟨_, _, _, _, _, _, _, _, _, _, _, _, decided⟩
    rw [(finish_eq_ok decided).1]
    exact fromMember_single rfl rfl
  | resolve id outcome =>
    unfold decideWithMembership decideResolve at decided
    simp only [reject_eq_ok, bind_eq_ok] at decided
    rcases decided with ⟨_, _, _, _, _, _, _, _, _, decided⟩
    rw [(finish_eq_ok decided).1]
    exact fromMember_single rfl rfl
  | addResolver id userId =>
    unfold decideWithMembership decideAddResolver at decided
    simp only [reject_eq_ok, bind_eq_ok] at decided
    rcases decided with ⟨_, _, _, _, _, _, _, decided⟩
    split at decided
    · rw [(finish_eq_ok decided).1]
      exact fromMember_nil state _
    · rw [(finish_eq_ok decided).1]
      exact fromMember_single rfl rfl
  | removeResolver id userId =>
    unfold decideWithMembership decideRemoveResolver at decided
    simp only [reject_eq_ok, bind_eq_ok] at decided
    rcases decided with ⟨_, _, _, _, _, decided⟩
    split at decided
    · rw [(finish_eq_ok decided).1]
      exact fromMember_nil state _
    · rw [(finish_eq_ok decided).1]
      exact fromMember_single rfl rfl
  | cancel id =>
    unfold decideWithMembership decideCancel at decided
    simp only [reject_eq_ok, bind_eq_ok] at decided
    rcases decided with ⟨_, _, _, _, _, _, decided⟩
    rw [(finish_eq_ok decided).1]
    exact fromMember_single rfl rfl

theorem Decision.FromMember.due [Lowercase] {decision : Decision} {state next : State}
    (fromMember : decision.FromMember state) (applied : decision.events.foldlM applyInner state = .ok next)
    {user : UserId} {due : Int64} (scheduled : state.due user = some due) : next.due user = some due := by
  rw [foldlM_due applied, scheduled]
  intro event member other sets
  rw [(fromMember event member).2 user other sets] at scheduled
  cases scheduled

theorem transact_decided [Lowercase] {store : Store} {guild : GuildId} {database : Database} {state : State}
    {reader : Reader} {delivery : Delivery} {committed : Committed}
    (recorded : Recorded store guild database state reader)
    (ran : transact store guild delivery database = .ok committed) (wrote : committed.recorded = true) :
    ∃ decision, decideWithMembership state delivery.actor delivery.command delivery.acceptedAt store.defaults
        delivery.membership = .ok decision ∧ committed.events = decision.events ∧
      ¬ (isGrant delivery.command ∧ decision.events = []) := by
  unfold transact at ran
  rcases bind_eq_ok.mp ran with ⟨found, _, ran⟩
  cases found with
  | some response =>
    cases ran
    cases wrote
  | none =>
    cases verified : delivery.verificationError with
    | some error =>
      rw [verified] at ran
      cases ran
    | none =>
      rw [verified] at ran
      simp only [bind_eq_ok] at ran
      rcases ran with ⟨view, loaded, decision, decided, ran⟩
      rw [atStage, mapError_eq_ok, recorded.load] at loaded
      cases loaded
      split at ran
      · cases ran
        cases wrote
      · rename_i due
        simp only [bind_eq_ok, Except.ok.injEq] at ran
        rcases ran with ⟨_, _, _, _, rfl⟩
        exact ⟨decision, decideCommand_inv decided, rfl, due⟩

/-- A boundary a pass discovered is the current one, or its key has been used up. -/
def Discovered (state : State) (database : Database) (user : UserId) (due : Int64) : Prop :=
  state.due user = some due ∨ ∃ row, database.commands[grantKey user due]? = some row

def Passed (state : State) (user : UserId) (due : Int64) : Prop :=
  ∃ next, state.due user = some next ∧ due.toInt < next.toInt

def Owned (state : State) (database : Database) (request : CommandCall) : Prop :=
  request.actor.userId ≠ ⟨0⟩ ∨ ∃ user due, request = grantCall user due ∧ Discovered state database user due

def KeyedBy (key : String) (events : List Event) : Prop :=
  ∀ event ∈ events, event.periodic = true → ∀ user fromDue throughDue,
    event.grants = some (user, fromDue, throughDue) → key = grantKey user fromDue

def ReceiptsPassed (state : State) (database : Database) : Prop :=
  ∀ user due (row : CommandRow), database.commands[grantKey user due]? = some row → Passed state user due

/-- What a recorded transaction may do to the schedules and to the keys of the workers. -/
structure Moves (state next : State) (before after : Database) (key : String) (events : List Event) : Prop where
  kept : ∀ user due, Discovered state before user due → Discovered next after user due
  keyed : KeyedBy key events
  passed : ReceiptsPassed state before → ReceiptsPassed next after

theorem moves_member [Lowercase] {state next : State} {before after : Database} {key : String} {row : CommandRow}
    {decision : Decision} (fromMember : decision.FromMember state)
    (applied : decision.events.foldlM applyInner state = .ok next)
    (inserted : after.commands = before.commands.insert key row) (apart : ∀ user due, key ≠ grantKey user due) :
    Moves state next before after key decision.events := by
  have same : ∀ user due, after.commands[grantKey user due]? = before.commands[grantKey user due]? := by
    intro user due
    rw [inserted, BTreeMap.getElem?_insert_eq, if_neg (apart user due).symm]
  refine ⟨?_, ?_, ?_⟩
  · intro user due found
    rcases found with current | used
    · exact .inl (fromMember.due applied current)
    · exact .inr (by rw [same]; exact used)
  · intro event member periodic
    rw [(fromMember event member).1] at periodic
    cases periodic
  · intro passed user due row found
    rw [same] at found
    rcases passed user due row found with ⟨current, scheduled, less⟩
    exact ⟨current, fromMember.due applied scheduled, less⟩

theorem moves_grant [Lowercase] {state next : State} {before after : Database} {row : CommandRow} {user : UserId}
    {due throughDue nextGrant : Int64} {amount : Points} {events : List Event}
    (single : events = [.pointsGranted user .periodic amount due throughDue nextGrant])
    (applied : events.foldlM applyInner state = .ok next)
    (inserted : after.commands = before.commands.insert (grantKey user due) row) :
    Moves state next before after (grantKey user due) events := by
  subst single
  rw [List.foldlM_cons, bind_eq_ok] at applied
  rcases applied with ⟨middle, granted, same⟩
  cases same
  have forward := applyGrant_schedule granted
  have used : after.commands[grantKey user due]? = some row := by
    rw [inserted, BTreeMap.getElem?_insert_eq, if_pos rfl]
  refine ⟨?_, ?_, ?_⟩
  · intro other boundary found
    by_cases same : grantKey other boundary = grantKey user due
    · exact .inr ⟨row, by rw [same]; exact used⟩
    · rcases found with current | ⟨stored, found⟩
      · have apart : other ≠ user := by
          rintro rfl
          rw [forward.1] at current
          cases current
          exact same rfl
        exact .inl ((applyInner_due granted other).trans ((if_neg apart).trans current))
      · refine .inr ⟨stored, ?_⟩
        rw [inserted, BTreeMap.getElem?_insert_eq, if_neg same]
        exact found
  · intro event member _ other fromDue last covers
    cases List.mem_singleton.mp member
    cases covers
    rfl
  · intro passed other boundary stored found
    by_cases same : grantKey other boundary = grantKey user due
    · rcases grantKey_inj same with ⟨rfl, rfl⟩
      refine ⟨nextGrant, (applyInner_due granted other).trans (if_pos rfl), ?_⟩
      omega
    · rw [inserted, BTreeMap.getElem?_insert_eq, if_neg same] at found
      rcases passed other boundary stored found with ⟨current, scheduled, less⟩
      rcases applyInner_forward granted scheduled with ⟨later, moved, ordered, _⟩
      exact ⟨later, moved, by omega⟩

theorem transact_moves [Lowercase] {store : Store} {guild : GuildId} {database : Database} {state next : State}
    {reader : Reader} {request : CommandCall} {attempt : Attempt} {acceptedAt : Int64} {ids : Nat → Uuid}
    {committed : Committed} {row : CommandRow} (recorded : Recorded store guild database state reader)
    (owned : Owned state database request) (valid : validKey guild request.key request.actor)
    (ran : transact store guild (request.delivery attempt acceptedAt ids) database = .ok committed)
    (wrote : committed.recorded = true) (applied : committed.events.foldlM apply state = .ok next)
    (unused : database.commands[request.key]? = none)
    (inserted : committed.database.commands = database.commands.insert request.key row) :
    Moves state next database committed.database request.key committed.events := by
  rcases transact_decided recorded ran wrote with ⟨decision, decided, events, due⟩
  rw [events] at applied ⊢
  rcases owned with member | ⟨user, boundary, rfl, found⟩
  · exact moves_member (decide_fromMember decided member) applied inserted (validKey_member valid member)
  · have current : state.due user = some boundary := by
      rcases found with current | ⟨stored, used⟩
      · exact current
      · change database.commands[grantKey user boundary]? = none at unused
        rw [unused] at used
        cases used
    rcases decideGrant_inv decided with ⟨_, account, enrolled, ⟨_, none⟩ | ⟨_, amount, throughDue, nextGrant, single⟩⟩
    · exact absurd ⟨rfl, none⟩ due
    · have same : account.nextGrant = boundary := by
        rw [State.due, enrolled] at current
        exact Option.some.inj current
      rw [same] at single
      exact moves_grant single applied inserted

theorem configure_moves {guild : GuildId} {configuration : Configuration} {state : State} {before after : Database}
    {row : CommandRow} (valid : validateConfigurationRequest guild configuration = .ok ())
    (inserted : after.commands = before.commands.insert configuration.key row) (welcome : Option ChannelId) :
    Moves state state before after configuration.key (welcomeEvents configuration welcome) := by
  have human : configuration.actor.userId ≠ ⟨0⟩ := fun system =>
    (validateConfigurationRequest_inv valid).1 (congrArg UserId.val system)
  have key : validKey guild configuration.key configuration.actor := validKey_configuration valid rfl
  have apart := validKey_member key human
  have same : ∀ user due, after.commands[grantKey user due]? = before.commands[grantKey user due]? := by
    intro user due
    rw [inserted, BTreeMap.getElem?_insert_eq, if_neg (apart user due).symm]
  refine ⟨?_, ?_, ?_⟩
  · intro user due found
    rcases found with current | used
    · exact .inl current
    · exact .inr (by rw [same]; exact used)
  · intro event member periodic
    cases welcome with
    | none => cases member
    | some channelId =>
      cases List.mem_singleton.mp member
      cases periodic
  · intro passed user due row found
    rw [same] at found
    exact passed user due row found

theorem Owned.moves {state next : State} {before after : Database} {key : String} {events : List Event}
    {request : CommandCall} (owned : Owned state before request) (moves : Moves state next before after key events) :
    Owned next after request := by
  rcases owned with member | ⟨user, due, same, found⟩
  · exact .inl member
  · exact .inr ⟨user, due, same, moves.kept user due found⟩

theorem configureAnnouncements_welcome {store : Store} {guild : GuildId} {configuration : Configuration}
    {database : Database} {committed : Committed}
    (ran : configureAnnouncements store guild configuration database = .ok committed)
    (wrote : committed.recorded = true) :
    validateConfigurationRequest guild configuration = .ok () ∧
      ∃ welcome, committed.events = welcomeEvents configuration welcome := by
  unfold configureAnnouncements at ran
  rcases bind_eq_ok.mp ran with ⟨_, valid, ran⟩
  rcases bind_eq_ok.mp ran with ⟨found, _, ran⟩
  refine ⟨valid, ?_⟩
  cases found with
  | some response =>
    cases ran
    cases wrote
  | none =>
    simp only [bind_eq_ok, Except.ok.injEq] at ran
    rcases ran with ⟨_, _, _, _, _, _, rfl⟩
    exact ⟨_, rfl⟩

section Runs

variable [Lowercase] {store : Store} {guild : GuildId}

/-- Keys, receipts, calls and passes agree with the schedules of the guild. -/
structure Timely (store : Store) (guild : GuildId) (state : State) (reader : Reader) (world : World)
    (workers : List GrantWorker) : Prop where
  recorded : Recorded store guild world.database state reader
  events : reader.events = committedEvents world.commits
  keyed : ∀ commit ∈ world.commits, KeyedBy commit.key commit.events
  passed : ReceiptsPassed state world.database
  calls : ∀ id call, world.calls id = some call → Owned state world.database call.request
  workers : ∀ worker ∈ workers, ∀ entry ∈ worker.accounts,
    Discovered state world.database entry.1 entry.2.nextGrant

theorem Timely.setPhase {state : State} {reader : Reader} {world : World} {workers : List GrantWorker}
    (timely : Timely store guild state reader world workers) {request : CommandCall}
    (owned : Owned state world.database request) (id : Nat) (phase : Phase) :
    Timely store guild state reader (world.setPhase id request phase) workers := by
  refine { timely with calls := ?_ }
  intro other call found
  by_cases same : other = id
  · subst same
    rw [calls_setPhase] at found
    cases found
    exact owned
  · rw [setPhase_other same] at found
    exact timely.calls other call found

theorem Timely.withWorkers {state : State} {reader : Reader} {world : World} {workers others : List GrantWorker}
    (timely : Timely store guild state reader world workers)
    (known : ∀ worker ∈ others, ∀ entry ∈ worker.accounts,
      Discovered state world.database entry.1 entry.2.nextGrant) :
    Timely store guild state reader world others :=
  { timely with workers := known }

theorem Timely.commit {state next : State} {reader result : Reader} {world : World} {workers : List GrantWorker}
    (timely : Timely store guild state reader world workers) {key : String} {actor : UserId} {committed : Committed}
    (recorded : Recorded store guild committed.database next result)
    (prolonged : result.events = reader.events ++ committed.events) (wrote : committed.recorded = true)
    (moves : Moves state next world.database committed.database key committed.events) :
    Timely store guild next result (world.commit key actor committed) workers := by
  have list : (world.commit key actor committed).commits =
      world.commits ++ [⟨key, actor, committed.response, committed.events⟩] := by
    simp [World.commit, wrote]
  refine ⟨recorded, ?_, ?_, moves.passed timely.passed, ?_, ?_⟩
  · rw [list, prolonged, timely.events]
    simp [committedEvents]
  · intro commit member
    rw [list] at member
    rcases List.mem_append.mp member with earlier | latest
    · exact timely.keyed commit earlier
    · cases List.mem_singleton.mp latest
      exact moves.keyed
  · intro id call found
    exact (timely.calls id call found).moves moves
  · intro worker member entry listed
    exact moves.kept _ _ (timely.workers worker member entry listed)

def OnTime (store : Store) (guild : GuildId) (world : World) (workers : List GrantWorker) : Prop :=
  ∃ state reader, Timely store guild state reader world workers

theorem onTime_transact {world : World} {workers : List GrantWorker} (sound : Sound store guild world)
    (onTime : OnTime store guild world workers) {id : Nat} {call : Call} (found : world.calls id = some call)
    {attempt : Attempt} (phase : call.phase = .attempt attempt) (acceptedAt : Int64) (ids : Nat → Uuid)
    (fault : Option Fault) :
    OnTime store guild (world.transact store guild id call.request attempt acceptedAt ids fault) workers := by
  rcases onTime with ⟨state, reader, timely⟩
  have owned := timely.calls id call found
  have valid : validKey guild call.request.key call.request.actor := by
    have known := sound.calls id call found
    rw [phase] at known
    exact known
  unfold World.transact
  split
  · exact ⟨state, reader, timely.setPhase owned id _⟩
  · cases ran : PredictionBot.transact store guild (call.request.delivery attempt acceptedAt ids) world.database with
    | error failure => exact ⟨state, reader, timely.setPhase owned id _⟩
    | ok committed =>
      rcases transact_recorded timely.recorded ran with ⟨next, result, recorded, prolonged, applied, commits, _⟩
      dsimp only
      cases commits with
      | replayed _ _ _ _ unrecorded _ _ unchanged | idle _ _ unrecorded _ _ unchanged =>
        rw [commit_unrecorded unrecorded unchanged]
        exact ⟨state, reader, timely.setPhase owned id _⟩
      | appended row unused _ _ wrote inserted _ =>
        have moves := transact_moves timely.recorded owned valid ran wrote applied unused inserted
        exact ⟨next, result, (timely.commit recorded prolonged wrote moves).setPhase (owned.moves moves) id _⟩

theorem onTime_configure {world : World} {workers : List GrantWorker} (onTime : OnTime store guild world workers)
    (configuration : Configuration) : OnTime store guild (world.configure store guild configuration) workers := by
  rcases onTime with ⟨state, reader, timely⟩
  unfold World.configure
  cases ran : configureAnnouncements store guild configuration world.database with
  | error error => exact ⟨state, reader, timely⟩
  | ok committed =>
    dsimp only
    rcases configureAnnouncements_recorded timely.recorded ran with ⟨result, recorded, prolonged, commits⟩
    cases commits with
    | replayed _ _ _ _ unrecorded _ _ unchanged =>
      rw [commit_unrecorded unrecorded unchanged]
      exact ⟨state, reader, timely⟩
    | idle early => exact early.elim
    | appended row _ _ _ wrote inserted _ =>
      rcases configureAnnouncements_welcome ran wrote with ⟨valid, welcome, events⟩
      have moves : Moves state state world.database committed.database configuration.key committed.events := by
        rw [events]
        exact configure_moves valid inserted welcome
      exact ⟨state, result, timely.commit recorded prolonged wrote moves⟩

theorem onTime_advance {world : World} {workers : List GrantWorker} (sound : Sound store guild world)
    (onTime : OnTime store guild world workers) {id : Nat} {call : Call} (found : world.calls id = some call)
    (action : Action) : OnTime store guild (world.advance store guild id call action) workers := by
  have phased : ∀ phase, OnTime store guild (world.setPhase id call.request phase) workers := by
    intro phase
    rcases onTime with ⟨state, reader, timely⟩
    exact ⟨state, reader, timely.setPhase (timely.calls id call found) id phase⟩
  unfold World.advance
  cases action with
  | preflight _ fault membership verificationError =>
    dsimp only
    split
    · exact phased _
    · exact onTime
  | attempt _ acceptedAt ids fault =>
    dsimp only
    split
    · rename_i attempt phase
      exact onTime_transact sound onTime found phase acceptedAt ids fault
    · exact onTime
  | refresh _ fault =>
    dsimp only
    split
    · exact phased _
    · exact onTime
  | publish _ =>
    dsimp only
    split
    · rename_i response view _
      rcases phased (.finished (.ok response)) with ⟨state, reader, timely⟩
      exact ⟨state, reader, { timely with }⟩
    · exact onTime
  | _ => exact onTime

theorem onTime_deliver {world : World} {workers : List GrantWorker} {state : State} {reader : Reader}
    (timely : Timely store guild state reader world workers) {request : CommandCall}
    (owned : Owned state world.database request) : OnTime store guild (world.deliver guild request) workers := by
  have phased := timely.setPhase owned world.next (if validKey guild request.key request.actor then .preflight
    else .finished (.error (.configuration "invalid guild or command key")))
  exact ⟨state, reader, { phased with }⟩

theorem onTime_step {world : World} {workers : List GrantWorker} (sound : Sound store guild world)
    (onTime : OnTime store guild world workers) {action : Action} (member : action.FromMember) :
    OnTime store guild (world.step store guild action) workers := by
  unfold World.step
  cases caller : action.caller with
  | some id =>
    dsimp only
    cases found : world.calls id with
    | none => exact onTime
    | some call => exact onTime_advance sound onTime found action
  | none =>
    dsimp only
    rcases onTime with ⟨state, reader, timely⟩
    cases action with
    | deliver request => exact onTime_deliver timely (.inl member)
    | configure configuration => exact onTime_configure ⟨state, reader, timely⟩ configuration
    | view =>
      dsimp only
      rw [timely.recorded.load]
      exact ⟨state, reader, { timely with }⟩
    | publishLoaded index =>
      dsimp only
      split
      · exact ⟨state, reader, { timely with }⟩
      · exact ⟨state, reader, timely⟩
    | crash => exact ⟨state, reader, { timely with calls := fun _ _ found => by cases found }⟩
    | _ => cases caller

def Granting.Inv (store : Store) (guild : GuildId) (granting : Granting) : Prop :=
  Sound store guild granting.world ∧ OnTime store guild granting.world granting.workers

theorem Granting.Inv.discover {granting : Granting} (inv : granting.Inv store guild) (now : Int64) :
    (granting.discover store guild now).Inv store guild := by
  rcases inv with ⟨sound, state, reader, timely⟩
  have shown : granting.world.step store guild .view =
      { granting.world with loaded := granting.world.loaded ++ [⟨reader.revision, state⟩] } := by
    unfold World.step
    dsimp only [Action.caller]
    rw [timely.recorded.load]
  unfold Granting.discover
  rw [timely.recorded.load]
  refine ⟨(sound.step .view).1, state, reader, ?_⟩
  dsimp only
  rw [shown]
  refine { timely with workers := ?_ }
  intro worker member entry listed
  rcases List.mem_append.mp member with earlier | latest
  · exact timely.workers worker earlier entry listed
  · cases List.mem_singleton.mp latest
    refine .inl ?_
    rw [State.due, BTreeMap.mem_toList.mp listed]
    rfl

theorem Granting.Inv.issue {granting : Granting} (inv : granting.Inv store guild) (worker : Nat) :
    (granting.issue guild worker).Inv store guild := by
  rcases inv with ⟨sound, state, reader, timely⟩
  unfold Granting.issue
  cases found : granting.workers[worker]? with
  | none => exact ⟨sound, state, reader, timely⟩
  | some pass =>
    dsimp only
    have member := List.mem_of_getElem? found
    cases accounts : pass.accounts with
    | nil => exact ⟨sound, state, reader, timely⟩
    | cons entry rest =>
      dsimp only
      have discovered := timely.workers pass member
      rw [accounts] at discovered
      have remaining : Timely store guild state reader granting.world
          (granting.workers.set worker ⟨rest, pass.now⟩) := by
        apply timely.withWorkers
        intro other present item listed
        rcases List.mem_or_eq_of_mem_set present with earlier | rfl
        · exact timely.workers other earlier item listed
        · exact discovered item (List.mem_cons_of_mem _ listed)
      unfold issueGrant
      split
      · exact ⟨(sound.deliver _).1, onTime_deliver remaining
          (.inr ⟨entry.1, entry.2.nextGrant, rfl, discovered entry List.mem_cons_self⟩)⟩
      · exact ⟨sound, state, reader, remaining⟩

theorem Granting.Inv.step {granting : Granting} (inv : granting.Inv store guild) (action : GrantAction) :
    (granting.step store guild action).Inv store guild := by
  cases action with
  | store action member =>
    refine ⟨(inv.1.step action).1, ?_⟩
    rcases onTime_step inv.1 inv.2 member with ⟨state, reader, timely⟩
    refine ⟨state, reader, timely.withWorkers ?_⟩
    intro worker survives
    cases action with
    | crash => cases survives
    | _ => exact timely.workers worker survives
  | discover now => exact inv.discover now
  | issue worker => exact inv.issue worker

theorem Granting.Inv.run {granting : Granting} (inv : granting.Inv store guild) (actions : List GrantAction) :
    (granting.run store guild actions).Inv store guild := by
  induction actions generalizing granting with
  | nil => exact inv
  | cons action rest ih => exact ih (inv.step action)

theorem granting_inv_empty (store : Store) (guild : GuildId) : Granting.Inv store guild {} := by
  refine ⟨sound_empty store guild, {}, {}, recorded_empty store guild, rfl, ?_, ?_, ?_, ?_⟩
  · intro commit member
    cases member
  · intro user due row found
    simp at found
  · intro id call found
    cases found
  · intro worker member
    cases member

end Runs

end PredictionBot

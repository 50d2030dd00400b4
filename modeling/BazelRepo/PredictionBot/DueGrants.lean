import BazelRepo.PredictionBot.GrantSchedule

namespace PredictionBot

open Library

/-- Whoever has a schedule is a member of an economy with a working policy. -/
structure State.Founded (state : State) : Prop where
  policy : ∀ policy, state.policy = some policy → 0 < policy.amount.toInt ∧ 0 < policy.interval.toInt
  member : ∀ user due, state.due user = some due → (∃ policy, state.policy = some policy) ∧ user ≠ ⟨0⟩

theorem applyInner_policy [Lowercase] {state result : State} {event : Event}
    (applied : applyInner state event = .ok result) :
    result.policy = state.policy ∨ state.policy = none ∧ ∃ policy, result.policy = some policy ∧
      0 < policy.amount.toInt ∧ 0 < policy.interval.toInt := by
  cases event with
  | announcementsEnabled channelId moderator enabledAt =>
    rcases bind_eq_ok.mp applied with ⟨_, _, same⟩
    cases same
    exact .inl rfl
  | guildEconomyInitialized amount interval =>
    rcases applyInitialization_inv applied with ⟨amount, interval, fresh, rfl⟩
    exact .inr ⟨fresh, _, rfl, amount, interval⟩
  | memberEnrolled userId enrolledAt =>
    rcases applyEnrollment_inv applied with ⟨_, _, _, rfl⟩
    exact .inl rfl
  | pointsGranted userId reason amount fromDue throughDue nextGrant =>
    rcases applyGrant_inv applied with ⟨_, _, _, _, _, _, _, rfl⟩
    exact .inl rfl
  | marketCreated id creator question options createdAt closesAt =>
    rcases applyMarketCreation_inv applied with ⟨_, rfl⟩
    exact .inl rfl
  | betPlaced id userId outcome amount acceptedAt =>
    rcases applyBet_inv applied with ⟨_, _, _, _, _, _, _, _, _, rfl⟩
    exact .inl rfl
  | marketResolved id outcome resolver settledAt payouts refunded =>
    rcases applyResolution_inv applied with ⟨_, _, _, _, _, _, _, _, rfl⟩
    exact .inl rfl
  | marketResolverAdded id userId addedBy addedAt =>
    rcases applyResolverAdded_inv applied with ⟨_, _, _, rfl⟩
    exact .inl rfl
  | marketResolverRemoved id userId removedBy removedAt =>
    rcases applyResolverRemoved_inv applied with ⟨_, _, _, rfl⟩
    exact .inl rfl
  | marketCancelled id moderator cancelledAt refunds =>
    rcases applyCancellation_inv applied with ⟨_, _, _, _, _, _, _, _, rfl⟩
    exact .inl rfl

theorem applyInner_member [Lowercase] {state result : State} {event : Event} (founded : state.Founded)
    (applied : applyInner state event = .ok result) {user : UserId} {due : Int64}
    (sets : event.reschedules = some (user, due)) : (∃ policy, state.policy = some policy) ∧ user ≠ ⟨0⟩ := by
  cases event with
  | memberEnrolled userId enrolledAt =>
    cases sets
    rcases applyEnrollment_inv applied with ⟨human, configured, _⟩
    exact ⟨Option.ne_none_iff_exists'.mp configured, human⟩
  | pointsGranted userId reason amount fromDue throughDue nextGrant =>
    cases sets
    exact founded.member _ _ (applyGrant_schedule applied).1
  | _ => cases sets

theorem State.Founded.applyInner [Lowercase] {state result : State} {event : Event} (founded : state.Founded)
    (applied : applyInner state event = .ok result) : result.Founded := by
  have policy := applyInner_policy applied
  have kept : (∃ policy, state.policy = some policy) → ∃ policy, result.policy = some policy := by
    rintro ⟨current, found⟩
    rcases policy with same | ⟨fresh, _⟩
    · exact ⟨current, same.trans found⟩
    · rw [fresh] at found
      cases found
  refine ⟨?_, ?_⟩
  · intro current found
    rcases policy with same | ⟨_, created, set, positive⟩
    · exact founded.policy current (same.symm.trans found)
    · rw [set] at found
      cases found
      exact positive
  · intro user due scheduled
    rw [applyInner_due applied user] at scheduled
    split at scheduled
    · rename_i userId boundary sets
      split at scheduled
      · rename_i same
        subst same
        rcases applyInner_member founded applied sets with ⟨configured, human⟩
        exact ⟨kept configured, human⟩
      · rcases founded.member user due scheduled with ⟨configured, human⟩
        exact ⟨kept configured, human⟩
    · rcases founded.member user due scheduled with ⟨configured, human⟩
      exact ⟨kept configured, human⟩

theorem replay_founded [Lowercase] {events : List Event} {state : State} (replayed : replay events = .ok state) :
    state.Founded := by
  refine foldlM_invariant (P := State.Founded) ?_ events {} state ?_ replayed
  · intro s event s' founded applied
    exact founded.applyInner applied
  · refine ⟨?_, ?_⟩
    · intro policy found
      cases found
    · intro user due scheduled
      simp [State.due] at scheduled

/-- No boundary of a member is granted twice: what a later event grants lies beyond what an earlier one did. -/
def Ascending (events : List Event) : Prop :=
  events.Pairwise fun earlier later => ∀ user first last first' last',
    earlier.grants = some (user, first, last) → later.grants = some (user, first', last') → last.toInt < first'.toInt

/-- The events so far ascend, and every schedule has moved past what they granted. -/
def Spent (events : List Event) (state : State) : Prop :=
  Ascending events ∧ ∀ event ∈ events, ∀ user first last,
    event.grants = some (user, first, last) → Passed state user last

theorem Spent.applyInner [Lowercase] {done : List Event} {event : Event} {state result : State}
    (spent : Spent done state) (applied : applyInner state event = .ok result) : Spent (done ++ [event]) result := by
  rcases spent with ⟨ascending, passed⟩
  refine ⟨?_, ?_⟩
  · refine List.pairwise_append.mpr ⟨ascending, List.pairwise_singleton _ _, ?_⟩
    intro earlier member later single user first last first' last' before after
    cases List.mem_singleton.mp single
    rcases passed earlier member user first last before with ⟨next, scheduled, less⟩
    rcases applyInner_forward applied scheduled with ⟨_, _, _, covers⟩
    rw [(covers first' last' after).1]
    exact less
  · intro other member user first last granted
    rcases List.mem_append.mp member with earlier | latest
    · rcases passed other earlier user first last granted with ⟨next, scheduled, less⟩
      rcases applyInner_forward applied scheduled with ⟨later, moved, ordered, _⟩
      exact ⟨later, moved, by omega⟩
    · cases List.mem_singleton.mp latest
      cases event with
      | pointsGranted userId reason amount fromDue throughDue nextGrant =>
        cases granted
        exact ⟨nextGrant, (applyInner_due applied _).trans (if_pos rfl), (applyGrant_schedule applied).2.2⟩
      | _ => cases granted

theorem replay_ascending [Lowercase] {events : List Event} {state : State} (replayed : replay events = .ok state) :
    Ascending events := by
  have initial : Spent [] {} := ⟨List.Pairwise.nil, fun _ member => absurd member List.not_mem_nil⟩
  have spent := foldlM_prefix (P := Spent) initial
    (fun done event rest s s' (_ : events = done ++ event :: rest) holds applied => Spent.applyInner holds applied)
  exact (spent.1 state replayed).1

theorem checkedAdd_total (a b : Int64) :
    checkedAdd a b = .error .overflow ∨ ∃ c, checkedAdd a b = .ok c ∧ c.toInt = a.toInt + b.toInt := by
  unfold checkedAdd
  cases computed : Library.checkedAdd a b with
  | none => exact .inl rfl
  | some c => exact .inr ⟨c, rfl, checkedAdd_eq_some.mp computed⟩

theorem checkedMul_total (a b : Int64) :
    checkedMul a b = .error .overflow ∨ ∃ c, checkedMul a b = .ok c ∧ c.toInt = a.toInt * b.toInt := by
  unfold checkedMul
  cases computed : Library.checkedMul a b with
  | none => exact .inl rfl
  | some c => exact .inr ⟨c, rfl, checkedMul_eq_some.mp computed⟩

theorem applyGrant_eq {state : State} {userId : UserId} {policy : Policy} {account : Account}
    {amount throughDue nextGrant count : Int64} (configured : state.policy = some policy)
    (amountPositive : 0 < policy.amount.toInt) (intervalPositive : 0 < policy.interval.toInt)
    (found : state.accounts[userId]? = some account) (periods : 1 ≤ count.toInt)
    (total : amount.toInt = policy.amount.val.toInt * count.toInt)
    (through : throughDue.toInt = account.nextGrant.toInt + policy.interval.toInt * (count.toInt - 1))
    (next : nextGrant.toInt = throughDue.toInt + policy.interval.toInt) :
    applyGrant state userId .periodic ⟨amount⟩ account.nextGrant throughDue nextGrant =
      (checkedPointsAdd account.balance ⟨amount⟩).map fun balance =>
        { state with accounts := state.accounts.insert userId ⟨balance, nextGrant⟩ } := by
  have positive : positivePolicy policy = .ok () := by
    unfold positivePolicy
    rw [if_neg]
    simp only [Int64.le_iff_toInt_le, Int64.toInt_zero, not_or, not_le]
    exact ⟨amountPositive, intervalPositive⟩
  have distance : throughDue.toInt - account.nextGrant.toInt = policy.interval.toInt * (count.toInt - 1) := by
    omega
  have scheduled : ¬ (account.nextGrant ≠ account.nextGrant ∨ throughDue < account.nextGrant ∨ amount ≤ 0) := by
    have forward : 0 ≤ policy.interval.toInt * (count.toInt - 1) := by
      apply Int.mul_nonneg <;> omega
    have granted : 0 < policy.amount.val.toInt * count.toInt := by
      apply Int.mul_pos amountPositive
      omega
    simp only [ne_eq, not_true_eq_false, false_or, Int64.lt_iff_toInt_lt, Int64.le_iff_toInt_le,
      Int64.toInt_zero]
    omega
  have aligned : ¬ (throughDue.toInt - account.nextGrant.toInt).tmod policy.interval.toInt ≠ 0 := by
    rw [distance, Int.mul_tmod_right]
    exact not_not.mpr rfl
  have counted : tryFrom ((throughDue.toInt - account.nextGrant.toInt).tdiv policy.interval.toInt + 1) = some count := by
    rw [tryFrom_eq_some, distance, Int.mul_tdiv_cancel_left _ (by omega)]
    omega
  have due : checkedMul policy.amount.val count = .ok amount := by
    rw [checkedMul, checkedMul_eq_some.mpr total]
    rfl
  have following : checkedAdd throughDue policy.interval = .ok nextGrant := by
    rw [checkedAdd, checkedAdd_eq_some.mpr next]
    rfl
  unfold applyGrant
  simp only [configured, positive, found, okOr, ok_bind, if_neg scheduled, if_neg aligned, counted, due, following]
  cases checkedPointsAdd account.balance ⟨amount⟩ <;> simp [Except.map]

theorem applyGrant_total {state : State} {userId : UserId} {policy : Policy} {account : Account}
    {amount throughDue nextGrant count : Int64} (configured : state.policy = some policy)
    (amountPositive : 0 < policy.amount.toInt) (intervalPositive : 0 < policy.interval.toInt)
    (found : state.accounts[userId]? = some account) (periods : 1 ≤ count.toInt)
    (total : amount.toInt = policy.amount.val.toInt * count.toInt)
    (through : throughDue.toInt = account.nextGrant.toInt + policy.interval.toInt * (count.toInt - 1))
    (next : nextGrant.toInt = throughDue.toInt + policy.interval.toInt) :
    applyGrant state userId .periodic ⟨amount⟩ account.nextGrant throughDue nextGrant = .error .overflow ∨
      ∃ result, applyGrant state userId .periodic ⟨amount⟩ account.nextGrant throughDue nextGrant = .ok result := by
  rw [applyGrant_eq configured amountPositive intervalPositive found periods total through next]
  rcases checkedAdd_total account.balance.val amount with overflow | ⟨balance, added, _⟩
  · left
    simp [checkedPointsAdd, overflow, Except.map]
  · right
    simp [checkedPointsAdd, added, Except.map]

theorem decideGrant_total [Lowercase] {state : State} {user : UserId} {due now : Int64} (founded : state.Founded)
    (scheduled : state.due user = some due) (reached : due ≤ now) :
    decideGrant state systemActor user now = .error .overflow ∨ ∃ amount throughDue nextGrant response,
      decideGrant state systemActor user now =
          .ok ⟨[.pointsGranted user .periodic amount due throughDue nextGrant], response⟩ ∧
        throughDue ≤ now := by
  rcases Option.map_eq_some_iff.mp scheduled with ⟨account, found, rfl⟩
  rcases (founded.member user _ scheduled).1 with ⟨policy, configured⟩
  rcases founded.policy policy configured with ⟨amountPositive, intervalPositive⟩
  have positive : positivePolicy policy = .ok () := by
    unfold positivePolicy
    rw [if_neg]
    simp only [Int64.le_iff_toInt_le, Int64.toInt_zero, not_or, not_le]
    exact ⟨amountPositive, intervalPositive⟩
  rw [Int64.le_iff_toInt_le] at reached
  have ready : ¬ now < account.nextGrant := by
    rw [Int64.lt_iff_toInt_lt]
    omega
  have elapsed : 0 ≤ now.toInt - account.nextGrant.toInt := by omega
  have periods : 0 ≤ (now.toInt - account.nextGrant.toInt).tdiv policy.interval.toInt :=
    Int.tdiv_nonneg elapsed (by omega)
  have spanned : policy.interval.toInt * (now.toInt - account.nextGrant.toInt).tdiv policy.interval.toInt ≤
      now.toInt - account.nextGrant.toInt := by
    rw [Int.tdiv_eq_ediv_of_nonneg elapsed]
    exact Int.mul_ediv_self_le (by omega)
  unfold decideGrant
  simp only [systemActor, ne_eq, not_true_eq_false, if_false, configured, positive, found, okOr, ok_bind,
    if_neg ready]
  cases counted : tryFrom ((now.toInt - account.nextGrant.toInt).tdiv policy.interval.toInt + 1) with
  | none => exact .inl rfl
  | some count =>
    have number := tryFrom_eq_some.mp counted
    have earlier : (count - 1).toInt = count.toInt - 1 := toInt_sub_of_bounds (by decide) (by
      rw [show (1 : Int64).toInt = 1 from rfl]
      omega)
    rcases checkedMul_total policy.amount.val count with overflow | ⟨amount, computed, total⟩
    · exact .inl (by rw [ok_bind, overflow, error_bind])
    rcases checkedMul_total policy.interval (count - 1) with overflow | ⟨span, measured, width⟩
    · exact .inl (by rw [ok_bind, computed, ok_bind, overflow, error_bind])
    rcases checkedAdd_total account.nextGrant span with overflow | ⟨throughDue, reaches, through⟩
    · exact .inl (by rw [ok_bind, computed, ok_bind, measured, ok_bind, overflow, error_bind])
    rcases checkedAdd_total throughDue policy.interval with overflow | ⟨nextGrant, follows, next⟩
    · exact .inl (by rw [ok_bind, computed, ok_bind, measured, ok_bind, reaches, ok_bind, overflow, error_bind])
    rw [width, earlier] at through
    rw [ok_bind, computed, ok_bind, measured, ok_bind, reaches, ok_bind, follows, ok_bind, finish,
      List.foldlM_cons, applyInner]
    rcases applyGrant_total configured amountPositive intervalPositive found (by omega) total through next with
      overflow | ⟨result, applied⟩
    · exact .inl (by rw [overflow, error_bind, error_bind])
    · refine .inr ⟨⟨amount⟩, throughDue, nextGrant, _, by rw [applied]; rfl, ?_⟩
      rw [Int64.le_iff_toInt_le, through, number, Int.add_sub_cancel]
      omega

theorem extensions_of_validate {cloud : CloudEvent} {ctx : Context} {name subject : String}
    (valid : cloud.validate ctx name subject = .ok ()) :
    1 ≤ ctx.revision.val.toInt ∧ cloud.extension "guildid" = some (.string (toString ctx.guild)) ∧
      cloud.extension "revision" = some (.string (toString ctx.revision)) ∧
      cloud.extension "commandid" = some (.string ctx.command) := by
  unfold CloudEvent.validate at valid
  simp only [bind_eq_ok, reject_eq_ok, not_or, not_not, ne_eq, Int64.lt_iff_toInt_lt, not_lt] at valid
  rcases valid with ⟨_, _, _, _, _, _, _, ⟨_, _, revision, _, guild, number, _, _, _, command, _⟩, _⟩
  exact ⟨revision, guild, number, command⟩

theorem insertEvent_ok {database : Database} {guild : GuildId} {revision : EventRevision} {row : EventRow}
    {store : Store} {name subject : String}
    (valid : row.event.validate (store.context guild revision row.commandKey row.acceptedAt) name subject = .ok ())
    (above : ∀ (other : EventRevision) (stored : EventRow), database.events[other]? = some stored →
      other.val.toInt < revision.val.toInt)
    (fresh : ∀ (other : EventRevision) (stored : EventRow), database.events[other]? = some stored →
      stored.event.identity ≠ row.event.identity) :
    database.insertEvent guild revision row = .ok { database with events := database.events.insert revision row } := by
  rcases extensions_of_validate valid with ⟨positive, owner, number, command⟩
  have unused : database.events[revision]? = none := by
    cases found : database.events[revision]? with
    | none => rfl
    | some stored => exact absurd (above revision stored found) (lt_irrefl _)
  have distinct : ¬ database.events.toList.any (fun stored => stored.2.event.identity == row.event.identity) = true := by
    simp only [List.any_eq_true, not_exists, not_and, beq_iff_eq]
    intro stored member
    exact fresh stored.1 stored.2 (BTreeMap.mem_toList.mp member)
  unfold Database.insertEvent
  rw [if_neg, if_neg]
  · simp [unused, distinct]
  · simp only [owner, number, command, Store.context, ne_eq, not_true_eq_false, or_false, Int64.le_iff_toInt_le,
      Int64.toInt_zero, not_le]
    exact positive

theorem decideGrant_applies [Lowercase] {state : State} {actor : Actor} {userId : UserId} {now : Int64}
    {decision : Decision} (decided : decideGrant state actor userId now = .ok decision) :
    ∃ next, decision.events.foldlM applyInner state = .ok next := by
  unfold decideGrant at decided
  simp only [reject_eq_ok, bind_eq_ok] at decided
  rcases decided with ⟨_, _, _, _, _, _, _, decided⟩
  split at decided
  · exact (finish_eq_ok decided).2
  · simp only [bind_eq_ok] at decided
    rcases decided with ⟨_, _, _, _, _, _, _, _, _, _, decided⟩
    exact (finish_eq_ok decided).2

theorem enqueue_grant (database : Database) (revision : EventRevision) (state : State) (odds : List OutcomeOdds)
    (user : UserId) (amount : Points) (due throughDue nextGrant : Int64) :
    enqueue database revision (.pointsGranted user .periodic amount due throughDue nextGrant) state odds =
      .ok database := by
  unfold enqueue
  split <;> rfl

theorem transact_commits [Lowercase] {store : Store} {guild : GuildId} {delivery : Delivery} {database written : Database}
    {view : View} {decision : Decision} {work : Work} (unused : database.commands[delivery.key]? = none)
    (verified : delivery.verificationError = none) (loaded : load store guild database = .ok view)
    (decided : decideCommand store view.state delivery = .ok decision)
    (due : ¬ (isGrant delivery.command ∧ decision.events = []))
    (appended : decision.events.foldlM (appendEvent store guild delivery) ⟨view, database, 0⟩ = .ok work)
    (inserted : work.database.insertCommand delivery.key ⟨toString delivery.actor.userId, delivery.acceptedAt,
      decision.response, work.view.revision⟩ = .ok written) :
    transact store guild delivery database = .ok ⟨decision.response, true, decision.events, some work.view, written⟩ := by
  have absent : receipt database delivery.key delivery.actor.userId = .ok none := by
    rw [receipt, unused]
  unfold transact
  rw [absent, atStage, Except.mapError, ok_bind]
  dsimp only
  rw [verified, loaded, atStage, Except.mapError]
  dsimp only
  rw [ok_bind, decided, ok_bind, if_neg due, appended, atStage, Except.mapError, ok_bind, inserted, atStage,
    Except.mapError, ok_bind]

theorem transact_grant [Lowercase] {store : Store} {guild : GuildId} {database : Database} {state : State}
    {reader : Reader} {user : UserId} {due acceptedAt throughDue nextGrant : Int64} {amount : Points}
    {response : String} {attempt : Attempt} {ids : Nat → Uuid} {revision : EventRevision} {cloud : CloudEvent}
    (recorded : Recorded store guild database state reader) (unused : database.commands[grantKey user due]? = none)
    (verified : attempt.verificationError = none)
    (decided : decideGrant state systemActor user acceptedAt =
      .ok ⟨[.pointsGranted user .periodic amount due throughDue nextGrant], response⟩)
    (reached : throughDue ≤ acceptedAt) (next : reader.revision.next = some revision)
    (made : envelope store guild (grantKey user due) acceptedAt (ids 0) revision
      (.pointsGranted user .periodic amount due throughDue nextGrant) = .ok cloud)
    (fresh : ∀ (other : EventRevision) (stored : EventRow), database.events[other]? = some stored →
      stored.event.identity ≠ cloud.identity) :
    ∃ committed, transact store guild ((grantCall user due).delivery attempt acceptedAt ids) database = .ok committed ∧
      committed.recorded = true ∧
      committed.events = [.pointsGranted user .periodic amount due throughDue nextGrant] := by
  let event : Event := .pointsGranted user .periodic amount due throughDue nextGrant
  let row : EventRow := ⟨grantKey user due, acceptedAt, cloud⟩
  let written : Database := { database with events := database.events.insert revision row }
  let receipt : CommandRow := ⟨toString systemActor.userId, acceptedAt, response, revision⟩
  have following := EventRevision.next_eq_some.mp next
  have valid := (envelope_inv made).2
  have above : ∀ (other : EventRevision) (stored : EventRow), database.events[other]? = some stored →
      other.val.toInt < revision.val.toInt := by
    intro other stored found
    have bound := recorded.settled.above other stored found
    omega
  have inserted : database.insertEvent guild revision row = .ok written := insertEvent_ok valid above fresh
  rcases decideGrant_applies decided with ⟨result, applied⟩
  rcases bind_eq_ok.mp (List.foldlM_cons.symm.trans applied) with ⟨state', granted, _⟩
  have author : validateEventActor event ⟨0⟩ = .ok () := rfl
  have time : validateEventTime event acceptedAt = .ok () := by
    simp [validateEventTime, eventTimeMatches, event, reached]
  have appended : appendEvent store guild ((grantCall user due).delivery attempt acceptedAt ids)
      ⟨⟨reader.revision, state⟩, database, 0⟩ event = .ok ⟨⟨revision, state'⟩, written, 1⟩ := by
    unfold appendEvent
    dsimp only [CommandCall.delivery, grantCall, systemActor]
    rw [author, ok_bind, time, ok_bind, next, okOr, ok_bind, made, ok_bind, apply, granted, Except.mapError, ok_bind,
      inserted, ok_bind, enqueue_grant, ok_bind]
  have stored : written.insertCommand (grantKey user due) receipt =
      .ok { written with commands := written.commands.insert (grantKey user due) receipt } := by
    have positive := (extensions_of_validate valid).1
    unfold Database.insertCommand
    rw [if_neg, if_neg]
    · change ¬ database.commands[grantKey user due]?.isSome = true
      rw [unused]
      decide
    · change ¬ revision.val < 0
      change 1 ≤ revision.val.toInt at positive
      rw [Int64.lt_iff_toInt_lt, Int64.toInt_zero]
      omega
  have chosen : decideCommand store state ((grantCall user due).delivery attempt acceptedAt ids) =
      .ok ⟨[event], response⟩ := by
    unfold decideCommand
    dsimp only [CommandCall.delivery, grantCall, decideWithMembership]
    rw [decided]
  have folded : [event].foldlM (appendEvent store guild ((grantCall user due).delivery attempt acceptedAt ids))
      ⟨⟨reader.revision, state⟩, database, 0⟩ = .ok ⟨⟨revision, state'⟩, written, 1⟩ := by
    rw [List.foldlM_cons, appended]
    rfl
  refine ⟨_, transact_commits unused verified recorded.load chosen ?_ folded stored, rfl, rfl⟩
  rintro ⟨_, empty⟩
  cases empty

/-- What holds of the periodic grants of a guild, whichever passes run beside whatever else. -/
structure GrantsOnce [Lowercase] (store : Store) (guild : GuildId) (world : World) : Prop where
  /-- Every periodic grant in the event table stands under the key of its first boundary. -/
  keyed : ∀ (revision : EventRevision) (row : EventRow), world.database.events[revision]? = some row →
    ∀ user amount fromDue throughDue nextGrant,
      row.event.data = some (.pointsGranted user .periodic amount fromDue throughDue nextGrant) →
      row.commandKey = grantKey user fromDue
  /-- The boundaries the events grant to a member follow one another without an overlap. -/
  once : ∃ events, (written world.database.events).map Prod.snd = events.map some ∧ Ascending events
  /-- The guild can be read, and the key of a member's current boundary has no receipt. -/
  free : ∃ view, load store guild world.database = .ok view ∧ ∀ user account,
    view.state.accounts[user]? = some account → world.database.commands[grantKey user account.nextGrant]? = none
  /-- So a due boundary is granted under its key, unless the points or times overflow or no envelope can
  be made for the event. -/
  grantable : ∀ view, load store guild world.database = .ok view → ∀ user account,
    view.state.accounts[user]? = some account → ∀ acceptedAt, account.nextGrant ≤ acceptedAt →
      decideGrant view.state systemActor user acceptedAt = .error .overflow ∨
        ∃ amount throughDue nextGrant, ∀ attempt ids revision cloud, attempt.verificationError = none →
          view.revision.next = some revision →
          envelope store guild (grantKey user account.nextGrant) acceptedAt (ids 0) revision
            (.pointsGranted user .periodic amount account.nextGrant throughDue nextGrant) = .ok cloud →
          (∀ (other : EventRevision) (stored : EventRow), world.database.events[other]? = some stored →
            stored.event.identity ≠ cloud.identity) →
          ∃ committed, transact store guild ((grantCall user account.nextGrant).delivery attempt acceptedAt ids)
              world.database = .ok committed ∧ committed.recorded = true ∧
            committed.events = [.pointsGranted user .periodic amount account.nextGrant throughDue nextGrant]

theorem map_snd_log (commits : List Commit) :
    (commits.flatMap Commit.log).map Prod.snd = (committedEvents commits).map some := by
  induction commits with
  | nil => rfl
  | cons commit rest ih =>
    have first : commit.log.map Prod.snd = commit.events.map some := by
      simp [Commit.log, keyed]
    rw [List.flatMap_cons, List.map_append, ih, first, committedEvents, committedEvents, List.flatMap_cons,
      List.map_append]

theorem Granting.Inv.once [Lowercase] {store : Store} {guild : GuildId} {granting : Granting}
    (inv : granting.Inv store guild) : GrantsOnce store guild granting.world := by
  rcases inv with ⟨sound, state, reader, timely⟩
  have unused : ∀ user due, state.due user = some due →
      granting.world.database.commands[grantKey user due]? = none := by
    intro user due scheduled
    cases found : granting.world.database.commands[grantKey user due]? with
    | none => rfl
    | some row =>
      rcases timely.passed user due row found with ⟨next, current, less⟩
      rw [scheduled] at current
      cases current
      exact absurd less (lt_irrefl _)
  refine ⟨?_, ?_, ?_, ?_⟩
  · intro revision row found user amount fromDue throughDue nextGrant data
    have member : (row.commandKey, row.event.data) ∈ written granting.world.database.events :=
      List.mem_map.mpr ⟨(revision, row), BTreeMap.mem_toList.mpr found, rfl⟩
    rw [sound.log] at member
    rcases List.mem_flatMap.mp member with ⟨commit, listed, logged⟩
    rcases List.mem_map.mp logged with ⟨event, present, same⟩
    rw [Prod.mk.injEq] at same
    rw [data] at same
    cases same.2
    rw [← same.1]
    exact timely.keyed commit listed _ present rfl _ _ _ rfl
  · refine ⟨committedEvents granting.world.commits, ?_, ?_⟩
    · rw [sound.log, map_snd_log]
    · rw [← timely.events]
      exact replay_ascending timely.recorded.replayed
  · refine ⟨_, timely.recorded.load, ?_⟩
    intro user account found
    apply unused
    rw [State.due, found]
    rfl
  · intro view loaded user account found acceptedAt reached
    rw [timely.recorded.load] at loaded
    cases loaded
    have scheduled : state.due user = some account.nextGrant := by
      rw [State.due, found]
      rfl
    rcases decideGrant_total (replay_founded timely.recorded.replayed) scheduled reached with
      overflow | ⟨amount, throughDue, nextGrant, response, decided, through⟩
    · exact .inl overflow
    · refine .inr ⟨amount, throughDue, nextGrant, ?_⟩
      intro attempt ids revision cloud verified next made fresh
      exact transact_grant timely.recorded (unused user _ scheduled) verified decided through next made fresh

/-- Passes over due grants, with boundaries they read before other commands ran, neither block a later
grant nor repeat one. -/
theorem periodic_grants_run_once [Lowercase] (store : Store) (guild : GuildId) (actions : List GrantAction) :
    GrantsOnce store guild (Granting.run store guild {} actions).world :=
  ((granting_inv_empty store guild).run actions).once

end PredictionBot

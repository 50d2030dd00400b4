import BazelRepo.BookSmartz.StoreAgreement

namespace BookSmartz

open Library

variable [UrlParser] [Calendar]

structure Session.Holds (books : BookTable) (reader : ReaderId) (ranking : Ranking) (session : Session) : Prop where
  owner : session.scope.reader = reader
  poisoned : session.spoiled = true → session.scope.failed = true
  stored : session.scope.failed = false → Stored reader session.scope.rows session.scope.ranking
  idle : session.scope.failed = false → session.expected = none → session.scope.ranking = ranking
  staged : session.scope.failed = false → ∀ expected, session.expected = some expected →
    ∃ document, session.scope.appended = true ∧ session.scope.rankingDocuments.getLast? = some document ∧
      ranking.projection.revision = expected ∧
      session.scope.ranking.history = ranking.history ++ [document.event] ∧
      apply ranking.projection document.event = .ok session.scope.ranking.projection ∧
      ∀ id, document.event.command.referenced = some id → books.rows[id]? ≠ none

structure World.Inv (world : World) : Prop where
  stored : ∀ reader, Stored reader (world.streams reader).rows (world.memory reader)
  decisions : ∀ reader,
    (world.decisions.filter fun decision => decision.reader = reader).map
        (fun decision => decision.expectedRevision.toNat) = List.range (world.memory reader).history.length
  sessions : ∀ reader session, world.sessions reader = some session →
    session.Holds world.books reader (world.memory reader)

theorem World.inv_empty : World.Inv {} where
  stored := stored_empty
  decisions := fun _ => rfl
  sessions := by
    intro reader session impossible
    cases impossible

omit [UrlParser] [Calendar] in
theorem BookTable.register_keeps {books result : BookTable} {book : Book} {outcome : Registration}
    (registered : books.register book = .ok (result, outcome)) {id : BookId} (present : books.rows[id]? ≠ none) :
    result.rows[id]? ≠ none := by
  unfold register at registered
  split at registered
  · split at registered
    · cases registered
      exact present
    · cases registered
  · split at registered
    · cases registered
      show (books.rows.insert book.id book.workId.val)[id]? ≠ none
      rw [BTreeMap.getElem?_insert_eq]
      split
      · exact Option.some_ne_none _
      · exact present
    · cases registered

theorem Session.Holds.register {books result : BookTable} {reader : ReaderId} {ranking : Ranking}
    {session : Session} {book : Book} {outcome : Registration} (holds : session.Holds books reader ranking)
    (registered : books.register book = .ok (result, outcome)) : session.Holds result reader ranking where
  owner := holds.owner
  poisoned := holds.poisoned
  stored := holds.stored
  idle := holds.idle
  staged := by
    intro sound expected found
    rcases holds.staged sound expected found with ⟨document, appended, last, revision, extended, applied, known⟩
    refine ⟨document, appended, last, revision, extended, applied, ?_⟩
    exact fun id refers => books.register_keeps registered (known id refers)

theorem Session.holds_failed {books : BookTable} {reader : ReaderId} {ranking : Ranking} {session : Session}
    (owner : session.scope.reader = reader) (failed : session.scope.failed = true) :
    session.Holds books reader ranking where
  owner := owner
  poisoned := fun _ => failed
  stored := by simp [failed]
  idle := by simp [failed]
  staged := by simp [failed]

theorem CommandTransaction.appendRanking_cases (books : BookTable) (scope : CommandTransaction)
    (document : CloudEventDocument) (expectedRevision : UInt64) (reply : Reply) :
    (∃ answer, scope.appendRanking books document expectedRevision reply = (scope.poison, answer) ∧
        answer ≠ some (.ok ())) ∨
      ∃ next rows, scope.failed = false ∧ scope.appended = false ∧
        scope.ranking.projection.revision = expectedRevision ∧
        Ranking.fromHistory scope.reader (scope.ranking.history ++ [document.event]) = .ok next ∧
        insertDocument books scope.rows document = .ok rows ∧
        scope.appendRanking books document expectedRevision reply =
          ({ scope with
              ranking := next
              rankingDocuments := scope.rankingDocuments ++ [document]
              appended := true
              failed := false
              rows := rows }, some (.ok ())) := by
  unfold appendRanking
  by_cases refused : scope.failed ∨ scope.appended
  · rw [if_pos refused]
    exact .inl ⟨_, rfl, by simp⟩
  · rw [if_neg refused]
    by_cases stale : scope.ranking.projection.revision ≠ expectedRevision
    · rw [if_pos stale]
      exact .inl ⟨_, rfl, by simp⟩
    · rw [if_neg stale]
      cases replayed : Ranking.fromHistory scope.reader (scope.ranking.history ++ [document.event]) with
      | error error => exact .inl ⟨_, rfl, by simp⟩
      | ok next =>
        cases reply with
        | cancelled => exact .inl ⟨_, rfl, by simp⟩
        | failed => exact .inl ⟨_, rfl, by simp⟩
        | done =>
          dsimp only [stageDocument]
          cases inserted : insertDocument books scope.rows document with
          | error error => exact .inl ⟨_, rfl, by simp⟩
          | ok rows =>
            simp only [not_or, Bool.not_eq_true] at refused
            exact .inr ⟨next, rows, refused.1, refused.2, not_not.mp stale, rfl, rfl, rfl⟩

theorem CommandTransaction.appendApplication_cases (scope : CommandTransaction) (event : ApplicationEvent)
    (reply : Reply) :
    (∃ answer, scope.appendApplication event reply = (scope.poison, answer) ∧ answer ≠ some (.ok ())) ∨
      ∃ history, scope.failed = false ∧
        scope.appendApplication event reply =
          ({ scope with applicationHistory := history, applicationAppended := true, failed := false },
            some (.ok ())) := by
  unfold appendApplication
  by_cases refused : scope.failed ∨ scope.applicationAppended
  · rw [if_pos refused]
    exact .inl ⟨_, rfl, by simp⟩
  · rw [if_neg refused]
    by_cases foreign : event.reader ≠ scope.reader ∨
        nextApplicationSequence scope.applicationHistory ≠ some event.sequence
    · rw [if_pos foreign]
      exact .inl ⟨_, rfl, by simp⟩
    · rw [if_neg foreign]
      cases reply with
      | cancelled => exact .inl ⟨_, rfl, by simp⟩
      | failed => exact .inl ⟨_, rfl, by simp⟩
      | done =>
        dsimp only [stageFact]
        cases inserted : insertFact scope.applicationHistory event with
        | error error => exact .inl ⟨_, rfl, by simp⟩
        | ok history =>
          simp only [not_or, Bool.not_eq_true] at refused
          exact .inr ⟨history, refused.1, rfl⟩

theorem Session.after_refused {session : Session} {answer : Option (Except StoreError Unit)}
    (refused : answer ≠ some (.ok ())) (expected : Option UInt64) :
    session.after (session.scope.poison, answer) expected = ⟨session.scope.poison, true, session.expected⟩ := by
  rcases answer with _ | error | ⟨⟩
  · rfl
  · rfl
  · exact absurd rfl refused

theorem Session.Holds.appendRanking {books : BookTable} {reader : ReaderId} {ranking : Ranking} {session : Session}
    (holds : session.Holds books reader ranking) {document : CloudEventDocument}
    (rereadable : Rereadable document.envelope) (expectedRevision : UInt64) (reply : Reply) :
    (session.after (session.scope.appendRanking books document expectedRevision reply)
      (some expectedRevision)).Holds books reader ranking := by
  rcases session.scope.appendRanking_cases books document expectedRevision reply with
    ⟨answer, same, refused⟩ | ⟨next, rows, sound, fresh, revision, replayed, inserted, same⟩
  · rw [same, Session.after_refused refused]
    exact Session.holds_failed holds.owner rfl
  · have idle : session.expected = none := by
      cases found : session.expected with
      | none => rfl
      | some expected =>
        rcases holds.staged sound expected found with ⟨_, appended, _⟩
        rw [fresh] at appended
        cases appended
    have current := holds.idle sound idle
    have stored := holds.stored sound
    rcases fromHistory_eq_ok.mp replayed with ⟨extended, accepted⟩
    rcases replay_append.mp accepted with ⟨before, earlier, applied⟩
    rw [holds.owner, stored.replayed] at earlier
    cases earlier
    have grown := stored.append applied rereadable inserted
    rw [same]
    refine ⟨holds.owner, ?_, ?_, ?_, ?_⟩
    · intro spoiled
      have failed := holds.poisoned spoiled
      rw [sound] at failed
      cases failed
    · intro _
      rw [← extended] at grown
      exact grown
    · intro _ impossible
      cases impossible
    · rintro _ _ ⟨⟩
      refine ⟨document, rfl, List.getLast?_concat, ?_, ?_, ?_, (insertDocument_eq_ok inserted).2⟩
      · rw [← current]
        exact revision
      · rw [← current]
        exact extended
      · rw [← current]
        exact applied

theorem Session.Holds.appendApplication {books : BookTable} {reader : ReaderId} {ranking : Ranking}
    {session : Session} (holds : session.Holds books reader ranking) (event : ApplicationEvent) (reply : Reply) :
    (session.after (session.scope.appendApplication event reply) session.expected).Holds books reader ranking := by
  rcases session.scope.appendApplication_cases event reply with ⟨answer, same, refused⟩ | ⟨history, sound, same⟩
  · rw [same, Session.after_refused refused]
    exact Session.holds_failed holds.owner rfl
  · rw [same]
    refine ⟨holds.owner, ?_, fun _ => holds.stored sound, fun _ => holds.idle sound, fun _ => holds.staged sound⟩
    intro spoiled
    have failed := holds.poisoned spoiled
    rw [sound] at failed
    cases failed

theorem beginCommand_holds {books : BookTable} {reader : ReaderId} {stream : Stream} {ranking : Ranking}
    (stored : Stored reader stream.rows ranking) {scope : CommandTransaction}
    (opened : beginCommand reader stream = .ok scope) :
    Session.Holds books reader ranking { scope := scope } := by
  rcases stored.replayRows with ⟨documents, replayed⟩
  unfold beginCommand at opened
  rw [replayed, ok_bind] at opened
  cases opened
  refine ⟨rfl, ?_, fun _ => stored, fun _ _ => rfl, ?_⟩
  · intro impossible
    cases impossible
  · intro _ _ impossible
    cases impossible

theorem World.Inv.setSession {world : World} (inv : world.Inv) (reader : ReaderId) {session : Option Session}
    (holds : ∀ opened, session = some opened → opened.Holds world.books reader (world.memory reader)) :
    (world.setSession reader session).Inv where
  stored := inv.stored
  decisions := inv.decisions
  sessions := by
    intro other opened found
    show opened.Holds world.books other (world.memory other)
    have updated : Function.update world.sessions reader session other = some opened := found
    by_cases same : other = reader
    · subst same
      rw [Function.update_self] at updated
      exact holds opened updated
    · rw [Function.update_of_ne same] at updated
      exact inv.sessions other opened updated

theorem World.Inv.decided {world : World} (inv : world.Inv) {reader : ReaderId} {context : CommandContext}
    {command : Command} {registry : BookRegistry} {event : RankingEvent} {next : Ranking} {stream : Stream}
    (listed : fullRegistry world.books = .ok registry)
    (executed : (world.memory reader).execute registry context command = .ok (event, next))
    (stored : Stored reader stream.rows next) (closed : world.sessions reader = none) :
    World.Inv { world.decided reader context command with
      streams := Function.update world.streams reader stream } := by
  have memory : remember (world.memory reader) world.books context command = next := by
    rw [remember, listed]
    dsimp only
    rw [executed]
  rcases execute_eq_ok.mp executed with ⟨decided, extended, _⟩
  have revision := (decide_eq_ok.mp decided).1
  have counted := (replay_sequences (inv.stored reader).replayed).2.1
  unfold World.decided
  rw [memory]
  refine ⟨?_, ?_, ?_⟩
  · intro other
    dsimp only
    by_cases same : other = reader
    · subst same
      rw [Function.update_self, Function.update_self]
      exact stored
    · rw [Function.update_of_ne same, Function.update_of_ne same]
      exact inv.stored other
  · intro other
    dsimp only
    rw [List.filter_append, List.map_append, inv.decisions other]
    by_cases same : other = reader
    · subst same
      rw [Function.update_self, extended, List.length_append, List.length_singleton, List.range_succ, ← counted,
        ← revision]
      simp
    · rw [Function.update_of_ne same]
      simp [Ne.symm same]
  · intro other session found
    dsimp only at found ⊢
    have apart : other ≠ reader := by
      intro same
      rw [same, closed] at found
      cases found
    rw [Function.update_of_ne apart]
    exact inv.sessions other session found

theorem World.Inv.execute {world : World} (inv : world.Inv) {reader : ReaderId}
    (closed : world.sessions reader = none) (context : CommandContext) (command : Command)
    (outcome : CommitOutcome) : (world.execute reader context command outcome).Inv := by
  cases outcome with
  | rolledBack => exact inv
  | applied =>
    unfold World.execute
    cases executed : executeInTransaction world.books reader (world.streams reader).rows context command with
    | error error => exact inv
    | ok result =>
      rcases result with ⟨event, next, rows⟩
      rcases executeInTransaction_eq_ok (inv.stored reader) executed with ⟨stored, registry, listed, same⟩
      exact inv.decided listed same stored closed

theorem World.Inv.commit {world : World} (inv : world.Inv) {reader : ReaderId} {session : Session}
    (opened : world.sessions reader = some session) (outcome : CommitOutcome) :
    (world.commit reader session outcome).Inv := by
  have holds := inv.sessions reader session opened
  have closed : (world.setSession reader none).Inv := inv.setSession reader (by simp)
  have free : (world.setSession reader none).sessions reader = none := by
    show Function.update world.sessions reader none reader = none
    rw [Function.update_self]
  unfold World.commit
  cases outcome with
  | rolledBack => exact closed
  | applied =>
    unfold CommandTransaction.commit
    by_cases failed : session.scope.failed = true
    · rw [if_pos failed]
      exact closed
    · rw [if_neg failed]
      have sound : session.scope.failed = false := by simpa using failed
      dsimp only
      cases staged : session.expected with
      | none =>
        have current := holds.idle sound staged
        have stored := holds.stored sound
        rw [current] at stored
        unfold World.committed
        rw [staged]
        dsimp only
        refine ⟨?_, closed.decisions, closed.sessions⟩
        intro other
        dsimp only
        by_cases same : other = reader
        · subst same
          rw [Function.update_self]
          exact stored
        · rw [Function.update_of_ne same]
          exact closed.stored other
      | some expected =>
        rcases holds.staged sound expected staged with
          ⟨document, _, last, revision, extended, applied, known⟩
        rcases fullRegistry_get world.books with ⟨registry, listed, every⟩
        have registered : ∀ id, document.event.command.referenced = some id → (registry.get id).isSome := by
          intro id refers
          cases found : world.books.rows[id]? with
          | none => exact absurd found (known id refers)
          | some workId =>
            rw [every id, BookTable.book_of_row found]
            rfl
        have executed := execute_command applied registered
        rw [revision, ← extended] at executed
        unfold World.committed
        rw [staged, last]
        exact closed.decided listed executed (holds.stored sound) free

def Action.Rereadable : Action → Prop
  | .appendRanking _ document _ _ => BookSmartz.Rereadable document.envelope
  | _ => True

theorem World.Inv.step {world : World} (inv : world.Inv) {action : Action} (rereadable : action.Rereadable) :
    (world.step action).Inv := by
  unfold World.step
  cases action with
  | register book =>
    dsimp only
    cases registered : world.books.register book with
    | error error => exact inv
    | ok result =>
      refine ⟨inv.stored, inv.decisions, ?_⟩
      exact fun reader session found => (inv.sessions reader session found).register registered
  | execute reader context command outcome =>
    dsimp only
    cases opened : world.sessions reader with
    | some session => exact inv
    | none => exact inv.execute opened context command outcome
  | «begin» reader =>
    dsimp only
    cases opened : world.sessions reader with
    | some session => exact inv
    | none =>
      dsimp only
      cases begun : beginCommand reader (world.streams reader) with
      | error error => exact inv
      | ok scope =>
        apply inv.setSession reader
        rintro _ ⟨⟩
        exact beginCommand_holds (inv.stored reader) begun
  | appendRanking reader document expectedRevision reply =>
    dsimp only
    cases opened : world.sessions reader with
    | none => exact inv
    | some session =>
      apply inv.setSession reader
      rintro _ ⟨⟩
      exact (inv.sessions reader session opened).appendRanking rereadable expectedRevision reply
  | appendApplication reader event reply =>
    dsimp only
    cases opened : world.sessions reader with
    | none => exact inv
    | some session =>
      apply inv.setSession reader
      rintro _ ⟨⟩
      exact (inv.sessions reader session opened).appendApplication event reply
  | commit reader outcome =>
    dsimp only
    cases opened : world.sessions reader with
    | none => exact inv
    | some session => exact inv.commit opened outcome
  | drop reader => exact inv.setSession reader (by simp)

theorem World.run_inv {actions : List Action} (rereadable : ∀ action ∈ actions, action.Rereadable) :
    (World.run actions).Inv := by
  unfold World.run
  induction actions using List.reverseRecOn with
  | nil => exact World.inv_empty
  | append_singleton earlier action ih =>
    rw [List.foldl_append]
    apply (ih fun a member => rereadable a (List.mem_append_left _ member)).step
    exact rereadable action (List.mem_append_right _ (List.mem_singleton_self action))

end BookSmartz

import BazelRepo.Mindreadr.Game
import Mathlib.Data.List.Perm.Subperm

namespace Mindreadr

open RootLocale (lowercase)

inductive Operation where
  | addPlayer (player : Player)
  | addGuess (player : Player) (guess : String)
  | removePlayer (player : Player)

variable [RootLocale]

def Operation.perform : Operation → GameM Unit
  | .addPlayer player => Mindreadr.addPlayer player
  | .addGuess player guess => Mindreadr.addGuess player guess
  | .removePlayer player => Mindreadr.removePlayer player

def Game.after (game : Game) (operation : Operation) : Game :=
  match operation.perform.run game with
  | .ok _ left => left
  | .error _ left => left

/-- The handler adds fresh players, and only players of the game guess or leave. -/
def Operation.Allowed (game : Game) : Operation → Prop
  | .addPlayer player => player ∉ game.players
  | .addGuess player _ => player ∈ game.players
  | .removePlayer player => player ∈ game.players

def Operation.removes : Operation → Bool
  | .removePlayer _ => true
  | _ => false

/-- A game with what is told of its past: the players it began with, and whether one left during play. -/
structure History where
  game : Game
  roster : List Player := []
  left : Bool := false

def History.step (history : History) (operation : Operation) : History :=
  let game := history.game.after operation
  { game
    roster :=
      if history.game.state = .waitingForPlayers ∧ game.state = .inProgress then game.players else history.roster
    left := history.left || (decide (history.game.state = .inProgress) && operation.removes) }

def History.run (history : History) (operations : List Operation) : History :=
  operations.foldl History.step history

/-- Every operation of a run meets the handler's guarantees when it is performed. -/
def History.Allowed (history : History) : List Operation → Prop
  | [] => True
  | operation :: rest => operation.Allowed history.game ∧ (history.step operation).Allowed rest

def Round.Filled (round : Round) (roster : List Player) : Prop := round.guessers.Perm roster

def Round.Agreed (round : Round) : Prop := ∃ word, ∀ other ∈ round.words, other = word

omit [RootLocale] in
theorem length_eraseDups_eq_one {words : List String} :
    words.eraseDups.length = 1 ↔ words ≠ [] ∧ ∃ word, ∀ other ∈ words, other = word := by
  cases words with
  | nil => simp
  | cons first rest =>
    rw [List.eraseDups_cons, List.length_cons]
    have single : (rest.filter fun other => !other == first).eraseDups.length = 0 ↔ ∀ other ∈ rest, other = first := by
      rw [List.length_eq_zero_iff, List.eq_nil_iff_forall_not_mem]
      simp only [List.mem_eraseDups, List.mem_filter, Bool.not_eq_true', beq_eq_false_iff_ne, not_and, not_not]
    constructor
    · intro one
      refine ⟨List.cons_ne_nil _ _, first, ?_⟩
      intro other member
      rcases List.mem_cons.mp member with same | later
      · exact same
      · exact single.mp (by omega) other later
    · rintro ⟨_, word, all⟩
      have same : ∀ other ∈ rest, other = first := by
        intro other member
        rw [all other (List.mem_cons_of_mem _ member), all first List.mem_cons_self]
      rw [single.mpr same]

omit [RootLocale] in
theorem length_uniqueGuesses {round : Round} : round.uniqueGuesses.length = 1 ↔ round.guesses ≠ [] ∧ round.Agreed := by
  rw [Round.uniqueGuesses, length_eraseDups_eq_one, Round.words, ne_eq, List.map_eq_nil_iff]
  rfl

/-- Where a game stands once play has begun, between its earlier rounds and its last. -/
structure Playing (history : History) (earlier : List Round) (last : Round) : Prop where
  rounds : history.game.rounds = earlier ++ [last]
  roster : history.roster.Nodup ∧ history.roster ≠ []
  players : history.game.players ⊆ history.roster
  numbered : history.game.rounds.map (fun round => round.number.toNat) = List.range' 1 history.game.rounds.length
  bounded : history.game.rounds.length ≤ history.game.roundLimit.toNat
  settled : ∀ round ∈ earlier, round.Filled history.roster ∧ ¬ round.Agreed
  guessers : last.guessers.Nodup ∧ last.guessers ⊆ history.roster
  lower : ∀ round ∈ history.game.rounds, ∀ word ∈ round.words, lowercase word = word
  fresh : history.game.rounds.Pairwise fun before after => ∀ word ∈ before.words, word ∉ after.words

def Standing (history : History) (last : Round) : Prop :=
  match history.game.state with
  | .waitingForPlayers => False
  | .inProgress => history.game.players = history.roster ∧ last.guesses.length < history.roster.length
  | .completed => last.Filled history.roster ∧ last.Agreed
  | .terminated => (history.left = true ∧ last.guesses.length < history.roster.length) ∨
      (last.Filled history.roster ∧ ¬ last.Agreed ∧ last.number = history.game.roundLimit)

/-- A game is either still gathering players, without a round, or it is played by the rules. -/
structure History.Sound (history : History) : Prop where
  members : history.game.players.Nodup
  limit : 1 ≤ history.game.roundLimit.toNat
  stage : (history.game.state = .waitingForPlayers ∧ history.game.rounds = []) ∨
    ∃ earlier last, Playing history earlier last ∧ Standing history last

omit [RootLocale] in
theorem filled_of_length {round : Round} {roster : List Player} (distinct : round.guessers.Nodup)
    (known : round.guessers ⊆ roster) (full : round.guesses.length = roster.length) : round.Filled roster := by
  apply (List.subperm_of_subset distinct known).perm_of_length_le
  rw [Round.guessers, List.length_map, full]

omit [RootLocale] in
theorem record_words (round : Round) (player : Player) (word : String) :
    (round.record player word).words = round.words ++ [word] := by
  simp [Round.record, Round.words]

omit [RootLocale] in
theorem record_guessers (round : Round) (player : Player) (word : String) :
    (round.record player word).guessers = round.guessers ++ [player] := by
  simp [Round.record, Round.guessers]

theorem unused_of_fresh {game : Game} {earlier : List Round} {last : Round} (rounds : game.rounds = earlier ++ [last])
    (lower : ∀ round ∈ game.rounds, ∀ word ∈ round.words, lowercase word = word) {word : String}
    (fresh : word ∉ previouslyUsedGuesses game) : ∀ round ∈ earlier, word ∉ round.words := by
  intro round member used
  apply fresh
  rw [previouslyUsedGuesses, rounds, List.dropLast_concat]
  have same : lowercase word = word := by
    apply lower round _ word used
    rw [rounds]
    exact List.mem_append_left _ member
  exact List.mem_map.mpr ⟨word, List.mem_flatMap.mpr ⟨round, member, used⟩, same⟩

theorem Playing.record {history : History} {earlier : List Round} {last : Round}
    (playing : Playing history earlier last) {player : Player} (member : player ∈ history.game.players)
    (silent : player ∉ last.guessers) {word : String} (lower : lowercase word = word)
    (fresh : word ∉ previouslyUsedGuesses history.game) :
    Playing { history with game := history.game.guessed (last.record player word) } earlier
      (last.record player word) := by
  have unused := unused_of_fresh playing.rounds playing.lower fresh
  have rounds : (history.game.guessed (last.record player word)).rounds = earlier ++ [last.record player word] := by
    rw [Game.guessed, playing.rounds, List.dropLast_concat]
  have length : (history.game.guessed (last.record player word)).rounds.length = history.game.rounds.length := by
    rw [rounds, playing.rounds, List.length_append, List.length_append]
    rfl
  refine ⟨rounds, playing.roster, playing.players, ?_, ?_, playing.settled, ?_, ?_, ?_⟩
  · dsimp only
    rw [length, ← playing.numbered, rounds, playing.rounds, List.map_append, List.map_append]
    rfl
  · dsimp only
    rw [length]
    exact playing.bounded
  · rw [record_guessers]
    constructor
    · rw [List.nodup_append]
      refine ⟨playing.guessers.1, List.pairwise_singleton _ _, ?_⟩
      intro other before single later
      rw [List.mem_singleton.mp later]
      rintro rfl
      exact silent before
    · exact List.append_subset.mpr
        ⟨playing.guessers.2, List.cons_subset.mpr ⟨playing.players member, List.nil_subset _⟩⟩
  · dsimp only
    rw [rounds]
    intro round listed other guessed
    rcases List.mem_append.mp listed with before | single
    · exact playing.lower round (by rw [playing.rounds]; exact List.mem_append_left _ before) other guessed
    · rw [List.mem_singleton.mp single, record_words] at guessed
      rcases List.mem_append.mp guessed with before | latest
      · exact playing.lower last (by rw [playing.rounds]; exact List.mem_append_right _ List.mem_cons_self) other before
      · rw [List.mem_singleton.mp latest]
        exact lower
  · have apart := playing.fresh
    rw [playing.rounds, List.pairwise_append] at apart
    dsimp only
    rw [rounds, List.pairwise_append]
    refine ⟨apart.1, List.pairwise_singleton _ _, ?_⟩
    intro before listed after single other used
    rw [List.mem_singleton.mp single, record_words, List.mem_append, not_or]
    refine ⟨apart.2.2 before listed last List.mem_cons_self other used, ?_⟩
    rw [List.mem_singleton]
    rintro rfl
    exact unused before listed used

theorem Playing.number {history : History} {earlier : List Round} {last : Round}
    (playing : Playing history earlier last) : last.number.toNat = history.game.rounds.length := by
  have numbers := playing.numbered
  rw [playing.rounds, List.map_append, List.length_append, List.length_singleton, List.range'_concat] at numbers
  have final := (List.append_inj' numbers rfl).2
  rw [playing.rounds, List.length_append, List.length_singleton]
  simp only [List.map_cons, List.map_nil, List.cons.injEq] at final
  omega

theorem Playing.next {history : History} {earlier : List Round} {last : Round}
    (playing : Playing history earlier last) (filled : last.Filled history.roster) (apart : ¬ last.Agreed)
    (below : ¬ history.game.roundLimit ≤ last.number) :
    Playing { history with game :=
      { history.game with rounds := history.game.rounds ++ [{ number := last.number + 1 }] } }
      (earlier ++ [last]) { number := last.number + 1 } := by
  have number := playing.number
  rw [UInt32.le_iff_toNat_le, number] at below
  have following : (last.number + 1).toNat = history.game.rounds.length + 1 := by
    have bound := history.game.roundLimit.toNat_lt
    rw [UInt32.toNat_add, number]
    change (history.game.rounds.length + 1) % 2 ^ 32 = _
    omega
  refine ⟨?_, playing.roster, playing.players, ?_, ?_, ?_, ?_, ?_, ?_⟩
  · dsimp only
    rw [playing.rounds]
  · dsimp only
    rw [List.map_append, playing.numbered, List.length_append, List.length_singleton, List.range'_concat,
      List.map_singleton, following]
    congr 2
    omega
  · dsimp only
    rw [List.length_append, List.length_singleton]
    omega
  · intro round member
    rcases List.mem_append.mp member with before | single
    · exact playing.settled round before
    · cases List.mem_singleton.mp single
      exact ⟨filled, apart⟩
  · exact ⟨List.nodup_nil, List.nil_subset _⟩
  · intro round member other guessed
    rcases List.mem_append.mp member with before | single
    · exact playing.lower round before other guessed
    · cases List.mem_singleton.mp single
      cases guessed
  · refine List.pairwise_append.mpr ⟨playing.fresh, List.pairwise_singleton _ _, ?_⟩
    intro before listed after single other used
    rw [List.mem_singleton.mp single]
    exact List.not_mem_nil

theorem after_error {game : Game} {operation : Operation} {message : String}
    (ran : operation.perform.run game = .error message game) : game.after operation = game := by
  rw [Game.after, ran]

theorem after_ok {game left : Game} {operation : Operation} (ran : operation.perform.run game = .ok () left) :
    game.after operation = left := by
  rw [Game.after, ran]

theorem History.step_idle {history : History} {operation : Operation}
    (same : history.game.after operation = history.game)
    (stays : ¬ (history.game.state = .inProgress ∧ operation.removes = true)) :
    history.step operation = history := by
  have left : (decide (history.game.state = .inProgress) && operation.removes) = false := by
    rw [Bool.eq_false_iff]
    simpa using stays
  have began : ¬ (history.game.state = .waitingForPlayers ∧ history.game.state = .inProgress) := by
    rintro ⟨waiting, playing⟩
    rw [waiting] at playing
    cases playing
  unfold History.step
  rw [same, left, Bool.or_false]
  dsimp only
  rw [if_neg began]

theorem History.Sound.addPlayer {history : History} (sound : history.Sound) {player : Player}
    (allowed : player ∉ history.game.players) : (history.step (.addPlayer player)).Sound := by
  by_cases waiting : history.game.state = .waitingForPlayers
  · have empty : history.game.rounds = [] := by
      rcases sound.stage with ⟨_, empty⟩ | ⟨_, _, _, standing⟩
      · exact empty
      · unfold Standing at standing
        rw [waiting] at standing
        exact standing.elim
    have members : (history.game.players ++ [player]).Nodup := by
      rw [List.nodup_append]
      refine ⟨sound.members, List.pairwise_singleton _ _, ?_⟩
      intro other before single later
      rw [List.mem_singleton.mp later]
      rintro rfl
      exact allowed before
    by_cases full : ((history.game.joined player).players.length : Int) = history.game.playerLimit.toInt32.toInt
    · have after : history.game.after (.addPlayer player) = (history.game.joined player).started := by
        apply after_ok
        refine (run_addPlayer player history.game).trans ?_
        rw [if_pos waiting, if_pos full]
      unfold History.step
      rw [after]
      refine ⟨members, sound.limit, .inr ⟨[], { number := 1 }, ?_, ?_⟩⟩
      · have roster : (if history.game.state = .waitingForPlayers ∧
            (history.game.joined player).started.state = .inProgress then
              (history.game.joined player).started.players else history.roster) = history.game.players ++ [player] :=
          if_pos ⟨waiting, rfl⟩
        have rounds : (history.game.joined player).started.rounds = [{ number := 1 }] := by
          change history.game.rounds ++ [_] = _
          rw [empty, List.nil_append]
        refine ⟨rounds, ?_, ?_, ?_, ?_, ?_, ?_, ?_, ?_⟩
        · dsimp only
          rw [roster]
          exact ⟨members, by simp⟩
        · dsimp only
          rw [roster]
          exact List.Subset.refl _
        · dsimp only
          rw [rounds]
          rfl
        · dsimp only
          rw [rounds]
          exact sound.limit
        · intro round member
          cases member
        · exact ⟨List.nodup_nil, List.nil_subset _⟩
        · dsimp only
          rw [rounds]
          intro round member word guessed
          cases List.mem_singleton.mp member
          cases guessed
        · dsimp only
          rw [rounds]
          exact List.pairwise_singleton _ _
      · refine ⟨(if_pos ⟨waiting, rfl⟩).symm, ?_⟩
        dsimp only
        rw [if_pos ⟨waiting, rfl⟩]
        change 0 < (history.game.players ++ [player]).length
        simp
    · have after : history.game.after (.addPlayer player) = history.game.joined player := by
        apply after_ok
        refine (run_addPlayer player history.game).trans ?_
        rw [if_pos waiting, if_neg full]
      unfold History.step
      rw [after]
      exact ⟨members, sound.limit, .inl ⟨waiting, empty⟩⟩
  · have same : history.game.after (.addPlayer player) = history.game := by
      apply after_error
      refine (run_addPlayer player history.game).trans ?_
      rw [if_neg waiting]
    rw [History.step_idle same (by simp [Operation.removes])]
    exact sound

theorem History.Sound.removePlayer {history : History} (sound : history.Sound) (player : Player) :
    (history.step (.removePlayer player)).Sound := by
  by_cases done : history.game.state = .completed
  · have same : history.game.after (.removePlayer player) = history.game := by
      apply after_error
      refine (run_removePlayer player history.game).trans ?_
      rw [if_neg (not_not.mpr done)]
    rw [History.step_idle same (by rw [done]; simp)]
    exact sound
  · have after : history.game.after (.removePlayer player) = { history.game with
        players := history.game.players.erase player
        state := if history.game.state = .inProgress then .terminated else history.game.state } := by
      apply after_ok
      refine (run_removePlayer player history.game).trans ?_
      rw [if_pos done]
    have members : (history.game.players.erase player).Nodup := sound.members.erase player
    unfold History.step
    rw [after]
    refine ⟨members, sound.limit, ?_⟩
    rcases sound.stage with ⟨waiting, empty⟩ | ⟨earlier, last, playing, standing⟩
    · refine .inl ⟨?_, empty⟩
      dsimp only
      rw [waiting]
      rfl
    · right
      have begun : ¬ (history.game.state = .waitingForPlayers ∧
          (if history.game.state = .inProgress then GameState.terminated else history.game.state) = .inProgress) := by
        rintro ⟨waiting, later⟩
        rw [waiting] at later
        cases later
      refine ⟨earlier, last, ?_, ?_⟩
      · dsimp only
        rw [if_neg begun]
        exact { playing with players := fun other member => playing.players (List.mem_of_mem_erase member) }
      · unfold Standing at standing ⊢
        dsimp only
        rw [if_neg begun]
        cases state : history.game.state with
        | waitingForPlayers =>
          rw [state] at standing
          exact standing.elim
        | inProgress =>
          rw [state] at standing
          exact .inl ⟨by simp [Operation.removes], standing.2⟩
        | completed => exact absurd state done
        | terminated =>
          rw [state] at standing
          rcases standing with ⟨left, short⟩ | agreed
          · exact .inl ⟨by rw [left, Bool.true_or], short⟩
          · exact .inr agreed

def Game.settled (game : Game) (round : Round) : Game :=
  if round.guesses.length = game.players.length then
    if round.uniqueGuesses.length = 1 then { game with state := .completed }
    else if game.roundLimit ≤ round.number then { game with state := .terminated }
    else { game with rounds := game.rounds ++ [{ number := round.number + 1 }] }
  else game

theorem Playing.settle {history : History} {earlier : List Round} {last : Round}
    (playing : Playing history earlier last) (state : history.game.state = .inProgress)
    (together : history.game.players = history.roster) (guessed : last.guesses ≠ []) :
    ∃ earlier' last', Playing { history with game := history.game.settled last } earlier' last' ∧
      Standing { history with game := history.game.settled last } last' := by
  unfold Game.settled
  by_cases full : last.guesses.length = history.game.players.length
  · have filled : last.Filled history.roster :=
      filled_of_length playing.guessers.1 playing.guessers.2 (by rw [full, together])
    rw [if_pos full]
    by_cases one : last.uniqueGuesses.length = 1
    · rw [if_pos one]
      exact ⟨earlier, last, { playing with }, filled, (length_uniqueGuesses.mp one).2⟩
    · have apart : ¬ last.Agreed := fun agreed => one (length_uniqueGuesses.mpr ⟨guessed, agreed⟩)
      rw [if_neg one]
      by_cases limit : history.game.roundLimit ≤ last.number
      · rw [if_pos limit]
        refine ⟨earlier, last, { playing with }, .inr ⟨filled, apart, ?_⟩⟩
        apply UInt32.toNat_inj.mp
        rw [UInt32.le_iff_toNat_le] at limit
        have bounded := playing.bounded
        have number := playing.number
        dsimp only
        omega
      · rw [if_neg limit]
        refine ⟨earlier ++ [last], _, playing.next filled apart limit, ?_⟩
        unfold Standing
        dsimp only
        rw [state]
        refine ⟨together, ?_⟩
        exact List.length_pos_of_ne_nil playing.roster.2
  · rw [if_neg full]
    refine ⟨earlier, last, { playing with }, ?_⟩
    unfold Standing
    rw [state]
    refine ⟨together, ?_⟩
    have few := (List.subperm_of_subset playing.guessers.1 playing.guessers.2).length_le
    rw [Round.guessers, List.length_map] at few
    rw [together] at full
    dsimp only
    omega

theorem History.Sound.addGuess {history : History} (sound : history.Sound) {player : Player} (guess : String)
    (allowed : player ∈ history.game.players) : (history.step (.addGuess player guess)).Sound := by
  have stays : ¬ (history.game.state = .inProgress ∧ (Operation.addGuess player guess).removes = true) := by
    simp [Operation.removes]
  rcases addGuess_cases player guess history.game with ⟨message, threw⟩ | same | ⟨round, word, state, current, silent,
    lower, fresh, ran⟩
  · have kept : history.game.after (.addGuess player guess) = history.game := by
      apply after_error
      exact threw
    rw [History.step_idle kept stays]
    exact sound
  · have kept : history.game.after (.addGuess player guess) = history.game := by
      apply after_ok
      exact same
    rw [History.step_idle kept stays]
    exact sound
  · rcases sound.stage with ⟨waiting, _⟩ | ⟨earlier, last, playing, standing⟩
    · rw [waiting] at state
      cases state
    · have same : round = last := by
        rw [Game.currentRound, playing.rounds, List.getLast?_concat] at current
        exact (Option.some.inj current).symm
      subst same
      unfold Standing at standing
      rw [state] at standing
      have after : history.game.after (.addGuess player guess) =
          (history.game.guessed (round.record player word)).settled (round.record player word) :=
        after_ok (ran.trans (run_settleRound _ _))
      have step : history.step (.addGuess player guess) =
          { history with game :=
            (history.game.guessed (round.record player word)).settled (round.record player word) } := by
        have began : ∀ later : GameState, ¬ (history.game.state = .waitingForPlayers ∧ later = .inProgress) := by
          intro later both
          rw [state] at both
          cases both.1
        have guesses : (Operation.addGuess player guess).removes = false := rfl
        unfold History.step
        rw [after, guesses, Bool.and_false, Bool.or_false]
        dsimp only
        rw [if_neg (began _)]
      have recorded := playing.record allowed silent lower fresh
      have settled := recorded.settle state standing.1 (by simp [Round.record])
      have limits : ((history.game.guessed (round.record player word)).settled (round.record player word)).players =
          history.game.players ∧
          ((history.game.guessed (round.record player word)).settled (round.record player word)).roundLimit =
            history.game.roundLimit := by
        unfold Game.settled
        repeat' split
        all_goals exact ⟨rfl, rfl⟩
      rw [step]
      refine ⟨?_, ?_, .inr settled⟩
      · dsimp only
        rw [limits.1]
        exact sound.members
      · dsimp only
        rw [limits.2]
        exact sound.limit

theorem History.Sound.step {history : History} (sound : history.Sound) {operation : Operation}
    (allowed : operation.Allowed history.game) : (history.step operation).Sound := by
  cases operation with
  | addPlayer player => exact sound.addPlayer allowed
  | addGuess player guess => exact sound.addGuess guess allowed
  | removePlayer player => exact sound.removePlayer player

theorem History.Sound.run {history : History} (sound : history.Sound) {operations : List Operation}
    (allowed : history.Allowed operations) : (history.run operations).Sound := by
  induction operations generalizing history with
  | nil => exact sound
  | cons operation rest ih => exact ih (sound.step allowed.1) allowed.2

structure History.ByTheRules (history : History) : Prop where
  numbered : history.game.rounds.map (fun round => round.number.toNat) = List.range' 1 history.game.rounds.length ∧
    history.game.rounds.length ≤ history.game.roundLimit.toNat
  /-- Players may leave, but nobody joins once play has begun. -/
  players : history.game.state ≠ .waitingForPlayers → history.game.players ⊆ history.roster
  present : history.game.state = .inProgress → history.game.players = history.roster
  settled : ∀ round ∈ history.game.rounds.dropLast, round.Filled history.roster ∧
    ∃ word ∈ round.words, ∃ other ∈ round.words, word ≠ other
  fresh : history.game.rounds.Pairwise fun before after =>
    ∀ word ∈ before.words, ∀ other ∈ after.words, lowercase word ≠ lowercase other
  completed : history.game.state = .completed ↔ ∃ last, history.game.rounds.getLast? = some last ∧
    last.Filled history.roster ∧ last.Agreed
  terminated : history.game.state = .terminated → history.left = true ∨ ∃ last,
    history.game.rounds.getLast? = some last ∧ last.number = history.game.roundLimit ∧
      last.Filled history.roster ∧ ∃ word ∈ last.words, ∃ other ∈ last.words, word ≠ other
  /-- An ended game keeps its state and its rounds, whatever is tried on it. -/
  ended : history.game.hasEnded = true → ∀ operation : Operation, (history.game.after operation).state = history.game.state ∧
    (history.game.after operation).rounds = history.game.rounds
  throws : ∀ (operation : Operation) (message : String) (left : Game), operation.perform.run history.game = .error message left → left = history.game
  dto : ∃ dto, history.game.toDto = .ok dto

omit [RootLocale] in
theorem differ_of_not_agreed {round : Round} (apart : ¬ round.Agreed) :
    ∃ word ∈ round.words, ∃ other ∈ round.words, word ≠ other := by
  by_contra none
  apply apart
  cases words : round.words with
  | nil => exact ⟨"", fun other member => by rw [words] at member; cases member⟩
  | cons first rest =>
    refine ⟨first, ?_⟩
    intro other member
    by_contra differs
    exact none ⟨other, member, first, by rw [words]; exact List.mem_cons_self, differs⟩

theorem throws_unchanged {game left : Game} {operation : Operation} {message : String}
    (threw : operation.perform.run game = .error message left) : left = game := by
  cases operation with
  | addPlayer player =>
    have ran := (run_addPlayer player game).symm.trans threw
    split at ran
    · cases ran
    · cases ran
      rfl
  | addGuess player guess =>
    rcases addGuess_cases player guess game with ⟨_, same⟩ | same | ⟨_, _, _, _, _, _, _, same⟩
    · have both := same.symm.trans threw
      cases both
      rfl
    · have both := same.symm.trans threw
      cases both
    · have both := same.symm.trans threw
      rw [run_settleRound] at both
      cases both
  | removePlayer player =>
    have ran := (run_removePlayer player game).symm.trans threw
    split at ran
    · cases ran
    · cases ran
      rfl

theorem ended_stays {game : Game} (ended : game.hasEnded = true) (operation : Operation) :
    (game.after operation).state = game.state ∧ (game.after operation).rounds = game.rounds := by
  have ended : game.state = .completed ∨ game.state = .terminated := by
    simpa [Game.hasEnded] using ended
  have idle : ∀ message, operation.perform.run game = .error message game →
      (game.after operation).state = game.state ∧ (game.after operation).rounds = game.rounds := by
    intro message threw
    rw [after_error threw]
    exact ⟨rfl, rfl⟩
  cases operation with
  | addPlayer player =>
    apply idle
    refine (run_addPlayer player game).trans (if_neg ?_)
    rcases ended with ended | ended <;> rw [ended] <;> decide
  | addGuess player guess =>
    rcases addGuess_cases player guess game with ⟨message, same⟩ | same | ⟨_, _, playing, _⟩
    · exact idle message same
    · have kept : game.after (.addGuess player guess) = game := by
        apply after_ok
        exact same
      rw [kept]
      exact ⟨rfl, rfl⟩
    · rw [playing] at ended
      rcases ended with ended | ended <;> cases ended
  | removePlayer player =>
    rcases ended with ended | ended
    · apply idle
      refine (run_removePlayer player game).trans (if_neg ?_)
      exact not_not.mpr ended
    · have after : game.after (.removePlayer player) = { game with
          players := game.players.erase player
          state := if game.state = .inProgress then .terminated else game.state } := by
        apply after_ok
        refine (run_removePlayer player game).trans (if_pos ?_)
        rw [ended]
        decide
      rw [after, ended]
      exact ⟨rfl, rfl⟩

theorem History.Sound.byTheRules {history : History} (sound : history.Sound) : history.ByTheRules := by
  rcases sound.stage with ⟨waiting, empty⟩ | ⟨earlier, last, playing, standing⟩
  · refine ⟨?_, ?_, ?_, ?_, ?_, ?_, ?_, ended_stays, fun _ _ _ => throws_unchanged, ?_⟩
    · rw [empty]
      exact ⟨rfl, Nat.zero_le _⟩
    · intro begun
      exact absurd waiting begun
    · intro playing
      rw [waiting] at playing
      cases playing
    · rw [empty]
      intro round member
      cases member
    · rw [empty]
      exact List.Pairwise.nil
    · rw [waiting, empty]
      constructor
      · intro done
        cases done
      · rintro ⟨_, absent, _⟩
        cases absent
    · rw [waiting]
      intro ended
      cases ended
    · unfold Game.toDto Game.getFinalGuess
      rw [waiting, if_neg (by decide)]
      exact ⟨_, rfl⟩
  · have latest : history.game.rounds.getLast? = some last := by
      rw [playing.rounds, List.getLast?_concat]
    have whole : last.Filled history.roster → last.guesses.length = history.roster.length := by
      intro filled
      rw [← filled.length_eq, Round.guessers, List.length_map]
    unfold Standing at standing
    refine ⟨⟨playing.numbered, playing.bounded⟩, fun _ => playing.players, ?_, ?_, ?_, ?_, ?_, ended_stays,
      fun _ _ _ => throws_unchanged, ?_⟩
    · intro state
      rw [state] at standing
      exact standing.1
    · rw [playing.rounds, List.dropLast_concat]
      intro round member
      exact ⟨(playing.settled round member).1, differ_of_not_agreed (playing.settled round member).2⟩
    · refine playing.fresh.imp_of_mem ?_
      intro before after earlier later apart word used other guessed same
      rw [playing.lower before earlier word used, playing.lower after later other guessed] at same
      rw [same] at used
      exact apart other used guessed
    · constructor
      · intro state
        rw [state] at standing
        exact ⟨last, latest, standing⟩
      · rintro ⟨final, found, filled, agreed⟩
        rw [latest] at found
        cases found
        have length := whole filled
        cases state : history.game.state with
        | waitingForPlayers =>
          rw [state] at standing
          exact standing.elim
        | inProgress =>
          rw [state] at standing
          exact absurd length (Nat.ne_of_lt standing.2)
        | completed => rfl
        | terminated =>
          rw [state] at standing
          rcases standing with ⟨_, short⟩ | ⟨_, apart, _⟩
          · exact absurd length (Nat.ne_of_lt short)
          · exact absurd agreed apart
    · intro state
      rw [state] at standing
      rcases standing with ⟨left, _⟩ | ⟨filled, apart, number⟩
      · exact .inl left
      · exact .inr ⟨last, latest, number, filled, differ_of_not_agreed apart⟩
    · unfold Game.toDto Game.getFinalGuess
      by_cases state : history.game.state = .completed
      · rw [state] at standing
        have nonempty : last.uniqueGuesses ≠ [] := by
          have guessed : last.guesses ≠ [] := by
            intro none
            have length := whole standing.1
            rw [none] at length
            exact playing.roster.2 (List.length_eq_zero_iff.mp length.symm)
          have one := length_uniqueGuesses.mpr ⟨guessed, standing.2⟩
          intro none
          rw [none] at one
          cases one
        rw [if_pos state, Game.currentRound, latest]
        dsimp only
        cases unique : last.uniqueGuesses with
        | nil => exact absurd unique nonempty
        | cons first rest => exact ⟨_, rfl⟩
      · rw [if_neg state]
        exact ⟨_, rfl⟩

def newGame (id : GameId) (playerLimit roundLimit : UInt32) : Game := { id, playerLimit, roundLimit }

theorem after_roundLimit (game : Game) (operation : Operation) :
    (game.after operation).roundLimit = game.roundLimit := by
  unfold Game.after
  cases operation with
  | addPlayer player =>
    unfold Operation.perform
    dsimp only
    rw [run_addPlayer]
    by_cases waiting : game.state = .waitingForPlayers
    · rw [if_pos waiting]
      dsimp only
      split <;> rfl
    · rw [if_neg waiting]
  | addGuess player guess =>
    unfold Operation.perform
    dsimp only
    rcases addGuess_cases player guess game with ⟨_, same⟩ | same | ⟨_, _, _, _, _, _, _, same⟩
    · rw [same]
    · rw [same]
    · rw [same, run_settleRound]
      dsimp only
      repeat' split
      all_goals rfl
  | removePlayer player =>
    unfold Operation.perform
    dsimp only
    rw [run_removePlayer]
    by_cases done : game.state ≠ .completed
    · rw [if_pos done]
    · rw [if_neg done]

theorem run_roundLimit (history : History) (operations : List Operation) :
    (history.run operations).game.roundLimit = history.game.roundLimit := by
  induction operations generalizing history with
  | nil => rfl
  | cons operation rest ih =>
    exact (ih (history.step operation)).trans (after_roundLimit history.game operation)

/-- A game that is run as the handler runs it is played by the rules throughout. -/
theorem game_is_played_by_the_rules (id : GameId) (playerLimit roundLimit : UInt32) (limit : 1 ≤ roundLimit)
    (operations : List Operation)
    (allowed : History.Allowed { game := newGame id playerLimit roundLimit } operations) :
    (History.run { game := newGame id playerLimit roundLimit } operations).ByTheRules ∧
      (History.run { game := newGame id playerLimit roundLimit } operations).game.roundLimit = roundLimit := by
  have start : History.Sound { game := newGame id playerLimit roundLimit } :=
    ⟨List.nodup_nil, UInt32.le_iff_toNat_le.mp limit, .inl ⟨rfl, rfl⟩⟩
  exact ⟨(start.run allowed).byTheRules, run_roundLimit _ operations⟩

omit [RootLocale] in
theorem toLower_toLower (c : Char) : c.toLower.toLower = c.toLower := by
  by_cases upper : 'A'.val ≤ c.val ∧ c.val ≤ 'Z'.val
  · have lower : c.toLower.val = c.val + 32 := by
      rw [Char.toLower.eq_def, dif_pos upper]
      rfl
    have apart : ¬ ('A'.val ≤ c.toLower.val ∧ c.toLower.val ≤ 'Z'.val) := by
      have first : ('A'.val).toNat = 65 := rfl
      have last : ('Z'.val).toNat = 90 := rfl
      have shift : (32 : UInt32).toNat = 32 := rfl
      rw [lower]
      simp only [UInt32.le_iff_toNat_le] at upper ⊢
      rw [UInt32.toNat_add]
      omega
    rw [Char.toLower.eq_def c.toLower, dif_neg apart]
  · have same : c.toLower = c := by
      rw [Char.toLower.eq_def, dif_neg upper]
    rw [same, same]

abbrev asciiLocale : RootLocale where
  lowercase := String.map Char.toLower
  again := by
    intro text
    apply String.toList_inj.mp
    simp only [String.toList_map, List.map_map]
    congr 1
    funext c
    exact toLower_toLower c

instance (game : Game) (operation : Operation) : Decidable (operation.Allowed game) :=
  match operation with
  | .addPlayer player => inferInstanceAs (Decidable (player ∉ game.players))
  | .addGuess player _ => inferInstanceAs (Decidable (player ∈ game.players))
  | .removePlayer player => inferInstanceAs (Decidable (player ∈ game.players))

instance decidableAllowed (history : History) (operations : List Operation) : Decidable (history.Allowed operations) :=
  match operations with
  | [] => inferInstanceAs (Decidable True)
  | operation :: rest =>
    have : Decidable ((history.step operation).Allowed rest) := decidableAllowed _ rest
    inferInstanceAs (Decidable (operation.Allowed history.game ∧ (history.step operation).Allowed rest))

def quickFox : Player := ⟨⟨"quick_fox"⟩⟩

def slowOwl : Player := ⟨⟨"slow_owl"⟩⟩

def agreement : List Operation :=
  [.addPlayer quickFox, .addPlayer slowOwl, .addGuess quickFox "Cat", .addGuess slowOwl " dog ",
    .addGuess quickFox "cat", .addGuess quickFox "Pet", .addGuess slowOwl "pet"]

omit [RootLocale] in
theorem game_is_played_by_the_rules_agreement :
    @History.Allowed asciiLocale { game := newGame ⟨"1"⟩ 2 10 } agreement ∧
      (@History.run asciiLocale { game := newGame ⟨"1"⟩ 2 10 } agreement).game.state = .completed ∧
      @History.ByTheRules asciiLocale (@History.run asciiLocale { game := newGame ⟨"1"⟩ 2 10 } agreement) := by
  have allowed : @History.Allowed asciiLocale { game := newGame ⟨"1"⟩ 2 10 } agreement := by decide +kernel
  exact ⟨allowed, by decide +kernel,
    (@game_is_played_by_the_rules asciiLocale ⟨"1"⟩ 2 10 (by decide) agreement allowed).1⟩

omit [RootLocale] in
/-- One of two players leaves after the other guessed: the last round holds the word of every player that is
left, and the game is terminated. -/
theorem last_word_of_everyone_left :
    let operations : List Operation :=
      [.addPlayer quickFox, .addPlayer slowOwl, .addGuess quickFox "cat", .removePlayer slowOwl]
    let history := @History.run asciiLocale { game := newGame ⟨"1"⟩ 2 10 } operations
    @History.Allowed asciiLocale { game := newGame ⟨"1"⟩ 2 10 } operations ∧
      history.game.players = [quickFox] ∧
      history.game.rounds.getLast? = some { number := 1, guesses := [(quickFox, "cat")] } ∧
      history.game.state = .terminated := by
  decide +kernel

end Mindreadr

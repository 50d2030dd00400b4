import BazelRepo.Library.Text
import Mathlib.Data.List.Basic

namespace Mindreadr

/-- The locale-independent lowercase mapping; a text it has mapped it leaves alone. -/
class RootLocale where
  lowercase : String → String
  again : ∀ text, lowercase (lowercase text) = lowercase text

open RootLocale (lowercase)

/-- Whitespace as the standard library of the source has it on its platform. -/
def isWhitespace (c : Char) : Bool :=
  let n := c.toNat
  (0x09 ≤ n && n ≤ 0x0D) || (0x1C ≤ n && n ≤ 0x20) || n == 0xA0 || n == 0x1680 ||
    (0x2000 ≤ n && n ≤ 0x200A) || n == 0x2028 || n == 0x2029 || n == 0x202F || n == 0x205F || n == 0x3000

def trim (text : String) : String :=
  String.ofList ((text.toList.dropWhile isWhitespace).reverse.dropWhile isWhitespace).reverse

structure GameId where
  id : String
  deriving DecidableEq

structure PlayerName where
  name : String
  deriving DecidableEq

structure Player where
  name : PlayerName
  deriving DecidableEq

inductive GameState where
  | waitingForPlayers
  | inProgress
  | completed
  | terminated
  deriving DecidableEq

instance : ToString GameState where
  toString
    | .waitingForPlayers => "WAITING_FOR_PLAYERS"
    | .inProgress => "IN_PROGRESS"
    | .completed => "COMPLETED"
    | .terminated => "TERMINATED"

structure Round where
  number : UInt32
  guesses : List (Player × String) := []
  deriving DecidableEq

def Round.words (round : Round) : List String := round.guesses.map Prod.snd

def Round.guessers (round : Round) : List Player := round.guesses.map Prod.fst

def Round.containsKey (round : Round) (player : Player) : Bool := round.guessers.contains player

def Round.uniqueGuesses (round : Round) : List String := round.words.eraseDups

structure Game where
  id : GameId
  playerLimit : UInt32 := 2
  roundLimit : UInt32 := 10
  players : List Player := []
  rounds : List Round := []
  state : GameState := .waitingForPlayers
  deriving DecidableEq

/-- An operation on a game: it may throw, and the game is then as it left it. -/
abbrev GameM := EStateM String Game

def check (condition : Prop) [Decidable condition] (message : String) : GameM Unit :=
  if condition then pure () else throw message

def checkNotNull {α : Type} (value : Option α) (message : String) : GameM α :=
  match value with
  | some value => pure value
  | none => throw message

def Game.currentRound (game : Game) : Option Round := game.rounds.getLast?

def addPlayer (player : Player) : GameM Unit := do
  let game ← get
  check (game.state = .waitingForPlayers) s!"Cannot add player. Game is in {game.state} state."
  let game := { game with players := game.players ++ [player] }
  set game
  -- The limit is compared as a signed integer of 32 bits.
  if (game.players.length : Int) = game.playerLimit.toInt32.toInt then
    set ({ game with rounds := game.rounds ++ [{ number := 1 }], state := .inProgress } : Game)

def previouslyUsedGuesses [RootLocale] (game : Game) : List String :=
  (game.rounds.dropLast.flatMap Round.words).map lowercase

def settleRound (round : Round) : GameM Unit := do
  let game ← get
  if round.guesses.length = game.players.length then
    if round.uniqueGuesses.length = 1 then set ({ game with state := .completed } : Game)
    else if game.roundLimit ≤ round.number then set ({ game with state := .terminated } : Game)
    else set ({ game with rounds := game.rounds ++ [{ number := round.number + 1 }] } : Game)

def acceptGuess [RootLocale] (game : Game) (guess : String) : GameM String := do
  let trimmed := trim guess
  check (trimmed ≠ "") "Guess cannot be empty or whitespace."
  check (' ' ∉ trimmed.toList) "Guess must be a single word without spaces."
  let normalized := lowercase trimmed
  check (normalized ∉ previouslyUsedGuesses game)
    s!"Guess '{guess}' has already been used (case-insensitive) in a previous round."
  pure normalized

def addGuess [RootLocale] (player : Player) (guess : String) : GameM Unit := do
  let game ← get
  check (game.state = .inProgress) s!"Cannot add guess. Game is in {game.state} state."
  let round ← checkNotNull game.currentRound "Cannot add guess. No current round."
  if round.containsKey player then pure ()
  else do
    let normalized ← acceptGuess game guess
    let round := { round with guesses := round.guesses ++ [(player, normalized)] }
    set ({ game with rounds := game.rounds.dropLast ++ [round] } : Game)
    settleRound round

def removePlayer (player : Player) : GameM Unit := do
  let game ← get
  check (game.state ≠ .completed) s!"Cannot remove player. Game is in {game.state} state."
  let game := { game with players := game.players.erase player }
  set game
  if game.state = .inProgress then set ({ game with state := .terminated } : Game)

def Game.hasEnded (game : Game) : Bool := game.state = .completed || game.state = .terminated

def Game.getFinalGuess (game : Game) : Except String (Option String) :=
  if game.state = .completed then
    match game.currentRound with
    | none => .error "Game is completed but no current round."
    | some round =>
      match round.uniqueGuesses with
      | [] => .error "Collection is empty."
      | first :: _ => .ok (some first)
  else .ok none

structure RoundDto where
  number : UInt32
  guesses : List (String × String)
  deriving DecidableEq

structure GameDto where
  id : GameId
  playerLimit : UInt32
  roundLimit : UInt32
  players : List Player
  rounds : List RoundDto
  state : GameState
  finalGuess : Option String
  deriving DecidableEq

def putEntry (entries : List (String × String)) (entry : String × String) : List (String × String) :=
  if entries.any (fun other => other.1 == entry.1) then
    entries.map fun other => if other.1 = entry.1 then entry else other
  else entries ++ [entry]

def Round.toDto (round : Round) : RoundDto :=
  { number := round.number
    guesses := (round.guesses.map fun (player, guess) => (player.name.name, guess)).foldl putEntry [] }

def Game.toDto (game : Game) : Except String GameDto := do
  let finalGuess ← game.getFinalGuess
  .ok
    { id := game.id
      playerLimit := game.playerLimit
      roundLimit := game.roundLimit
      players := game.players
      rounds := game.rounds.map Round.toDto
      state := game.state
      finalGuess }

section Running

variable {α : Type} (game : Game)

theorem run_get_bind (next : Game → GameM α) : (get >>= next).run game = (next game).run game := rfl

theorem run_set_bind (other : Game) (next : PUnit → GameM α) : (set other >>= next).run game = (next ⟨⟩).run other := rfl

theorem run_set (other : Game) : (set other : GameM PUnit).run game = .ok ⟨⟩ other := rfl

theorem run_pure (a : α) : (pure a : GameM α).run game = .ok a game := rfl

theorem run_check_bind (condition : Prop) [Decidable condition] (message : String) (next : Unit → GameM α) :
    (check condition message >>= next).run game =
      if condition then (next ()).run game else .error message game := by
  unfold check
  by_cases holds : condition
  · rw [if_pos holds, if_pos holds]
    rfl
  · rw [if_neg holds, if_neg holds]
    rfl

theorem run_checkNotNull_bind {β : Type} (value : β) (message : String) (next : β → GameM α) :
    (checkNotNull (some value) message >>= next).run game = (next value).run game := rfl

theorem run_bind_ok {β : Type} {first : GameM β} {next : β → GameM α} {value : β} {game other : Game}
    (ran : first.run game = .ok value other) : (first >>= next).run game = (next value).run other := by
  change EStateM.bind first next game = _
  unfold EStateM.bind
  rw [show first game = .ok value other from ran]
  rfl

theorem run_bind_error {β : Type} {first : GameM β} {next : β → GameM α} {message : String} {game other : Game}
    (ran : first.run game = .error message other) : (first >>= next).run game = .error message other := by
  change EStateM.bind first next game = _
  unfold EStateM.bind
  rw [show first game = .error message other from ran]

theorem run_ite (condition : Prop) [Decidable condition] (yes no : GameM α) :
    (if condition then yes else no).run game = if condition then yes.run game else no.run game := by
  split <;> rfl

end Running

def Game.joined (game : Game) (player : Player) : Game := { game with players := game.players ++ [player] }

def Game.started (game : Game) : Game :=
  { game with rounds := game.rounds ++ [{ number := 1 }], state := .inProgress }

theorem run_addPlayer (player : Player) (game : Game) : (addPlayer player).run game =
    if game.state = .waitingForPlayers then
      .ok () (if ((game.joined player).players.length : Int) = game.playerLimit.toInt32.toInt then
        (game.joined player).started else game.joined player)
    else .error s!"Cannot add player. Game is in {game.state} state." game := by
  unfold addPlayer
  rw [run_get_bind, run_check_bind]
  by_cases waiting : game.state = .waitingForPlayers
  · rw [if_pos waiting, if_pos waiting]
    dsimp only
    rw [run_set_bind, run_ite, run_set, run_pure]
    change (if ((game.joined player).players.length : Int) = game.playerLimit.toInt32.toInt then
      EStateM.Result.ok () (game.joined player).started else .ok () (game.joined player)) = _
    split <;> rfl
  · rw [if_neg waiting, if_neg waiting]

def Game.guessed (game : Game) (round : Round) : Game := { game with rounds := game.rounds.dropLast ++ [round] }

def Round.record (round : Round) (player : Player) (word : String) : Round :=
  { round with guesses := round.guesses ++ [(player, word)] }

theorem run_settleRound (round : Round) (game : Game) : (settleRound round).run game = .ok ()
    (if round.guesses.length = game.players.length then
      if round.uniqueGuesses.length = 1 then { game with state := .completed }
      else if game.roundLimit ≤ round.number then { game with state := .terminated }
      else { game with rounds := game.rounds ++ [{ number := round.number + 1 }] }
    else game) := by
  unfold settleRound
  rw [run_get_bind, run_ite]
  split
  · rw [run_ite]
    split
    · rfl
    · rw [run_ite]
      split <;> rfl
  · rfl

theorem run_removePlayer (player : Player) (game : Game) : (removePlayer player).run game =
    if game.state ≠ .completed then
      .ok () { game with
        players := game.players.erase player
        state := if game.state = .inProgress then .terminated else game.state }
    else .error s!"Cannot remove player. Game is in {game.state} state." game := by
  unfold removePlayer
  rw [run_get_bind, run_check_bind]
  split
  · dsimp only
    rw [run_set_bind, run_ite, run_set, run_pure]
    split <;> rfl
  · rfl

variable [RootLocale]

theorem acceptGuess_cases (game game' : Game) (guess : String) :
    (∃ message, (acceptGuess game guess).run game' = .error message game') ∨
      ∃ word, (acceptGuess game guess).run game' = .ok word game' ∧ lowercase word = word ∧
        word ∉ previouslyUsedGuesses game := by
  unfold acceptGuess
  rw [run_check_bind]
  split
  · rw [run_check_bind]
    split
    · dsimp only
      rw [run_check_bind]
      split
      · rename_i fresh
        exact .inr ⟨_, rfl, RootLocale.again _, fresh⟩
      · exact .inl ⟨_, rfl⟩
    · exact .inl ⟨_, rfl⟩
  · exact .inl ⟨_, rfl⟩

theorem addGuess_cases (player : Player) (guess : String) (game : Game) :
    (∃ message, (addGuess player guess).run game = .error message game) ∨
      (addGuess player guess).run game = .ok () game ∨
      ∃ round word, game.state = .inProgress ∧ game.currentRound = some round ∧ player ∉ round.guessers ∧
        lowercase word = word ∧ word ∉ previouslyUsedGuesses game ∧
        (addGuess player guess).run game =
          (settleRound (round.record player word)).run (game.guessed (round.record player word)) := by
  unfold addGuess
  rw [run_get_bind, run_check_bind]
  split
  · rename_i playing
    cases current : game.currentRound with
    | none => exact .inl ⟨_, rfl⟩
    | some round =>
      rw [run_checkNotNull_bind, run_ite]
      split
      · exact .inr (.inl rfl)
      · rename_i silent
        rcases acceptGuess_cases game game guess with ⟨message, refused⟩ | ⟨word, accepted, lower, fresh⟩
        · rw [run_bind_error refused]
          exact .inl ⟨message, rfl⟩
        · rw [run_bind_ok accepted]
          refine .inr (.inr ⟨round, word, playing, rfl, ?_, lower, fresh, rfl⟩)
          rw [Round.containsKey, List.contains_iff_mem] at silent
          exact silent
  · exact .inl ⟨_, rfl⟩

end Mindreadr

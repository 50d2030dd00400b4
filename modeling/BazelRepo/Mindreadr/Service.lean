import BazelRepo.Mindreadr.Play
import Mathlib.Data.List.Dedup

namespace Mindreadr

structure Resources where
  adjectives : List String
  nouns : List String

abbrev Resources.Draw (resources : Resources) := Fin resources.adjectives.length × Fin resources.nouns.length

def Resources.name (resources : Resources) (draw : resources.Draw) : String :=
  s!"{resources.adjectives[draw.1]}_{resources.nouns[draw.2]}"

def Resources.names (resources : Resources) : List String :=
  (resources.adjectives.flatMap fun adjective => resources.nouns.map fun noun => s!"{adjective}_{noun}").dedup

def oneName : Resources := { adjectives := ["quick"], nouns := ["fox"] }

/-- The games that were created, each known by its number; those that are stored, by their ids; and the names that were
given to players. -/
structure Service where
  objects : List Game := []
  games : List (GameId × Nat) := []
  existingNames : List String := []
  deriving DecidableEq

def putGame (games : List (GameId × Nat)) (entry : GameId × Nat) : List (GameId × Nat) :=
  if games.any (fun other => other.1 == entry.1) then games.map fun other => if other.1 = entry.1 then entry else other
  else games ++ [entry]

def Service.getGameById (service : Service) (gameId : GameId) : Option Nat :=
  (service.games.find? fun entry => entry.1 = gameId).map Prod.snd

def Service.nextId (service : Service) : GameId := ⟨toString (service.games.length + 1)⟩

def Service.newGame (service : Service) : Service × Nat :=
  let game : Game := { id := service.nextId }
  ({ service with
      objects := service.objects ++ [game]
      games := putGame service.games (game.id, service.objects.length) }, service.objects.length)

def Service.deleteGame (service : Service) (gameId : GameId) : Service :=
  { service with games := service.games.filter fun entry => entry.1 ≠ gameId }

/-- The tries for a name, up to the first that no player was given; within these tries there may be none. -/
def pickName (resources : Resources) (existingNames : List String) : List resources.Draw → Option String
  | [] => none
  | draw :: rest =>
    if resources.name draw ∈ existingNames then pickName resources existingNames rest else some (resources.name draw)

def Service.createPlayer (resources : Resources) (service : Service) (draws : List resources.Draw) :
    Option (Service × Player) :=
  (pickName resources service.existingNames draws).map fun name =>
    ({ service with existingNames := service.existingNames ++ [name] }, ⟨⟨name⟩⟩)

def Service.removeName (service : Service) (name : PlayerName) : Service :=
  { service with existingNames := service.existingNames.filter (· ≠ name.name) }

inductive Call (resources : Resources) where
  | createGame
  | addPlayerToGame (gameId : GameId) (draws : List resources.Draw)
  | removePlayerFromGame (player : Player) (gameId : GameId)
  | addGuessToGame (player : Player) (gameId : GameId) (guess : String)
  | removeGame (gameId : GameId)

inductive Answer where
  | game (number : Nat)
  | player (player : Player)
  | unit
  | failed (message : String)
  deriving DecidableEq

variable [RootLocale]

def Service.perform (service : Service) (number : Nat) (operation : Operation) (answer : Answer) : Service × Answer :=
  match service.objects[number]? with
  | none => (service, answer)
  | some game =>
    match operation.perform.run game with
    | .ok _ left => ({ service with objects := service.objects.set number left }, answer)
    | .error message left => ({ service with objects := service.objects.set number left }, .failed message)

def Service.withGame (service : Service) (gameId : GameId) (call : Nat → Option (Service × Answer)) :
    Option (Service × Answer) :=
  match service.getGameById gameId with
  | none => some (service, .failed s!"Game with id GameId(id={gameId.id}) not found")
  | some number => call number

/-- A call with its answer; none where the tries for a name are not at their end. -/
def Service.step (resources : Resources) (service : Service) : Call resources → Option (Service × Answer)
  | .createGame => some (service.newGame.1, .game service.newGame.2)
  | .addPlayerToGame gameId draws => service.withGame gameId fun number =>
    -- A pick from an empty list throws.
    if resources.adjectives = [] ∨ resources.nouns = [] then some (service, .failed "Collection is empty.")
    else (service.createPlayer resources draws).map fun created =>
      created.1.perform number (.addPlayer created.2) (.player created.2)
  | .removePlayerFromGame player gameId => service.withGame gameId fun number =>
    some (service.perform number (.removePlayer player) (.game number))
  | .addGuessToGame player gameId guess => service.withGame gameId fun number =>
    some (service.perform number (.addGuess player guess) .unit)
  | .removeGame gameId => some (service.deleteGame gameId, .unit)

def Service.run (resources : Resources) (service : Service) : List (Call resources) → Option Service
  | [] => some service
  | call :: rest => (service.step resources call).bind fun stepped => stepped.1.run resources rest

/-- The call that the end of a connection makes: the player leaves a game that goes on. -/
def Service.disconnect (resources : Resources) (service : Service) (player : Player) (gameId : GameId) :
    Option (Call resources) :=
  match (service.getGameById gameId).bind fun number => service.objects[number]? with
  | none => none
  | some game => if game.hasEnded then none else some (.removePlayerFromGame player gameId)

section

variable {resources : Resources} {service : Service}

@[simp] theorem games_perform (number : Nat) (operation : Operation) (answer : Answer) :
    (service.perform number operation answer).1.games = service.games := by
  unfold Service.perform
  split
  · rfl
  · split <;> rfl

@[simp] theorem existingNames_perform (number : Nat) (operation : Operation) (answer : Answer) :
    (service.perform number operation answer).1.existingNames = service.existingNames := by
  unfold Service.perform
  split
  · rfl
  · split <;> rfl

@[simp] theorem length_objects_perform (number : Nat) (operation : Operation) (answer : Answer) :
    (service.perform number operation answer).1.objects.length = service.objects.length := by
  unfold Service.perform
  split
  · rfl
  · split
    · rw [List.length_set]
    · rw [List.length_set]

theorem objects_perform (number : Nat) (operation : Operation) (answer : Answer) :
    (service.perform number operation answer).1.objects =
      service.objects.modify number fun game => game.after operation := by
  unfold Service.perform
  cases found : service.objects[number]? with
  | none =>
    dsimp only
    rw [List.modify_eq_self (List.getElem?_eq_none_iff.mp found)]
  | some game =>
    rw [List.modify_eq_set_getElem?, found]
    unfold Game.after
    cases ran : operation.perform.run game with
    | ok _ left => simp [ran]
    | error _ left => simp [ran]

omit [RootLocale] in
theorem withGame_eq_some {gameId : GameId} {call : Nat → Option (Service × Answer)} {stepped : Service × Answer}
    (performed : service.withGame gameId call = some stepped) : stepped.1 = service ∨
      ∃ number, service.getGameById gameId = some number ∧ call number = some stepped := by
  unfold Service.withGame at performed
  split at performed
  · cases performed
    exact .inl rfl
  · rename_i number found
    exact .inr ⟨number, found, performed⟩

omit [RootLocale] in
theorem pickName_eq_some {existingNames : List String} {draws : List resources.Draw} {name : String}
    (picked : pickName resources existingNames draws = some name) :
    name ∉ existingNames ∧ ∃ draw ∈ draws, resources.name draw = name := by
  induction draws with
  | nil => cases picked
  | cons draw rest ih =>
    unfold pickName at picked
    split at picked
    · rcases ih picked with ⟨fresh, later, member, same⟩
      exact ⟨fresh, later, List.mem_cons_of_mem _ member, same⟩
    · rename_i fresh
      cases picked
      exact ⟨fresh, draw, List.mem_cons_self, rfl⟩

/-- What a call does to the service: it creates or deletes a game, or it performs an operation on one, for which a join
gives out a name first. -/
theorem step_cases {call : Call resources} {stepped : Service × Answer}
    (performed : service.step resources call = some stepped) :
    (call = .createGame ∧ stepped.1 = service.newGame.1) ∨
      (∃ gameId, call = .removeGame gameId ∧ stepped.1 = service.deleteGame gameId) ∨
      (call ≠ .createGame ∧ (∀ gameId, call ≠ .removeGame gameId) ∧ stepped.1.games = service.games ∧
        stepped.1.objects.length = service.objects.length) := by
  cases call with
  | createGame =>
    cases performed
    exact .inl ⟨rfl, rfl⟩
  | removeGame gameId =>
    cases performed
    exact .inr (.inl ⟨gameId, rfl, rfl⟩)
  | addPlayerToGame gameId draws =>
    refine .inr (.inr ⟨nofun, nofun, ?_⟩)
    rcases withGame_eq_some performed with same | ⟨number, _, joined⟩
    · rw [same]
      exact ⟨rfl, rfl⟩
    · split at joined
      · cases joined
        exact ⟨rfl, rfl⟩
      · rcases Option.map_eq_some_iff.mp joined with ⟨created, made, rfl⟩
        rcases Option.map_eq_some_iff.mp made with ⟨name, _, rfl⟩
        exact ⟨games_perform _ _ _, length_objects_perform _ _ _⟩
  | removePlayerFromGame player gameId =>
    refine .inr (.inr ⟨nofun, nofun, ?_⟩)
    rcases withGame_eq_some performed with same | ⟨number, _, left⟩
    · rw [same]
      exact ⟨rfl, rfl⟩
    · cases left
      exact ⟨games_perform _ _ _, length_objects_perform _ _ _⟩
  | addGuessToGame player gameId guess =>
    refine .inr (.inr ⟨nofun, nofun, ?_⟩)
    rcases withGame_eq_some performed with same | ⟨number, _, guessed⟩
    · rw [same]
      exact ⟨rfl, rfl⟩
    · cases guessed
      exact ⟨games_perform _ _ _, length_objects_perform _ _ _⟩

end

end Mindreadr

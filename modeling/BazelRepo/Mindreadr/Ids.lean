import BazelRepo.Mindreadr.Service
import Mathlib.Data.List.Nodup
import Std.Data.String.ToNat

namespace Mindreadr

theorem gameId_inj {size size' : Nat} (same : (⟨toString (size + 1)⟩ : GameId) = ⟨toString (size' + 1)⟩) :
    size = size' := by
  have texts : (size + 1).repr = (size' + 1).repr := GameId.mk.inj same
  have numbers := Nat.repr_inj.mp texts
  omega

theorem mem_putGame {games : List (GameId × Nat)} {entry other : GameId × Nat} (member : other ∈ putGame games entry) :
    other = entry ∨ other ∈ games := by
  unfold putGame at member
  split at member
  · rcases List.mem_map.mp member with ⟨before, listed, rfl⟩
    split
    · exact .inl rfl
    · exact .inr listed
  · rcases List.mem_append.mp member with listed | last
    · exact .inr listed
    · exact .inl (List.mem_singleton.mp last)

theorem putGame_of_fresh {games : List (GameId × Nat)} {entry : GameId × Nat}
    (fresh : ∀ other ∈ games, other.1 ≠ entry.1) : putGame games entry = games ++ [entry] := by
  unfold putGame
  rw [if_neg]
  rw [List.any_eq_true]
  rintro ⟨other, listed, same⟩
  exact fresh other listed (eq_of_beq same)

theorem keys_putGame {games : List (GameId × Nat)} {entry : GameId × Nat} (keys : (games.map Prod.fst).Nodup) :
    ((putGame games entry).map Prod.fst).Nodup := by
  by_cases stored : ∃ other ∈ games, other.1 = entry.1
  · rcases stored with ⟨other, listed, same⟩
    have taken : games.any (fun other => other.1 == entry.1) = true := by
      rw [List.any_eq_true]
      exact ⟨other, listed, beq_of_eq same⟩
    have names : (games.map fun other => if other.1 = entry.1 then entry else other).map Prod.fst =
        games.map Prod.fst := by
      rw [List.map_map]
      apply List.map_congr_left
      intro other _
      simp only [Function.comp_apply]
      split
      · rename_i same
        exact same.symm
      · rfl
    unfold putGame
    rw [if_pos taken, names]
    exact keys
  · have fresh : ∀ other ∈ games, other.1 ≠ entry.1 := fun other listed same => stored ⟨other, listed, same⟩
    rw [putGame_of_fresh fresh, List.map_append, List.nodup_append]
    refine ⟨keys, List.nodup_singleton _, ?_⟩
    intro gameId listed other last same
    rcases List.mem_map.mp listed with ⟨before, member, rfl⟩
    rw [List.mem_singleton.mp last] at same
    exact fresh before member same

variable {resources : Resources} [RootLocale]

/-- The service with what is told of its past: the games that were created and not removed, and for each game how many
were stored when it was created. -/
structure Ledger where
  service : Service := {}
  created : List (GameId × Nat) := []
  sizes : List Nat := []

def Ledger.step (ledger : Ledger) (call : Call resources) : Option Ledger :=
  (ledger.service.step resources call).map fun stepped =>
    match call with
    | .createGame => {
        service := stepped.1
        created := ledger.created ++ [(ledger.service.nextId, ledger.service.objects.length)]
        sizes := ledger.sizes ++ [ledger.service.games.length] }
    | .removeGame gameId => {
        service := stepped.1
        created := ledger.created.filter fun entry => entry.1 ≠ gameId
        sizes := ledger.sizes }
    | _ => { ledger with service := stepped.1 }

/-- A call creates only a game with an id that no stored game has, replaces no stored game, and leaves exactly the games
stored that were created and not removed. -/
structure Ledger.Fresh (before : Ledger) (call : Call resources) (after : Ledger) : Prop where
  fresh : call = .createGame → ∃ number game, before.service.step resources call = some (after.service, .game number) ∧
    after.service.objects[number]? = some game ∧ ∀ entry ∈ before.service.games, entry.1 ≠ game.id
  unreplaced : ∀ gameId number number', (gameId, number) ∈ before.service.games →
    (gameId, number') ∈ after.service.games → number' = number
  exact : after.service.games = after.created

def Ledger.StaysFresh (ledger : Ledger) : List (Call resources) → Prop
  | [] => True
  | call :: rest => ∀ next, ledger.step call = some next → ledger.Fresh call next ∧ next.StaysFresh rest

/-- Whenever a game is created, every stored game was created while more or fewer games were stored than now. -/
def Ledger.Apart (ledger : Ledger) : List (Call resources) → Prop
  | [] => True
  | call :: rest =>
    (call = .createGame → ∀ entry ∈ ledger.service.games, ledger.sizes[entry.2]? ≠ some ledger.service.games.length) ∧
      ∀ next, ledger.step call = some next → next.Apart rest

/-- The id of a stored game tells how many games were stored when it was created. -/
structure Ledger.Sound (ledger : Ledger) : Prop where
  keys : (ledger.service.games.map Prod.fst).Nodup
  lengths : ledger.sizes.length = ledger.service.objects.length
  numbered : ∀ entry ∈ ledger.service.games, ∃ size, ledger.sizes[entry.2]? = some size ∧ entry.1 = ⟨toString (size + 1)⟩

theorem Ledger.step_cases {ledger next : Ledger} {call : Call resources} (performed : ledger.step call = some next) :
    (call = .createGame ∧ next = {
        service := ledger.service.newGame.1
        created := ledger.created ++ [(ledger.service.nextId, ledger.service.objects.length)]
        sizes := ledger.sizes ++ [ledger.service.games.length] }) ∨
      (∃ gameId, call = .removeGame gameId ∧ next = {
        service := ledger.service.deleteGame gameId
        created := ledger.created.filter fun entry => entry.1 ≠ gameId
        sizes := ledger.sizes }) ∨
      (call ≠ .createGame ∧ next.service.games = ledger.service.games ∧
        next.service.objects.length = ledger.service.objects.length ∧ next.created = ledger.created ∧
        next.sizes = ledger.sizes) := by
  rcases Option.map_eq_some_iff.mp performed with ⟨stepped, ran, rfl⟩
  rcases Mindreadr.step_cases ran with ⟨rfl, same⟩ | ⟨gameId, rfl, same⟩ | ⟨apart, kept, games, objects⟩
  · left
    rw [same]
    exact ⟨rfl, rfl⟩
  · right
    left
    rw [same]
    exact ⟨gameId, rfl, rfl⟩
  · right
    right
    cases call with
    | createGame => exact absurd rfl apart
    | removeGame gameId => exact absurd rfl (kept gameId)
    | addPlayerToGame gameId draws => exact ⟨apart, games, objects, rfl, rfl⟩
    | removePlayerFromGame player gameId => exact ⟨apart, games, objects, rfl, rfl⟩
    | addGuessToGame player gameId guess => exact ⟨apart, games, objects, rfl, rfl⟩

theorem Ledger.Sound.step {ledger next : Ledger} (sound : ledger.Sound) {call : Call resources}
    (performed : ledger.step call = some next) : next.Sound := by
  rcases Ledger.step_cases performed with ⟨-, rfl⟩ | ⟨gameId, -, rfl⟩ | ⟨-, games, objects, -, sizes⟩
  · refine ⟨keys_putGame sound.keys, ?_, ?_⟩
    · simp [Service.newGame, sound.lengths]
    · intro entry member
      rcases mem_putGame member with rfl | before
      · refine ⟨ledger.service.games.length, ?_, rfl⟩
        dsimp only
        rw [← sound.lengths, List.getElem?_concat_length]
      · rcases sound.numbered entry before with ⟨size, placed, same⟩
        refine ⟨size, ?_, same⟩
        dsimp only
        rw [List.getElem?_append_left (List.getElem?_eq_some_iff.mp placed).1]
        exact placed
  · refine ⟨?_, sound.lengths, ?_⟩
    · exact List.Nodup.sublist (List.filter_sublist.map Prod.fst) sound.keys
    · intro entry member
      exact sound.numbered entry (List.mem_of_mem_filter member)
  · refine ⟨?_, ?_, ?_⟩
    · rw [games]
      exact sound.keys
    · rw [sizes, objects]
      exact sound.lengths
    · rw [games, sizes]
      exact sound.numbered

omit [RootLocale] in
theorem Ledger.Sound.id_eq_nextId {ledger : Ledger} (sound : ledger.Sound) {entry : GameId × Nat}
    (member : entry ∈ ledger.service.games) :
    entry.1 = ledger.service.nextId ↔ ledger.sizes[entry.2]? = some ledger.service.games.length := by
  rcases sound.numbered entry member with ⟨size, placed, same⟩
  rw [placed, Option.some_inj, same]
  constructor
  · exact gameId_inj
  · rintro rfl
    rfl

theorem Ledger.Sound.fresh {ledger next : Ledger} (sound : ledger.Sound) {call : Call resources}
    (exact : ledger.service.games = ledger.created) (performed : ledger.step call = some next)
    (apart : call = .createGame → ∀ entry ∈ ledger.service.games, entry.1 ≠ ledger.service.nextId) :
    ledger.Fresh call next := by
  have single : ∀ gameId number number', (gameId, number) ∈ ledger.service.games →
      (gameId, number') ∈ ledger.service.games → number' = number := by
    intro gameId number number' before after
    have same := List.inj_on_of_nodup_map sound.keys after before rfl
    exact (Prod.mk.inj same).2
  rcases Ledger.step_cases performed with ⟨rfl, rfl⟩ | ⟨gameId, rfl, rfl⟩ | ⟨other, games, _, created, _⟩
  · have added : ledger.service.newGame.1.games =
        ledger.service.games ++ [(ledger.service.nextId, ledger.service.objects.length)] := putGame_of_fresh (apart rfl)
    refine ⟨?_, ?_, ?_⟩
    · intro _
      exact ⟨ledger.service.objects.length, { id := ledger.service.nextId }, rfl, List.getElem?_concat_length, apart rfl⟩
    · intro gameId number number' before after
      dsimp only at after
      rw [added] at after
      rcases List.mem_append.mp after with stored | last
      · exact single gameId number number' before stored
      · have same := List.mem_singleton.mp last
        exact absurd (Prod.mk.inj same).1 (apart rfl _ before)
    · dsimp only
      rw [added, exact]
  · refine ⟨nofun, ?_, ?_⟩
    · intro id number number' before after
      exact single id number number' before (List.mem_of_mem_filter after)
    · change ledger.service.games.filter _ = ledger.created.filter _
      rw [exact]
  · refine ⟨fun same => absurd same other, ?_, ?_⟩
    · intro id number number' before after
      rw [games] at after
      exact single id number number' before after
    · rw [games, created, exact]

theorem Ledger.Sound.staysFresh_iff {calls : List (Call resources)} :
    ∀ {ledger : Ledger}, ledger.Sound → ledger.service.games = ledger.created →
      (ledger.StaysFresh calls ↔ ledger.Apart calls) := by
  induction calls with
  | nil => exact fun _ _ => Iff.rfl
  | cons call rest ih =>
    intro ledger sound exact
    constructor
    · intro fresh
      refine ⟨?_, ?_⟩
      · rintro rfl entry member same
        rcases (fresh _ rfl).1.fresh rfl with ⟨number, game, performed, found, apart⟩
        cases performed
        have created : game = { id := ledger.service.nextId } := by
          rw [← Option.some_inj, ← found]
          exact List.getElem?_concat_length
        apply apart entry member
        rw [created]
        exact (sound.id_eq_nextId member).mpr same
      · intro next performed
        rcases fresh next performed with ⟨kept, later⟩
        exact (ih (sound.step performed) kept.exact).mp later
    · rintro ⟨first, later⟩ next performed
      have apart : call = .createGame → ∀ entry ∈ ledger.service.games, entry.1 ≠ ledger.service.nextId := by
        intro creates entry member same
        exact first creates entry member ((sound.id_eq_nextId member).mp same)
      have kept := sound.fresh exact performed apart
      exact ⟨kept, (ih (sound.step performed) kept.exact).mpr (later next performed)⟩

/-- In a run of calls from the empty service, game ids are fresh and the stored games are those created and not removed
exactly if no game is created while as many games are stored as when a game was created that still is. -/
theorem game_ids_are_fresh (calls : List (Call resources)) :
    Ledger.StaysFresh {} calls ↔ Ledger.Apart {} calls := by
  apply Ledger.Sound.staysFresh_iff
  · exact ⟨List.nodup_nil, rfl, nofun⟩
  · rfl

def hole : List (Call oneName) := [.createGame, .createGame, .removeGame ⟨"1"⟩, .createGame]

omit [RootLocale] in
/-- The third game takes the id and the place of the second, which was never removed. -/
theorem third_game_replaces_second :
    ¬ @Ledger.StaysFresh oneName asciiLocale {} hole ∧
      (@Service.run asciiLocale oneName {} hole).map Service.games = some [(⟨"2"⟩, 2)] := by
  refine ⟨?_, by decide +kernel⟩
  intro fresh
  let locale := asciiLocale
  have last := ((((fresh _ rfl).2 _ rfl).2 _ rfl).2 _ rfl).1
  have replaced := last.unreplaced ⟨"2"⟩ 1 2 (by decide +kernel) (by decide +kernel)
  cases replaced

end Mindreadr

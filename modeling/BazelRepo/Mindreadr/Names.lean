import BazelRepo.Mindreadr.Service
import Mathlib.Data.List.Perm.Subperm

namespace Mindreadr

variable {resources : Resources} {service : Service} [RootLocale]

def memberNames (games : List Game) : List String :=
  (games.flatMap Game.players).map fun player => player.name.name

def Service.live (service : Service) : List Player :=
  ((service.objects.filter fun game => !game.hasEnded).flatMap Game.players)

def Service.creates (resources : Resources) (service : Service) : Call resources → Bool
  | .addPlayerToGame gameId _ =>
    (service.getGameById gameId).isSome && !decide (resources.adjectives = [] ∨ resources.nouns = [])
  | _ => false

def Service.creations (resources : Resources) (service : Service) : List (Call resources) → Nat
  | [] => 0
  | call :: rest =>
    (if service.creates resources call then 1 else 0) +
      match service.step resources call with
      | none => 0
      | some stepped => stepped.1.creations resources rest

/-- The names that were given out are names there are, each given once, and the members of all games have different
ones of them. -/
structure Service.Named (resources : Resources) (service : Service) : Prop where
  known : ∀ name ∈ service.existingNames, name ∈ resources.names
  once : service.existingNames.Nodup
  given : ∀ name ∈ memberNames service.objects, name ∈ service.existingNames
  distinct : (memberNames service.objects).Nodup

omit [RootLocale] in
theorem mem_names {name : String} : name ∈ resources.names ↔ ∃ draw, resources.name draw = name := by
  unfold Resources.names Resources.name
  rw [List.mem_dedup, List.mem_flatMap]
  constructor
  · rintro ⟨adjective, listed, found⟩
    rcases List.mem_map.mp found with ⟨noun, listed', rfl⟩
    rcases List.mem_iff_get.mp listed with ⟨i, rfl⟩
    rcases List.mem_iff_get.mp listed' with ⟨j, rfl⟩
    exact ⟨(i, j), rfl⟩
  · rintro ⟨⟨i, j⟩, rfl⟩
    exact ⟨_, List.getElem_mem _, List.mem_map.mpr ⟨_, List.getElem_mem _, rfl⟩⟩

theorem players_after (game : Game) (operation : Operation) : ∃ kept : List Player, kept.Sublist game.players ∧
    ((game.after operation).players = kept ∨
      ∃ player, operation = .addPlayer player ∧ (game.after operation).players = kept ++ [player]) := by
  cases operation with
  | addPlayer player =>
    refine ⟨game.players, .refl _, ?_⟩
    have ran : (Operation.addPlayer player).perform.run game = _ := run_addPlayer player game
    by_cases waiting : game.state = .waitingForPlayers
    · rw [if_pos waiting] at ran
      right
      refine ⟨player, rfl, ?_⟩
      rw [after_ok ran]
      split <;> rfl
    · rw [if_neg waiting] at ran
      left
      rw [after_error ran]
  | addGuess player guess =>
    refine ⟨game.players, .refl _, .inl ?_⟩
    rcases addGuess_cases player guess game with ⟨message, ran⟩ | ran | ⟨round, word, -, -, -, -, -, ran⟩
    · have same : game.after (.addGuess player guess) = game := after_error ran
      rw [same]
    · have same : game.after (.addGuess player guess) = game := after_ok ran
      rw [same]
    · rw [run_settleRound] at ran
      have left : game.after (.addGuess player guess) = _ := after_ok ran
      rw [left]
      split
      · split
        · rfl
        · split <;> rfl
      · rfl
  | removePlayer player =>
    have ran : (Operation.removePlayer player).perform.run game = _ := run_removePlayer player game
    by_cases open' : game.state ≠ .completed
    · rw [if_pos open'] at ran
      refine ⟨game.players.erase player, List.erase_sublist, .inl ?_⟩
      rw [after_ok ran]
    · rw [if_neg open'] at ran
      refine ⟨game.players, .refl _, .inl ?_⟩
      rw [after_error ran]

omit [RootLocale] in
theorem memberNames_append (left right : List Game) :
    memberNames (left ++ right) = memberNames left ++ memberNames right := by
  unfold memberNames
  rw [List.flatMap_append, List.map_append]

omit [RootLocale] in
theorem memberNames_cons (game : Game) (rest : List Game) :
    memberNames (game :: rest) = game.players.map (fun player => player.name.name) ++ memberNames rest := by
  unfold memberNames
  rw [List.flatMap_cons, List.map_append]

theorem memberNames_perform (service : Service) (number : Nat) (operation : Operation) (answer : Answer) :
    ∃ kept : List String, kept.Sublist (memberNames service.objects) ∧
      ((memberNames (service.perform number operation answer).1.objects).Perm kept ∨
        ∃ player, operation = .addPlayer player ∧
          (memberNames (service.perform number operation answer).1.objects).Perm (player.name.name :: kept)) := by
  rw [objects_perform]
  by_cases inside : number < service.objects.length
  · rcases List.exists_of_modify (fun game => game.after operation) inside with ⟨before, game, after, split, _, changed⟩
    rcases players_after game operation with ⟨kept, part, stays | ⟨player, rfl, added⟩⟩
    · refine ⟨memberNames before ++ (kept.map (fun player => player.name.name) ++ memberNames after), ?_, .inl ?_⟩
      · rw [split, memberNames_append, memberNames_cons]
        exact ((part.map _).append (.refl _)).append_left _
      · rw [changed, memberNames_append, memberNames_cons, stays]
    · refine ⟨memberNames before ++ (kept.map (fun player => player.name.name) ++ memberNames after), ?_,
        .inr ⟨player, rfl, ?_⟩⟩
      · rw [split, memberNames_append, memberNames_cons]
        exact ((part.map _).append (.refl _)).append_left _
      · rw [changed, memberNames_append, memberNames_cons, added, List.map_append]
        simp [List.perm_iff_count, List.count_cons, List.count_append]
        omega
  · refine ⟨memberNames service.objects, .refl _, .inl ?_⟩
    rw [List.modify_eq_self (Nat.le_of_not_lt inside)]

theorem Service.Named.perform (named : service.Named resources) {number : Nat} {operation : Operation} {answer : Answer}
    (fresh : ∀ player, operation = .addPlayer player → player.name.name ∈ service.existingNames ∧
      player.name.name ∉ memberNames service.objects) :
    (service.perform number operation answer).1.Named resources := by
  rcases memberNames_perform service number operation answer with
    ⟨kept, part, same | ⟨player, rfl, same⟩⟩
  · refine ⟨?_, ?_, ?_, ?_⟩
    · rw [existingNames_perform]
      exact named.known
    · rw [existingNames_perform]
      exact named.once
    · intro name member
      rw [existingNames_perform]
      exact named.given name (part.subset (same.mem_iff.mp member))
    · rw [same.nodup_iff]
      exact named.distinct.sublist part
  · rcases fresh player rfl with ⟨given, apart⟩
    refine ⟨?_, ?_, ?_, ?_⟩
    · rw [existingNames_perform]
      exact named.known
    · rw [existingNames_perform]
      exact named.once
    · intro name member
      rw [existingNames_perform]
      rcases List.mem_cons.mp (same.mem_iff.mp member) with rfl | before
      · exact given
      · exact named.given name (part.subset before)
    · rw [same.nodup_iff, List.nodup_cons]
      exact ⟨fun member => apart (part.subset member), named.distinct.sublist part⟩

omit [RootLocale] in
theorem Service.Named.createPlayer (named : service.Named resources) {draws : List resources.Draw}
    {created : Service × Player} (made : service.createPlayer resources draws = some created) :
    created.1.Named resources ∧ created.1.existingNames.length = service.existingNames.length + 1 ∧
      created.2.name.name ∈ created.1.existingNames ∧ created.2.name.name ∉ memberNames created.1.objects := by
  rcases Option.map_eq_some_iff.mp made with ⟨name, picked, rfl⟩
  rcases pickName_eq_some picked with ⟨fresh, draw, -, rfl⟩
  refine ⟨⟨?_, ?_, ?_, named.distinct⟩, List.length_append, ?_, ?_⟩
  · intro name member
    rcases List.mem_append.mp member with before | last
    · exact named.known name before
    · rw [List.mem_singleton.mp last]
      exact mem_names.mpr ⟨draw, rfl⟩
  · dsimp only
    rw [List.nodup_append]
    refine ⟨named.once, List.nodup_singleton _, ?_⟩
    intro name before last member same
    rw [same, List.mem_singleton.mp member] at before
    exact fresh before
  · intro name member
    exact List.mem_append_left _ (named.given name member)
  · exact List.mem_append_right _ (List.mem_singleton_self _)
  · intro member
    exact fresh (named.given _ member)

theorem Service.Named.step (named : service.Named resources) {call : Call resources} {stepped : Service × Answer}
    (performed : service.step resources call = some stepped) : stepped.1.Named resources ∧
      stepped.1.existingNames.length =
        service.existingNames.length + if service.creates resources call then 1 else 0 := by
  have unchanged : ∀ other : Service, other = service → service.creates resources call = false →
      other.Named resources ∧ other.existingNames.length =
        service.existingNames.length + if service.creates resources call then 1 else 0 := by
    rintro other rfl none
    rw [none]
    exact ⟨named, rfl⟩
  cases call with
  | createGame =>
    cases performed
    refine ⟨⟨named.known, named.once, ?_, ?_⟩, rfl⟩
    · intro name member
      apply named.given name
      simpa [Service.newGame, memberNames] using member
    · simpa [Service.newGame, memberNames] using named.distinct
  | removeGame gameId =>
    cases performed
    exact ⟨⟨named.known, named.once, named.given, named.distinct⟩, rfl⟩
  | addPlayerToGame gameId draws =>
    change service.withGame gameId _ = some stepped at performed
    unfold Service.withGame at performed
    cases found : service.getGameById gameId with
    | none =>
      rw [found] at performed
      cases performed
      exact unchanged service rfl (by simp [Service.creates, found])
    | some number =>
      rw [found] at performed
      dsimp only at performed
      by_cases empty : resources.adjectives = [] ∨ resources.nouns = []
      · rw [if_pos empty] at performed
        cases performed
        exact unchanged service rfl (by simp [Service.creates, empty])
      · rw [if_neg empty] at performed
        rcases Option.map_eq_some_iff.mp performed with ⟨created, made, rfl⟩
        rcases named.createPlayer made with ⟨still, longer, given, apart⟩
        have counted : service.creates resources (.addPlayerToGame gameId draws) = true := by
          rw [not_or] at empty
          simp [Service.creates, found, empty]
        refine ⟨still.perform ?_, ?_⟩
        · intro player same
          cases same
          exact ⟨given, apart⟩
        · rw [existingNames_perform, longer, counted]
          rfl
  | removePlayerFromGame player gameId =>
    rcases withGame_eq_some performed with same | ⟨number, _, left⟩
    · exact unchanged _ same rfl
    · cases left
      exact ⟨named.perform nofun, by rw [existingNames_perform]; rfl⟩
  | addGuessToGame player gameId guess =>
    rcases withGame_eq_some performed with same | ⟨number, _, guessed⟩
    · exact unchanged _ same rfl
    · cases guessed
      exact ⟨named.perform nofun, by rw [existingNames_perform]; rfl⟩

theorem Service.Named.run {calls : List (Call resources)} : ∀ {start service : Service}, start.Named resources →
    start.run resources calls = some service → service.Named resources ∧
      service.existingNames.length = start.existingNames.length + start.creations resources calls := by
  induction calls with
  | nil =>
    intro start service named ran
    cases ran
    exact ⟨named, rfl⟩
  | cons call rest ih =>
    intro start service named ran
    rcases Option.bind_eq_some_iff.mp ran with ⟨stepped, performed, later⟩
    rcases named.step performed with ⟨still, first⟩
    rcases ih still later with ⟨last, others⟩
    refine ⟨last, ?_⟩
    unfold Service.creations
    rw [others, first, performed, Nat.add_assoc]

omit [RootLocale] in
theorem Service.Named.left_iff (named : service.Named resources) :
    (∃ draw, resources.name draw ∉ service.existingNames) ↔
      service.existingNames.length < resources.names.length := by
  constructor
  · rintro ⟨draw, unused⟩
    by_contra all
    have part := List.subperm_of_subset named.once named.known
    have perm := part.perm_of_length_le (not_lt.mp all)
    exact unused (perm.mem_iff.mpr (mem_names.mpr ⟨draw, rfl⟩))
  · intro fewer
    by_contra none
    have all : resources.names ⊆ service.existingNames := by
      intro name member
      rcases mem_names.mp member with ⟨draw, rfl⟩
      by_contra unused
      exact none ⟨draw, unused⟩
    have distinct : resources.names.Nodup := List.nodup_dedup _
    have bound := (List.subperm_of_subset distinct all).length_le
    omega

omit [RootLocale] in
theorem createPlayer_ends_iff : (∃ draws, (service.createPlayer resources draws).isSome = true) ↔
    ∃ draw, resources.name draw ∉ service.existingNames := by
  constructor
  · rintro ⟨draws, ends⟩
    rcases Option.isSome_iff_exists.mp ends with ⟨created, made⟩
    rcases Option.map_eq_some_iff.mp made with ⟨name, picked, _⟩
    rcases pickName_eq_some picked with ⟨fresh, draw, _, rfl⟩
    exact ⟨draw, fresh⟩
  · rintro ⟨draw, fresh⟩
    refine ⟨[draw], ?_⟩
    simp [Service.createPlayer, pickName, fresh]

/-- After any run of calls the members of all games have different names, and a name is left for the next player, so that
the tries for it can end, exactly while the run has made fewer players than there are names. -/
theorem names_are_left_exactly {calls : List (Call resources)} {service : Service}
    (ran : Service.run resources {} calls = some service) :
    (memberNames service.objects).Nodup ∧
      ((∃ draw, resources.name draw ∉ service.existingNames) ↔
        Service.creations resources {} calls < resources.names.length) ∧
      ((∃ draws, (service.createPlayer resources draws).isSome = true) ↔
        Service.creations resources {} calls < resources.names.length) := by
  have start : Service.Named resources {} := ⟨nofun, List.nodup_nil, nofun, List.nodup_nil⟩
  rcases start.run ran with ⟨named, counted⟩
  have length : service.existingNames.length = Service.creations resources {} calls := by
    rw [counted]
    exact Nat.zero_add _
  refine ⟨named.distinct, ?_, ?_⟩
  · rw [named.left_iff, length]
  · rw [createPlayer_ends_iff, named.left_iff, length]

def onlyDraw : oneName.Draw := (⟨0, by decide⟩, ⟨0, by decide⟩)

def visit : List (Call oneName) :=
  [.createGame, .addPlayerToGame ⟨"1"⟩ [onlyDraw], .removePlayerFromGame quickFox ⟨"1"⟩]

def visited : Service where
  objects := [{ id := ⟨"1"⟩ }]
  games := [(⟨"1"⟩, 0)]
  existingNames := ["quick_fox"]

omit [RootLocale] in
theorem names_are_left_exactly_visit :
    (memberNames visited.objects).Nodup ∧
      ((∃ draw, oneName.name draw ∉ visited.existingNames) ↔
        @Service.creations asciiLocale oneName {} visit < oneName.names.length) ∧
      ((∃ draws, (visited.createPlayer oneName draws).isSome = true) ↔
        @Service.creations asciiLocale oneName {} visit < oneName.names.length) := by
  have ran : @Service.run asciiLocale oneName {} visit = some visited := by
    decide +kernel
  exact @names_are_left_exactly oneName asciiLocale visit visited ran

omit [RootLocale] in
/-- The end of a connection takes the only player out of the game and the service has no member left, but the only name
is still taken and no tries for the next player come to an end. -/
theorem name_of_departed_stays_taken :
    ∃ joined, @Service.run asciiLocale oneName {} [.createGame, .addPlayerToGame ⟨"1"⟩ [onlyDraw]] = some joined ∧
      joined.disconnect oneName quickFox ⟨"1"⟩ = some (.removePlayerFromGame quickFox ⟨"1"⟩) ∧
      @Service.run asciiLocale oneName joined [.removePlayerFromGame quickFox ⟨"1"⟩] = some visited ∧
      visited.live.length < oneName.adjectives.length * oneName.nouns.length ∧
      (∀ draw, oneName.name draw ∈ visited.existingNames) ∧
      ∀ draws, @Service.step asciiLocale oneName visited (.addPlayerToGame ⟨"1"⟩ draws) = none := by
  have words : ∀ i j, oneName.name (i, j) ∈ visited.existingNames := by decide +kernel
  have taken : ∀ draw, oneName.name draw ∈ visited.existingNames := fun draw => words draw.1 draw.2
  refine ⟨_, rfl, rfl, by decide +kernel, by decide +kernel, taken, ?_⟩
  intro draws
  have endless : visited.createPlayer oneName draws = none := by
    rw [← Option.not_isSome_iff_eq_none]
    intro ends
    rcases createPlayer_ends_iff.mp ⟨draws, ends⟩ with ⟨draw, unused⟩
    exact unused (taken draw)
  change Option.map _ (visited.createPlayer oneName draws) = none
  rw [endless]
  rfl

end Mindreadr

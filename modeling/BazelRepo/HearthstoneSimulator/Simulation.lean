import BazelRepo.HearthstoneSimulator.Execution

namespace HearthstoneSimulator

open Library

structure PlayerConfig where
  name : String
  deck : List Card
  hand : List Card

def syntheticDefinitionId (name : String) : String :=
  "synthetic:" ++ String.ofList (name.toList.map fun character =>
    if character.isAlphanum then character.toLower else '_')

def Card.heroPower (name : String) (manaCost : Int32) : Card :=
  { definitionId := syntheticDefinitionId name
    name := name
    kind := .heroPower
    manaCost := manaCost
    attack := 0
    health := 0
    durability := 0
    keywords := ∅
    effects := []
    triggers := []
    auras := []
    continuousEffects := []
    targeting := .none }

def advancedRulebook : Ruleset :=
  { boardLimit := 7
    handLimit := 10
    deckLimit := 99
    secretLimit := 5
    heroLimit := 1
    weaponLimit := 1
    heroPowerLimit := 1
    questLimit := 1
    maximumMana := 10
    resolutionBudget := 100000 }

def startingHealth : Int32 := 30

namespace World

def blank (seed : UInt64) (dominantPlayer : PlayerId) : World :=
  { entities := ∅
    zoneIndex := fun _ _ => []
    ruleset := advancedRulebook
    gameState := ⟨.one, 1, none, .settingUp⟩
    weaponEquipment := ⟨fun _ => none, ∅⟩
    playOrderCounter := 1
    pendingDeaths := []
    deathEventCache := []
    canonicalTrace := []
    nativeEffectRegistry := []
    dominantPlayer := dominantPlayer
    rng := ⟨seed, 0⟩ }

def playerObject (player : PlayerId) (name : String) (starts : Bool) : Components :=
  { definitionId := some "system:player"
    kind := some .player
    controller := some player
    displayName := some name
    playOrder := some 0
    player := some
      { id := player
        maximumResources := if starts then 1 else 0
        usedResources := 0
        temporaryResources := 0
        pendingOverload := 0
        lockedOverload := 0
        resourcesSpent := 0
        fatigue := 0 } }

def heroObject (player : PlayerId) (name : String) : Components :=
  { definitionId := some "system:hero"
    kind := some .hero
    controller := some player
    displayName := some s!"{name}'s Hero"
    playOrder := some 0
    baseStats := some ⟨0, startingHealth⟩
    currentStats := some ⟨0, startingHealth⟩
    damage := some 0
    armor := some 0
    attackState := some ⟨0, false⟩
    baseKeywords := some ∅
    keywords := some ∅
    heroClass := some .neutral }

end World

def spawnObject (components : Components) (player : PlayerId) (zone : Zone) : Sim Unit := do
  let id ← .changing (·.allocateGameId)
  .change fun world => { world with entities := world.entities.insert id components }
  replacing fun world => (world.insertIntoZone id player zone none).mapError .zone

section Games

variable [QueryOrder]

def spawnPlayer (player : PlayerId) (name : String) (starts : Bool) : Sim Unit := do
  spawnObject (World.playerObject player name starts) player .setAside
  spawnObject (World.heroObject player name) player .play
  let _ ← spawnCard player (.heroPower s!"{name}'s Hero Power" 2) .play
  pure ()

def setupPlayer (player : PlayerId) (config : PlayerConfig) : Sim Unit := do
  spawnPlayer player config.name (player = .one)
  config.deck.forM fun card => do
    let _ ← spawnCard player card .deck
    pure ()
  config.hand.forM fun card => do
    let _ ← spawnCard player card .hand
    pure ()

def setupGame (first second : PlayerConfig) : Sim Unit := do
  setupPlayer .one first
  setupPlayer .two second
  .change (·.withStatus .awaitingAction)

/-- A new simulation. There is none of players whose cards do not fit the starting zones. -/
def newSimulation (first second : PlayerConfig) (seed : UInt64) (dominantPlayer : PlayerId) : Option World :=
  match setupGame first second (.blank seed dominantPlayer) with
  | (world, .ok ()) => some world
  | (_, .error _) => none

end Games

def registerNativeEffect (id : NativeEffectId) (world : World) : World :=
  if id ∈ world.nativeEffectRegistry then
    world
  else
    { world with nativeEffectRegistry := world.nativeEffectRegistry ++ [id] }

theorem beginSequence_gameState (world : World) : (beginSequence world).1.gameState = world.gameState := by
  unfold beginSequence
  rw [Procedure.read_bind]
  split
  · rfl
  · rfl

structure Executed where
  world : World
  stacked : StackedResolutionOp

section Playthroughs

variable [QueryOrder] [NativeEffects]

def popped (world : World) (rest : List StackedResolutionOp) : World :=
  world.withWork fun work => { work with stack := rest }

def begun (world : World) (action : GameAction) : World :=
  (pushResolutionOps [actionOperation action, .runPhaseBoundary .ordinary, .checkOutcome]
    (beginSequence (world.withStatus .resolving)).1).1

inductive Between (world : World) : World → Prop where
  | register (id : NativeEffectId) : Between world (registerNativeEffect id world)
  | begin {action normalized : GameAction} (accepted : world.validateAction action = .ok normalized)
      (idle : (beginSequence (world.withStatus .resolving)).2 = .ok ()) : Between world (begun world normalized)
  | refuse {action normalized : GameAction} (accepted : world.validateAction action = .ok normalized)
      (busy : (beginSequence (world.withStatus .resolving)).2 ≠ .ok ()) : Between world (world.withStatus .resolving)
  | answer {pending : PendingChoice} {selected : ChoiceOption} (found : world.work.pendingChoice = some pending)
      (offered : selected ∈ pending.request.options) : Between world (answered world pending selected)
  | finish (done : (finishResolutionIfIdle world).2 = .ok ()) : Between world (finishResolutionIfIdle world).1
  | abandon {error : SimulationError} (failed : (finishResolutionIfIdle world).2 = .error error) :
      Between world (abandon (finishResolutionIfIdle world).1)
  | accepted (player : PlayerId) (action : String) : Between world (world.trace (.actionAccepted player action))
  | rejected (player : PlayerId) (reason : String) : Between world (world.trace (.actionRejected player reason))

/-- The operations that lead a simulator from one world to another, in the order in which they were executed. An
operation that fails ends its sequence. -/
inductive Playthrough (start : World) : List Executed → World → Prop where
  | start : Playthrough start [] start
  | operation {history : List Executed} {world after : World} {stacked : StackedResolutionOp}
      {rest : List StackedResolutionOp} (before : Playthrough start history world)
      (top : world.work.stack = stacked :: rest) (resolving : world.gameState.status ≠ .awaitingChoice)
      (done : resolveOperation stacked (popped world rest) = (after, .ok ())) :
      Playthrough start (history ++ [⟨world, stacked⟩]) after
  | failure {history : List Executed} {world after : World} {stacked : StackedResolutionOp}
      {rest : List StackedResolutionOp} {error : SimulationError} (before : Playthrough start history world)
      (top : world.work.stack = stacked :: rest) (resolving : world.gameState.status ≠ .awaitingChoice)
      (failed : resolveOperation stacked (popped world rest) = (after, .error error)) :
      Playthrough start (history ++ [⟨world, stacked⟩]) (abandon after)
  | between {history : List Executed} {world other : World} (before : Playthrough start history world)
      (step : Between world other) : Playthrough start history other

theorem driveResolution_of_empty {world : World} (empty : world.work.stack = []) (fuel : Nat) :
    driveResolution fuel world = (world, .ok ()) := by
  cases fuel with
  | zero => rfl
  | succ fuel =>
    unfold driveResolution
    rw [Procedure.read_bind, empty]
    rfl

theorem driveResolution_of_error {world after : World} {stacked : StackedResolutionOp}
    {rest : List StackedResolutionOp} {error : SimulationError} (top : world.work.stack = stacked :: rest)
    (failed : resolveOperation stacked (popped world rest) = (after, .error error)) (fuel : Nat) :
    driveResolution (fuel + 1) world = (after, .error error) := by
  rw [driveResolution, Procedure.read_bind, top]
  show (resolveOperation stacked >>= _) (popped world rest) = _
  exact Procedure.bind_eq_of_error failed

theorem driveResolution_of_ok {world after : World} {stacked : StackedResolutionOp} {rest : List StackedResolutionOp}
    (top : world.work.stack = stacked :: rest)
    (done : resolveOperation stacked (popped world rest) = (after, .ok ())) (fuel : Nat) :
    driveResolution (fuel + 1) world =
      if after.gameState.status = .awaitingChoice then (after, .ok ()) else driveResolution fuel after := by
  rw [driveResolution, Procedure.read_bind, top]
  show (resolveOperation stacked >>= _) (popped world rest) = _
  rw [Procedure.bind_eq_of_ok done, Procedure.read_bind]
  split
  · rfl
  · rfl

def concluded : World × Except SimulationError Unit → World
  | (after, .ok _) => after
  | (after, .error _) => abandon after

def Playthrough.Continues (start : World) (history : List Executed) (world : World) : Prop :=
  ∃ more, Playthrough start (history ++ more) world

theorem Playthrough.continues {start world : World} {history : List Executed} (played : Playthrough start history world) :
    Continues start history world :=
  ⟨[], by rwa [List.append_nil]⟩

theorem Playthrough.Continues.cons {start world : World} {history : List Executed} {executed : Executed}
    (rest : Continues start (history ++ [executed]) world) : Continues start history world := by
  rcases rest with ⟨more, played⟩
  refine ⟨executed :: more, ?_⟩
  rw [List.append_cons]
  exact played

theorem Playthrough.drive {start world : World} {history : List Executed} (before : Playthrough start history world)
    (resolving : world.gameState.status ≠ .awaitingChoice) (fuel : Nat) :
    Continues start history (concluded (driveResolution fuel world)) := by
  induction fuel generalizing history world with
  | zero => exact before.continues
  | succ fuel ih =>
    cases top : world.work.stack with
    | nil =>
      rw [driveResolution_of_empty top]
      exact before.continues
    | cons stacked rest =>
      rcases resolved : resolveOperation stacked (popped world rest) with ⟨middle, error | ⟨⟨⟩⟩⟩
      · rw [driveResolution_of_error top resolved]
        exact (before.failure top resolving resolved).continues.cons
      · rw [driveResolution_of_ok top resolved]
        have stepped := before.operation top resolving resolved
        split
        · exact stepped.continues.cons
        · rename_i waiting
          exact (ih stepped waiting).cons

theorem resolveToPause_of_error {world after : World} {error : SimulationError}
    (failed : (do driveResolution (world.work.remainingBudget + 1); finishResolutionIfIdle : Sim Unit) world =
      (after, .error error)) : resolveToPause world = (abandon after, .error error) := by
  have attempted : (Procedure.attempt
      (do driveResolution (world.work.remainingBudget + 1); finishResolutionIfIdle : Sim Unit)) world =
      (after, .ok (.error error)) := by
    unfold Procedure.attempt
    rw [failed]
  unfold resolveToPause
  rw [Procedure.read_bind, Procedure.bind_eq_of_ok attempted]
  rfl

theorem resolveToPause_of_ok {world after : World}
    (done : (do driveResolution (world.work.remainingBudget + 1); finishResolutionIfIdle : Sim Unit) world =
      (after, .ok ())) : resolveToPause world = (after, .ok ()) := by
  have attempted : (Procedure.attempt
      (do driveResolution (world.work.remainingBudget + 1); finishResolutionIfIdle : Sim Unit)) world =
      (after, .ok (.ok ())) := by
    unfold Procedure.attempt
    rw [done]
  unfold resolveToPause
  rw [Procedure.read_bind, Procedure.bind_eq_of_ok attempted]
  rfl

theorem Playthrough.resolveToPause {start world : World} {history : List Executed}
    (before : Playthrough start history world) (resolving : world.gameState.status ≠ .awaitingChoice) :
    Continues start history (resolveToPause world).1 := by
  rcases before.drive resolving (world.work.remainingBudget + 1) with ⟨more, played⟩
  rcases driven : driveResolution (world.work.remainingBudget + 1) world with ⟨middle, error | ⟨⟨⟩⟩⟩
  · rw [driven] at played
    rw [resolveToPause_of_error (Procedure.bind_eq_of_error driven)]
    exact ⟨more, played⟩
  · have paused : Playthrough start (history ++ more) middle := by rwa [driven] at played
    rcases finished : finishResolutionIfIdle middle with ⟨last, error | ⟨⟨⟩⟩⟩
    · have whole := (Procedure.bind_eq_of_ok (f := fun _ => finishResolutionIfIdle) driven).trans finished
      have stopped := paused.between (.abandon (congrArg Prod.snd finished))
      rw [resolveToPause_of_error whole]
      rw [finished] at stopped
      exact ⟨more, stopped⟩
    · have whole := (Procedure.bind_eq_of_ok (f := fun _ => finishResolutionIfIdle) driven).trans finished
      have stopped := paused.between (.finish (congrArg Prod.snd finished))
      rw [resolveToPause_of_ok whole]
      rw [finished] at stopped
      exact ⟨more, stopped⟩

theorem Playthrough.Continues.between {start world other : World} {history : List Executed}
    (continues : Continues start history world) (step : Between world other) : Continues start history other := by
  rcases continues with ⟨more, played⟩
  exact ⟨more, played.between step⟩

theorem applyAction_of_accepted {world : World} {action normalized : GameAction}
    (accepted : world.validateAction action = .ok normalized)
    (idle : (beginSequence (world.withStatus .resolving)).2 = .ok ()) :
    applyAction action world = resolveToPause (begun world normalized) := by
  have begins : beginSequence (world.withStatus .resolving) = ((beginSequence (world.withStatus .resolving)).1, .ok ()) :=
    Prod.ext rfl idle
  unfold applyAction
  rw [Procedure.read_bind, accepted]
  show (beginSequence >>= _) (world.withStatus .resolving) = _
  rw [Procedure.bind_eq_of_ok begins]
  rfl

theorem applyAction_of_busy {world : World} {action normalized : GameAction} {error : SimulationError}
    (accepted : world.validateAction action = .ok normalized)
    (busy : (beginSequence (world.withStatus .resolving)).2 = .error error) :
    applyAction action world = (world.withStatus .resolving, .error error) := by
  have stays : (beginSequence (world.withStatus .resolving)).1 = world.withStatus .resolving := by
    unfold beginSequence at busy ⊢
    rw [Procedure.read_bind] at busy ⊢
    split
    · rfl
    · rename_i free
      rw [if_neg free] at busy
      cases busy
  have begins : beginSequence (world.withStatus .resolving) = (world.withStatus .resolving, .error error) :=
    Prod.ext stays busy
  unfold applyAction
  rw [Procedure.read_bind, accepted]
  show (beginSequence >>= _) (world.withStatus .resolving) = _
  exact Procedure.bind_eq_of_error begins

theorem Playthrough.applyAction {start world : World} {history : List Executed}
    (before : Playthrough start history world) (action : GameAction) :
    Continues start history (applyAction action world).1 := by
  cases validated : world.validateAction action with
  | error error =>
    rw [applyAction_of_rejected validated]
    exact before.continues
  | ok normalized =>
    cases begins : (beginSequence (world.withStatus .resolving)).2 with
    | error error =>
      rw [applyAction_of_busy validated begins]
      refine before.continues.between (.refuse validated ?_)
      rw [begins]
      nofun
    | ok =>
      rw [applyAction_of_accepted validated begins]
      apply (before.between (.begin validated begins)).resolveToPause
      show (beginSequence (world.withStatus .resolving)).1.gameState.status ≠ .awaitingChoice
      rw [beginSequence_gameState]
      exact nofun

theorem Playthrough.submitAction {start world : World} {history : List Executed}
    (before : Playthrough start history world) (action : GameAction) :
    Continues start history (submitAction action world).1 := by
  have applied := before.applyAction action
  rcases result : HearthstoneSimulator.applyAction action world with ⟨after, error | ⟨⟨⟩⟩⟩
  · rw [result] at applied
    have attempted : Procedure.attempt (HearthstoneSimulator.applyAction action) world = (after, .ok (.error error)) := by
      unfold Procedure.attempt
      rw [result]
    unfold HearthstoneSimulator.submitAction
    rw [Procedure.bind_eq_of_ok attempted]
    exact applied.between (.rejected _ _)
  · rw [result] at applied
    have attempted : Procedure.attempt (HearthstoneSimulator.applyAction action) world = (after, .ok (.ok ())) := by
      unfold Procedure.attempt
      rw [result]
    unfold HearthstoneSimulator.submitAction
    rw [Procedure.bind_eq_of_ok attempted]
    exact applied.between (.accepted _ _)

end Playthroughs

end HearthstoneSimulator

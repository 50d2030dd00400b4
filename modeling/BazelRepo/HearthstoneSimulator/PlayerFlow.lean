import BazelRepo.HearthstoneSimulator.Health

namespace HearthstoneSimulator

open Library

def PlayerId.debugName : PlayerId → String
  | .one => "One"
  | .two => "Two"

def Zone.debugName : Zone → String
  | .deck => "Deck"
  | .hand => "Hand"
  | .play => "Play"
  | .secret => "Secret"
  | .graveyard => "Graveyard"
  | .setAside => "SetAside"
  | .removedFromGame => "RemovedFromGame"

def entityText (entity : GameEntityId) : String :=
  s!"GameEntityId({entity})"

def choiceText (choice : ChoiceId) : String :=
  s!"ChoiceId({choice})"

def nativeEffectText (id : NativeEffectId) : String :=
  s!"NativeEffectId({id.quote})"

def ResolutionError.text : ResolutionError → String
  | .budgetExhausted none => "resolution budget exhausted while executing None"
  | .budgetExhausted (some operation) => s!"resolution budget exhausted while executing Some(ResolutionId({operation}))"
  | .alreadyResolving => "resolution work already exists"
  | .missingEvent event => s!"prepared event EventId({event}) does not exist"
  | .missingEventSlot slot => s!"prepared event slot EventSlotId({slot}) does not exist"
  | .missingDrawResultSlot slot => s!"draw result slot DrawResultSlotId({slot}) does not exist"
  | .drawResultSlotAlreadyFilled slot => s!"draw result slot DrawResultSlotId({slot}) is already filled"
  | .emptyDrawResultSlot slot => s!"draw result slot DrawResultSlotId({slot}) is empty"
  | .noPendingChoice => "no player choice is pending"
  | .invalidChoice choice => s!"choice option {choiceText choice} is invalid"

def ZoneError.text : ZoneError → String
  | .entityNotFound entity => s!"game entity {entityText entity} does not exist"
  | .missingIndexEntry entity zone =>
    s!"game entity {entityText entity} is absent from authoritative {zone.debugName} index"
  | .full player zone => s!"{zone.debugName} is full for player {player.debugName}"
  | .invalidPosition zone position length => s!"position {position} is outside {zone.debugName} of length {length}"

def SimulationError.text : SimulationError → String
  | .gameOver => "the game is already over"
  | .notAwaitingAction => "the simulation is not awaiting an action"
  | .notPlayersTurn player => s!"it is not {player.debugName}'s turn"
  | .playerNotFound player => s!"player {player.debugName} does not exist"
  | .entityNotFound entity => s!"game entity {entityText entity} does not exist"
  | .notControlled entity => s!"entity {entityText entity} is controlled by another player"
  | .wrongZone entity expected => s!"entity {entityText entity} is not in {expected.debugName}"
  | .notPlayable entity => s!"entity {entityText entity} is not a playable card"
  | .notActiveHeroPower entity => s!"entity {entityText entity} is not an active Hero Power"
  | .heroPowerExhausted entity => s!"Hero Power {entityText entity} is exhausted"
  | .missingTarget card => s!"card {entityText card} requires a target"
  | .unexpectedTarget card => s!"card {entityText card} does not accept a target"
  | .invalidTarget card target => s!"entity {entityText target} is not a valid target for card {entityText card}"
  | .unsupportedActionChoice choice => s!"action choice {choiceText choice} is not supported"
  | .unexpectedBoardPosition card => s!"card {entityText card} does not accept a board position"
  | .invalidHeroReplacement reason => s!"invalid hero replacement: {reason}"
  | .invalidTriggerEnchantment reason => s!"invalid trigger enchantment: {reason}"
  | .invalidTransformation reason => s!"invalid transformation: {reason}"
  | .notEnoughMana player required available =>
    s!"player {player.debugName} needs {required} mana but only has {available}"
  | .boardFull player => s!"player {player.debugName}'s board is full"
  | .cannotAttack attacker => s!"attacker {entityText attacker} cannot attack"
  | .invalidDefender defender => s!"defender {entityText defender} is not a legal combat target"
  | .missingActionResult => "the simulation did not produce an action result"
  | .resolution error => s!"resolution failed: {error.text}"
  | .zone error => s!"zone operation failed: {error.text}"
  | .nativeEffectNotRegistered id => s!"native effect {nativeEffectText id} is not registered"
  | .nativeEffectFailed id reason => s!"native effect {nativeEffectText id} failed: {reason}"
  | .noModifiableEventValue => "an event-value modifier requires an active proposed damage or healing event"
  | .checkpoint reason => s!"simulation checkpoint failed: {reason}"
  | .invariant reason => s!"simulation invariant failed: {reason}"

def exactlyOne (id : PlayerId) (role : String) : List GameEntityId → Except String GameEntityId
  | [entity] => .ok entity
  | found => .error s!"player {id.debugName} has {found.length} {role} instead of one"

namespace World

def heroId (world : World) (player : PlayerId) : Option GameEntityId :=
  (world.zoneIndex player .play).find? fun id => world.get id (·.kind) = some .hero

def activeKind (world : World) (player : PlayerId) (kind : EntityKind) : List GameEntityId :=
  (world.zoneIndex player .play).filter fun id => world.get id (·.kind) = some kind

def checkOutcome (world : World) : World :=
  if world.gameState.outcome.isSome then
    world
  else
    let defeated := [PlayerId.one, .two].filter fun player => player ∈ world.defeatedHeroes
    let outcome : Option GameOutcome := match defeated with
      | [] => none
      | [player] => some (.winner player.opponent)
      | _ => some .draw
    match outcome with
    | none => world
    | some outcome =>
      { world with
        gameState := { world.gameState with outcome := some outcome }
        canonicalTrace := world.canonicalTrace ++ [.outcome (match outcome with
          | .winner player => some player
          | .draw => none)] }

section Players

variable [QueryOrder]

/-- The entity that holds the resources of a player, if the player's hero is in Play with its health. -/
def playerEntity (world : World) (id : PlayerId) : Option GameEntityId :=
  (world.player id).bind fun _ => (QueryOrder.iterEntities world).find? fun entity =>
    (world.get entity (·.player)).any fun player => player.id = id

def validatePlayerRoles (world : World) (id : PlayerId) : Except String Unit := do
  let object ← exactlyOne id "Player entities"
    ((QueryOrder.iterEntities world).filter fun entity => (world.get entity (·.player)).any fun player => player.id = id)
  if world.get object (·.controller) ≠ some id ∨ world.get object (·.kind) ≠ some .player then
    .error s!"player {id.debugName} has invalid Player components"
  else do
    let hero ← exactlyOne id "active Heroes" (world.activeKind id .hero)
    if (world.get hero (·.currentStats)).isNone ∨ (world.get hero (·.damage)).isNone ∨
        (world.get hero (·.armor)).isNone ∨ (world.get hero (·.attackState)).isNone ∨
        (world.get hero (·.heroClass)).isNone then
      .error s!"player {id.debugName} Hero lacks required components"
    else do
      let power ← exactlyOne id "active Hero Powers" (world.activeKind id .heroPower)
      if (world.get power (·.heroPowerState)).isNone ∨ (world.get power (·.cardRuntime)).isNone then
        .error s!"player {id.debugName} Hero Power lacks required components"
      else
        .ok ()

def assertPlayerRoleInvariants (world : World) : Except String Unit := do
  world.validatePlayerRoles .one
  world.validatePlayerRoles .two

end Players

end World

section Draws

variable [QueryOrder]

def changePlayer (id : PlayerId) (change : Player → Player) : Sim Unit := do
  let world ← .read
  let entity ← .ofExcept (okOr (world.playerEntity id) (.playerNotFound id))
  .change (·.modify entity fun components => { components with player := components.player.map change })

def moveEntityRequested (request : ZoneMoveRequest) : Sim ZoneMoveOutcome :=
  fun world =>
    let moved := world.moveEntityWithRequest request
    (moved.1, moved.2.mapError .zone)

/-- The first card of the deck is drawn; it is burned when the hand is full. -/
def drawCard (player : PlayerId) (card : GameEntityId) : Sim DrawOutcome := do
  match ← moveEntityRequested ⟨card, player, .hand, none, .draw⟩ with
  | .moved source _ _ => do
    trace (.zoneMoved card source .hand)
    pure (.drawn card)
  | .fullZoneRemoval source _ _ => do
    trace (.zoneMoved card source .graveyard)
    pure (.burned card)
  | .preventedByFullZone => raise (.invariant "draw was unexpectedly prevented by a full hand")

def drawFatigue (player : PlayerId) : Sim DrawOutcome := do
  let world ← .read
  let found ← .ofExcept (okOr (world.player player) (.playerNotFound player))
  if UInt32.size ≤ found.fatigue.toNat + 1 then
    raise (.invariant "fatigue counter overflow")
  else if 2 ^ 31 ≤ found.fatigue.toNat + 1 then
    raise (.invariant "fatigue damage exceeds i32")
  else do
    changePlayer player fun player => { player with fatigue := player.fatigue + 1 }
    pure (.fatigue (Int32.ofNat (found.fatigue.toNat + 1)))

def drawNext (player : PlayerId) : Sim DrawOutcome := do
  let world ← .read
  match (world.zoneIndex player .deck).head? with
  | some card => drawCard player card
  | none => drawFatigue player

def processDraw (request : DrawRequest) : Sim Unit := do
  let outcome ← drawNext request.player
  fillDrawResultSlot request.result outcome
  trace (.drawResolved request.player request.source outcome)
  match outcome with
  | .drawn card => do
    let event ← prepareEvent (eventContext .cardDrawn request.source [card] request.player)
    let _ ← pushResolutionOp (.resolveEvent event)
    pure ()
  | .burned _ => pure ()
  | .fatigue amount => do
    let world ← .read
    let hero ← .ofExcept (okOr (world.heroId request.player) (.playerNotFound request.player))
    applyDamage none hero amount

end Draws

end HearthstoneSimulator

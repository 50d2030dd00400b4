import BazelRepo.HearthstoneSimulator.ActionValidation

namespace HearthstoneSimulator

open Library

def Card.spawned (card : Card) (player : PlayerId) : Components :=
  { kind := some card.kind
    definitionId := some card.definitionId
    displayName := some card.name
    controller := some player
    playOrder := some 0
    baseStats := some ⟨card.attack, card.health⟩
    currentStats := some ⟨card.attack, card.health⟩
    damage := some 0
    attackState := some ⟨0, true⟩
    baseKeywords := some card.keywords
    keywords := some card.keywords
    cardRuntime := some ⟨card.manaCost, card.manaCost, card.effects, card.targeting⟩
    runtimeTriggers := some card.triggers
    runtimeAuras := some card.auras
    runtimeContinuousEffects := some card.continuousEffects
    weaponState := if card.kind = .weapon then some ⟨card.durability, card.durability⟩ else none
    heroPowerState := if card.kind = .heroPower then some ⟨0, false⟩ else none
    armor := if card.kind = .hero then some 0 else none
    heroClass := if card.kind = .hero then some .neutral else none }

namespace World

def validateGenerationCapacity (world : World) (player : PlayerId) (zone : Zone) (kind : EntityKind)
    (definitionId : String) : Except ZoneError Unit :=
  if world.generatedDestinationIsFull player zone kind definitionId then .error (.full player zone) else .ok ()

def resolveGenerationPosition (world : World) (player : PlayerId) (zone : Zone) (kind : EntityKind)
    (boardPosition : Option Nat) : Except ZoneError (Option Nat) :=
  if zone ≠ .play ∨ isBoardEntity kind = false then
    .ok none
  else
    match boardPosition with
    | none => .ok none
    | some boardPosition => do
      world.validateBoardPosition player (some boardPosition)
      .ok (some (world.boardPositionToZonePosition player boardPosition))

def validateCardSpawn (world : World) (player : PlayerId) (card : Card) (zone : Zone) (boardPosition : Option Nat) :
    Except SimulationError (Option Nat) := do
  validateCard card
  (world.validateGenerationCapacity player zone card.kind card.definitionId).mapError .zone
  (world.resolveGenerationPosition player zone card.kind boardPosition).mapError .zone

/-- An entity that finds no place is gone again; only its number stays used. -/
def spawnValidatedCard (world : World) (player : PlayerId) (card : Card) (zone : Zone) (position : Option Nat) :
    World × Except SimulationError GameEntityId :=
  let (world, id) := world.allocateGameId
  let spawned := { world with entities := world.entities.insert id (card.spawned player) }
  match spawned.insertIntoZone id player zone position with
  | .error error => (world, .error (.zone error))
  | .ok inserted => (inserted.trackEntry id, .ok id)

def spawnCardAt (world : World) (player : PlayerId) (card : Card) (zone : Zone) (boardPosition : Option Nat) :
    World × Except SimulationError GameEntityId :=
  match world.validateCardSpawn player card zone boardPosition with
  | .error error => (world, .error error)
  | .ok position => world.spawnValidatedCard player card zone position

def spawnCard (world : World) (player : PlayerId) (card : Card) (zone : Zone) :
    World × Except SimulationError GameEntityId :=
  world.spawnCardAt player card zone none

section Summon

variable [QueryOrder]

/-- The place a summoned card takes, if one was asked for, and its number in the order of play. -/
def settleSummoned (world : World) (summoned : GameEntityId) (boardIndex : Option Nat) :
    World × Except SimulationError GameEntityId :=
  let moved : World × Except ZoneError Unit :=
    match boardIndex with
    | none => (world, .ok ())
    | some index =>
      match world.moveEntity summoned .play (some index) with
      | (world, .error error) => (world, .error error)
      | (world, .ok _) => (world, .ok ())
  match moved with
  | (world, .error error) => (world, .error (.zone error))
  | (world, .ok _) =>
    let (world, order) := world.allocatePlayOrder
    (world.modify summoned fun components => { components with playOrder := some order }, .ok summoned)

def summon (world : World) (player : PlayerId) (card : Card) (boardIndex : Option Nat) :
    World × Except SimulationError (Option GameEntityId) :=
  if card.kind = .minion ∧ world.boardIsFull player then
    (world, .ok none)
  else
    match world.validateBoardPosition player boardIndex with
    | .error error => (world, .error (.zone error))
    | .ok _ =>
      match world.spawnCard player card .play with
      | (world, .error error) => (world, .error error)
      | (world, .ok summoned) =>
        match world.settleSummoned summoned boardIndex with
        | (world, .error error) => (world, .error error)
        | (world, .ok summoned) => (world, .ok (some summoned))

end Summon

end World

end HearthstoneSimulator

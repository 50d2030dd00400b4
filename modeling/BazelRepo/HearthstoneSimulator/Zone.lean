import BazelRepo.HearthstoneSimulator.Aura

namespace HearthstoneSimulator

open Library

def zoneLimit (ruleset : Ruleset) : Zone → Option Nat
  | .deck => some ruleset.deckLimit
  | .hand => some ruleset.handLimit
  | .secret => some ruleset.secretLimit
  | .play | .graveyard | .setAside | .removedFromGame => none

def isBoardEntity : EntityKind → Bool
  | .minion | .location | .permanent | .dormant => true
  | _ => false

def WeaponEquipment.supersedes (equipment : WeaponEquipment) (id : GameEntityId) : Bool :=
  equipment.pending.toList.any fun scope => scope.2 = some id

namespace World

def entryIsBoardEntity (world : World) (id : GameEntityId) : Bool :=
  (world.get id (·.kind)).any isBoardEntity

def boardEntities (world : World) (player : PlayerId) : List GameEntityId :=
  (world.zoneIndex player .play).filter world.entryIsBoardEntity

def boardIsFull (world : World) (player : PlayerId) : Bool :=
  world.ruleset.boardLimit ≤ (world.boardEntities player).length

def countKind (world : World) (entries : List GameEntityId) (kind : EntityKind) : Nat :=
  entries.countP fun id => world.get id (·.kind) = some kind

def zoneIsFull (world : World) (player : PlayerId) (zone : Zone) : Bool :=
  (zoneLimit world.ruleset zone).any fun limit => limit ≤ (world.zoneIndex player zone).length

def kindLimit (ruleset : Ruleset) : EntityKind → Option Nat
  | .hero => some ruleset.heroLimit
  | .weapon => some ruleset.weaponLimit
  | .heroPower => some ruleset.heroPowerLimit
  | _ => none

def playIsFull (world : World) (player : PlayerId) (kind : EntityKind) : Bool :=
  (isBoardEntity kind && world.boardIsFull player) ||
    (kindLimit world.ruleset kind).any fun limit => limit ≤ world.countKind (world.zoneIndex player .play) kind

def secretsAreFull (world : World) (player : PlayerId) (kind : EntityKind) (definitionId : String) : Bool :=
  let entries := world.zoneIndex player .secret
  (kind = .quest && world.ruleset.questLimit ≤ world.countKind entries .quest) ||
    ((kind = .secret || kind = .sidequest) &&
      entries.any fun id => world.get id (·.definitionId) = some definitionId)

def generatedDestinationIsFull (world : World) (player : PlayerId) (zone : Zone) (kind : EntityKind)
    (definitionId : String) : Bool :=
  world.zoneIsFull player zone || (zone = .play && world.playIsFull player kind) ||
    (zone = .secret && world.secretsAreFull player kind definitionId)

/-- A weapon that is being equipped, replaced or wielded enters its controller's Play zone without a limit. -/
def replacementExempt (world : World) (id : GameEntityId) (player : PlayerId) (zone : Zone) : Bool :=
  zone = .play && world.get id (·.controller) = some player && world.get id (·.kind) = some .weapon &&
    (world.weaponEquipment.pending.contains id || world.weaponEquipment.supersedes id ||
      world.weaponEquipment.active player = some id)

def destinationIsFull (world : World) (id : GameEntityId) (player : PlayerId) (zone : Zone) : Bool :=
  if world.replacementExempt id player zone then
    false
  else if world.zoneIsFull player zone then
    true
  else
    match world.get id (·.kind) with
    | none => false
    | some kind => world.generatedDestinationIsFull player zone kind ((world.get id (·.definitionId)).getD "")

def validatePosition (zone : Zone) (length : Nat) (position : Option Nat) : Except ZoneError Unit :=
  match position with
  | none => .ok ()
  | some position => if length < position then .error (.invalidPosition zone position length) else .ok ()

def validateBoardPosition (world : World) (player : PlayerId) (position : Option Nat) : Except ZoneError Unit :=
  validatePosition .play (world.boardEntities player).length position

def validateZonePosition (world : World) (player : PlayerId) (zone : Zone) (position : Option Nat) :
    Except ZoneError Unit :=
  validatePosition zone (world.zoneIndex player zone).length position

/-- The entry of the board entity that stands at a board position; past the last one, the entry after it. -/
def boardPositionToZonePosition (world : World) (player : PlayerId) (boardPosition : Nat) : Nat :=
  let entries := world.zoneIndex player .play
  let positions := entries.zipIdx.filterMap fun entry => if world.entryIsBoardEntity entry.1 then some entry.2 else none
  match positions[boardPosition]? with
  | some position => position
  | none => (positions.getLast?.map (· + 1)).getD entries.length

def setZonePosition (world : World) (entry : GameEntityId × Nat) : World :=
  world.modify entry.1 fun components => { components with zonePosition := some entry.2 }

def refreshPositions (world : World) (player : PlayerId) (zone : Zone) : World :=
  (world.zoneIndex player zone).zipIdx.foldl setZonePosition world

def setEntries (world : World) (player : PlayerId) (zone : Zone) (entries : List GameEntityId) : World :=
  { world with
    zoneIndex := Function.update world.zoneIndex player (Function.update (world.zoneIndex player) zone entries) }

def insertIntoZoneUnchecked (world : World) (id : GameEntityId) (player : PlayerId) (zone : Zone)
    (position : Option Nat) : World :=
  let entries := world.zoneIndex player zone
  let world := world.setEntries player zone (entries.insertIdx (position.getD entries.length) id)
  let world := world.modify id fun components => { components with controller := some player, zone := some zone }
  world.refreshPositions player zone

def insertIntoZone (world : World) (id : GameEntityId) (player : PlayerId) (zone : Zone) (position : Option Nat) :
    Except ZoneError World := do
  let _ ← okOr world.entities[id]? (.entityNotFound id)
  if world.destinationIsFull id player zone then
    .error (.full player zone)
  else
    world.validateZonePosition player zone position
    .ok (world.insertIntoZoneUnchecked id player zone position)

def semanticZonePosition (world : World) (id : GameEntityId) (player : PlayerId) (zone : Zone) : Option Nat :=
  if zone = .play ∧ world.entryIsBoardEntity id then
    (world.boardEntities player).idxOf? id
  else
    (world.zoneIndex player zone).idxOf? id

def resolveDestinationPosition (world : World) (id : GameEntityId) (player : PlayerId) (zone : Zone)
    (requested preservedIndex : Option Nat) : Except ZoneError (Option Nat) :=
  match requested with
  | some boardPosition =>
    if zone = .play ∧ world.entryIsBoardEntity id then do
      world.validateBoardPosition player (some boardPosition)
      .ok (some (world.boardPositionToZonePosition player boardPosition))
    else do
      world.validateZonePosition player zone requested
      .ok requested
  | none => do
    world.validateZonePosition player zone preservedIndex
    .ok preservedIndex

def removeFromIndex (world : World) (id : GameEntityId) (player : PlayerId) (zone : Zone) :
    Except ZoneError (World × Nat) := do
  let entries := world.zoneIndex player zone
  let position ← okOr (entries.idxOf? id) (.missingIndexEntry id zone)
  .ok ((world.setEntries player zone (entries.eraseIdx position)).refreshPositions player zone, position)

def trackedEquipment (world : World) (id : GameEntityId) : WeaponEquipment :=
  match world.entities[id]? with
  | none => world.weaponEquipment
  | some components =>
    let equipment := world.weaponEquipment
    let inPlay : Bool := components.zone = some .play ∧ components.kind = some .weapon
    let retained := fun player =>
      (equipment.active player).filter fun weapon => weapon ≠ id ∨ inPlay ∧ some player = components.controller
    let active := match components.controller with
      | some player =>
        if inPlay ∧ ¬ equipment.supersedes id then
          Function.update retained player (some ((retained player).getD id))
        else
          retained
      | none => retained
    { equipment with active := active }

def trackEntry (world : World) (id : GameEntityId) : World :=
  { world with weaponEquipment := world.trackedEquipment id }

def clearPostDeathAuras (world : World) (id : GameEntityId) : World :=
  (world.modify id fun components =>
    { components with attackAuraCache := none, otherAuraCache := none }).recalculateStats id

section Movement

variable [QueryOrder]

/-- What follows a move, where `reset` takes the runtime state of the entity away. -/
def applyMovementStatePolicyWith (reset : World → GameEntityId → World) (world : World) (request : ZoneMoveRequest)
    (source : Zone) : World :=
  let id := request.entity
  let world :=
    if request.destination = .play ∧ source ≠ .play then
      let allocated := world.allocatePlayOrder
      allocated.1.modify id fun components => { components with playOrder := some allocated.2 }
    else
      world
  let world := world.trackEntry id
  let world := if source = .play ∧ request.destination ≠ .play then world.clearPostDeathAuras id else world
  let world :=
    if resetsRuntimeState request.kind source request.destination then
      reset world id
    else if source = .hand ∧ request.destination = .play then
      world.modify id fun components => { components with pendingDestroy := false }
    else
      world
  if source = request.destination ∧ request.destination = .play then
    world.modify id fun components =>
      { components with attackState := components.attackState.map fun attack => { attack with readinessBlocked := true } }
  else
    world

def isMortal : EntityKind → Bool
  | .minion | .location | .weapon => true
  | _ => false

def recordFullZoneDeath (world : World) (id : GameEntityId) (rememberedZonePosition : Nat) : World :=
  match world.get id (·.controller), world.get id (·.kind) with
  | some controller, some kind =>
    if isMortal kind then
      let record : DeathRecord :=
        { entity := id
          controller := controller
          kind := kind
          playOrder := (world.get id (·.playOrder)).getD 0
          rememberedZonePosition := rememberedZonePosition
          simultaneousOrdinal := world.pendingDeaths.length
          turnOfDeath := world.gameState.turnNumber }
      { world with
        canonicalTrace := world.canonicalTrace ++ [.entityDied id]
        deathEventCache := world.deathEventCache ++ [record]
        pendingDeaths := world.pendingDeaths ++ [record] }
    else
      world
  | _, _ => world

def moveToGraveyardAfterFailedMoveWith (reset : World → GameEntityId → World) (world : World) (id : GameEntityId)
    (source : Zone) (controller : PlayerId) (kind : ZoneMovementKind) : World × Except ZoneError ZoneMoveOutcome :=
  match world.semanticZonePosition id controller source with
  | none => (world, .error (.missingIndexEntry id source))
  | some rememberedPosition =>
    match world.removeFromIndex id controller source with
    | .error error => (world, .error error)
    | .ok (removed, _) =>
      match removed.insertIntoZone id controller .graveyard none with
      | .error error => (removed, .error error)
      | .ok inserted =>
        let request : ZoneMoveRequest := ⟨id, controller, .graveyard, none, kind⟩
        let moved := applyMovementStatePolicyWith reset inserted request source
        (if kind = .death then moved.recordFullZoneDeath id rememberedPosition else moved,
          .ok (.fullZoneRemoval source controller rememberedPosition))

def relocateWith (reset : World → GameEntityId → World) (world : World) (request : ZoneMoveRequest) (source : Zone)
    (sourceController : PlayerId) : World × Except ZoneError ZoneMoveOutcome :=
  match world.semanticZonePosition request.entity sourceController source with
  | none => (world, .error (.missingIndexEntry request.entity source))
  | some rememberedPosition =>
    match world.removeFromIndex request.entity sourceController source with
    | .error error => (world, .error error)
    | .ok (removed, sourcePosition) =>
      let sameZone : Bool := source = request.destination ∧ sourceController = request.destinationController
      match removed.resolveDestinationPosition request.entity request.destinationController request.destination
          request.position (if sameZone then some sourcePosition else none) with
      | .error error =>
        (removed.insertIntoZoneUnchecked request.entity sourceController source (some sourcePosition), .error error)
      | .ok position =>
        let inserted :=
          removed.insertIntoZoneUnchecked request.entity request.destinationController request.destination position
        (applyMovementStatePolicyWith reset inserted request source,
          .ok (.moved source sourceController rememberedPosition))

def fullZoneMovementKind (kind : ZoneMovementKind) (source : Zone) : ZoneMovementKind :=
  if kind = .draw then .burn else if source = .play then .death else .discard

def moveEntityWith (reset : World → GameEntityId → World) (world : World) (request : ZoneMoveRequest) :
    World × Except ZoneError ZoneMoveOutcome :=
  match world.get request.entity (·.zone), world.get request.entity (·.controller) with
  | some source, some sourceController =>
    let sameZone : Bool := source = request.destination ∧ sourceController = request.destinationController
    if !sameZone && world.destinationIsFull request.entity request.destinationController request.destination then
      if request.kind = .forcePlay then
        (world, .ok .preventedByFullZone)
      else
        moveToGraveyardAfterFailedMoveWith reset world request.entity source sourceController
          (fullZoneMovementKind request.kind source)
    else
      relocateWith reset world request source sourceController
  | _, _ => (world, .error (.entityNotFound request.entity))

def detachRequest (world : World) (attachment : GameEntityId) : ZoneMoveRequest :=
  ⟨attachment, (world.get attachment (·.controller)).getD .one, .removedFromGame, none, .detachEnchantment⟩

def moveDetached (world : World) (attachment : GameEntityId) : World :=
  let detached := world.modify attachment fun components => { components with attachedTo := none }
  (moveEntityWith (fun world _ => world) detached (detached.detachRequest attachment)).1

def resetComponents (before components : Components) : Components :=
  { components with
    pendingDestroy := false
    silenced := false
    damage := some 0
    keywords := some (before.baseKeywords.getD ∅)
    healthAuraCache := none
    attackAuraCache := none
    otherAuraCache := none
    currentStats := match before.baseStats with
      | some base => some ⟨base.attack, base.health⟩
      | none => components.currentStats
    attackState := before.attackState.map fun _ => ⟨0, true⟩
    armor := before.armor.map fun _ => 0 }

def resetRuntimeState (world : World) (id : GameEntityId) : World :=
  let world := world.modify id fun components =>
    { components with weaponState := components.weaponState.map fun state => { state with durability := state.baseDurability } }
  match world.entities[id]? with
  | none => world
  | some before =>
    let attachments :=
      if before.keepEnchantments then
        []
      else
        (QueryOrder.iterEntities world).filter fun candidate => world.get candidate (·.attachedTo) = some id
    let world := attachments.foldl moveDetached world
    let world := world.modify id (resetComponents before)
    ((world.recalculateStats id).recalculateKeywords id).recalculateCost id

def moveEntityWithRequest (world : World) (request : ZoneMoveRequest) : World × Except ZoneError ZoneMoveOutcome :=
  moveEntityWith resetRuntimeState world request

def moveEntity (world : World) (id : GameEntityId) (destination : Zone) (position : Option Nat) :
    World × Except ZoneError ZoneMoveOutcome :=
  match world.get id (·.controller) with
  | none => (world, .error (.entityNotFound id))
  | some controller => world.moveEntityWithRequest ⟨id, controller, destination, position, .normal⟩

end Movement

end World

end HearthstoneSimulator

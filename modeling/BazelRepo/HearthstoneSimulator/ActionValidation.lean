import BazelRepo.HearthstoneSimulator.Equipment
import Mathlib.Data.List.Dedup

namespace HearthstoneSimulator

open Library

namespace World

def hasKeyword (world : World) (target : GameEntityId) (keyword : Keyword) : Bool :=
  ((world.get target (·.keywords)).any fun keywords => keyword ∈ keywords) ||
    (keyword = .immune &&
      (world.get target (·.otherAuraCache)).any fun cache => cache.any fun application => application.modifier = .immune)

def sortedIds (ids : List GameEntityId) : List GameEntityId :=
  (ids.mergeSort fun a b => a ≤ b).dedup

def audience (player : PlayerId) : TargetAudience → List PlayerId
  | .friendly => [player]
  | .enemy => [player.opponent]
  | .either => [.one, .two]

def kindMatches : TargetKind → EntityKind → Bool
  | .minion, .minion | .hero, .hero | .character, .minion | .character, .hero => true
  | _, _ => false

def targetMatches (world : World) (candidate : GameEntityId) (players : List PlayerId) (kind : TargetKind) : Bool :=
  world.get candidate (·.zone) = some .play &&
    ((world.get candidate (·.controller)).any fun controller => controller ∈ players) &&
      (world.get candidate (·.kind)).any (kindMatches kind)

/-- Holds of declared targets only: random and area effects do not ask it. -/
def permitsDirectTarget (world : World) (player : PlayerId) (target : GameEntityId) : Bool :=
  world.get target (·.controller) = some player ||
    (!world.hasKeyword target .stealth && !world.hasKeyword target .immune)

def eligibleTargets (world : World) (player : PlayerId) (filter : TargetFilter) : List GameEntityId :=
  let players := audience player filter.audience
  sortedIds ((players.flatMap fun candidatePlayer => world.zoneIndex candidatePlayer .play).filter fun candidate =>
    world.targetMatches candidate players filter.kind && world.permitsDirectTarget player candidate)

def targetOptions (world : World) (player : PlayerId) : TargetRequirement → List (Option GameEntityId)
  | .none => [none]
  | .required filter => (world.eligibleTargets player filter).map some
  | .optional filter => none :: (world.eligibleTargets player filter).map some
  | .requiredIfAvailable filter =>
    let targets := world.eligibleTargets player filter
    if targets.isEmpty then [none] else targets.map some

def activeTaunt (world : World) (player : PlayerId) (target : GameEntityId) : Bool :=
  world.get target (·.kind) = some .minion && world.hasKeyword target .taunt && world.permitsDirectTarget player target

/-- The weapon that adds to the attack of a hero on its controller's turn. -/
def attackWeapon (world : World) (entity : GameEntityId) : Option (PlayerId × GameEntityId) :=
  if world.get entity (·.kind) = some .hero then
    (world.get entity (·.controller)).bind fun controller =>
      if world.gameState.activePlayer = controller then
        (world.activeWeapon controller).map fun weapon => (controller, weapon)
      else
        none
  else
    none

def effectiveAttack (world : World) (entity : GameEntityId) : Int32 :=
  let attack := fun id => ((world.get id (·.currentStats)).map (·.attack)).getD 0
  saturatingAdd (attack entity) (((world.attackWeapon entity).map fun weapon => attack weapon.2).getD 0)

def grantsWindfury (world : World) (entity : GameEntityId) : Bool :=
  (world.attackWeapon entity).any fun weapon => world.hasKeyword weapon.2 .windfury

def attackExhausted (world : World) (entity : GameEntityId) (state : AttackState) : Bool :=
  let allowance := if world.hasKeyword entity .windfury || world.grantsWindfury entity then 2 else 1
  let bypassesReadiness := world.get entity (·.kind) = some .minion &&
    (world.hasKeyword entity .charge || world.hasKeyword entity .rush)
  (state.readinessBlocked && !bypassesReadiness) || allowance ≤ state.attacksThisTurn

def controlledEntityInZone (world : World) (player : PlayerId) (id : GameEntityId) (expected : Zone) :
    Except SimulationError Components := do
  let components ← okOr world.entities[id]? (.entityNotFound id)
  if components.controller ≠ some player then
    .error (.notControlled id)
  else if components.zone ≠ some expected then
    .error (.wrongZone id expected)
  else
    .ok components

def player [QueryOrder] (world : World) (id : PlayerId) : Option Player := do
  let object ← (QueryOrder.iterEntities world).find? fun entity =>
    (world.get entity (·.player)).any fun player => player.id = id
  let found ← world.get object (·.player)
  let hero ← (world.zoneIndex id .play).find? fun entity => world.get entity (·.kind) = some .hero
  let _ ← world.get hero (·.currentStats)
  let _ ← world.get hero (·.damage)
  some found

def validateCard (card : Card) : Except SimulationError Unit :=
  if card.kind = .weapon ∧ card.durability ≤ 0 then
    .error (.invariant "weapon base durability must be positive")
  else
    .ok ()

def modifiesEventValue : Option EventKind → Bool
  | some .proposedDamage | some .proposedHealing => true
  | _ => false

def validateOptionIds (options : List EffectChoiceOption) : Except SimulationError Unit :=
  if options.isEmpty ∨ ¬ (options.map (·.id)).Nodup then
    .error (.invariant "choice requires nonempty, unique options")
  else
    .ok ()

def validateAddedTrigger (trigger : TriggerDefinition) : Except SimulationError Unit :=
  if trigger.event = .death then
    .error (.invalidTriggerEnchantment "added Deathrattles are not supported")
  else if trigger.eligibleZones ≠ [.play] then
    .error (.invalidTriggerEnchantment "eligible zones must be exactly [Play]")
  else if trigger.sourceEligibility ≠ .mustRemainInEligibleZone then
    .error (.invalidTriggerEnchantment "source must remain in Play")
  else
    .ok ()

def validateReplacementKinds (hero heroPower : Card) (weapon : Option Card) (health : HeroHealthPolicy) :
    Except SimulationError Unit :=
  if hero.kind ≠ .hero then
    .error (.invalidHeroReplacement "replacement hero must have Hero kind")
  else if heroPower.kind ≠ .heroPower then
    .error (.invalidHeroReplacement "replacement Hero Power must have HeroPower kind")
  else if weapon.any fun weapon => weapon.kind ≠ .weapon then
    .error (.invalidHeroReplacement "replacement weapon must have Weapon kind")
  else
    match health with
    | .preserve => .ok ()
    | .set maximumHealth currentHealth =>
      if maximumHealth ≤ 0 ∨ currentHealth < 0 ∨ maximumHealth < currentHealth then
        .error (.invalidHeroReplacement
          "replacement Health must satisfy 0 <= current <= maximum and maximum > 0")
      else
        .ok ()

mutual

def validateEffects (world : World) (event : Option EventKind) (allowPlayedSelf : Bool) :
    List Effect → Except SimulationError Unit
  | [] => .ok ()
  | effect :: rest => do
    validateEffect world event allowPlayedSelf effect
    validateEffects world event allowPlayedSelf rest

def validateEffect (world : World) (event : Option EventKind) (allowPlayedSelf : Bool) :
    Effect → Except SimulationError Unit
  | .native id => if id ∈ world.nativeEffectRegistry then .ok () else .error (.nativeEffectNotRegistered id)
  | .modifyEventValue .. => if modifiesEventValue event then .ok () else .error .noModifiableEventValue
  | .transform targets card kind =>
    if kind = .playedSelf ∧ (allowPlayedSelf = false ∨ targets ≠ .source) then
      .error (.invalidTransformation "played-self transforms require a minion play program and Source target")
    else
      validateCardProgram world card
  | .choose _ _ options => do
    validateOptionIds options
    validateOptions world options
  | .drawThen _ nested _ => validateEffects world none false nested
  | .sequence nested => validateEffects world event allowPlayedSelf nested
  | .summon _ card _ => validateCardProgram world card
  | .replaceHero _ replacement => validateHeroReplacement world replacement
  | .attachTriggerEnchantment _ triggers _ _ =>
    if triggers.isEmpty then
      .error (.invalidTriggerEnchantment "at least one trigger is required")
    else
      validateAddedTriggers world triggers
  | _ => .ok ()

def validateOptions (world : World) : List EffectChoiceOption → Except SimulationError Unit
  | [] => .ok ()
  | option :: rest => do
    validateOption world option
    validateOptions world rest

def validateOption (world : World) : EffectChoiceOption → Except SimulationError Unit
  | ⟨_, effects⟩ => validateEffects world none false effects

def validateAddedTriggers (world : World) : List TriggerDefinition → Except SimulationError Unit
  | [] => .ok ()
  | trigger :: rest => do
    validateAddedTrigger trigger
    validateTriggerProgram world trigger
    validateAddedTriggers world rest

def validateTriggerProgram (world : World) : TriggerDefinition → Except SimulationError Unit
  | ⟨event, _, _, _, _, _, program⟩ => validateEffects world (some event) false program

def validateTriggerPrograms (world : World) : List TriggerDefinition → Except SimulationError Unit
  | [] => .ok ()
  | trigger :: rest => do
    validateTriggerProgram world trigger
    validateTriggerPrograms world rest

def validateCardProgram (world : World) : Card → Except SimulationError Unit
  | card@⟨_, _, kind, _, _, _, _, _, effects, triggers, _, _, _⟩ => do
    validateCard card
    validateEffects world none (kind = .minion) effects
    validateTriggerPrograms world triggers

def validateWeaponProgram (world : World) : Option Card → Except SimulationError Unit
  | none => .ok ()
  | some weapon => validateCardProgram world weapon

def validateHeroReplacement (world : World) : HeroReplacement → Except SimulationError Unit
  | ⟨hero, heroPower, _, health, _, weapon⟩ => do
    validateReplacementKinds hero heroPower weapon health
    validateCardProgram world hero
    validateCardProgram world heroPower
    validateWeaponProgram world weapon

end

def validateEffectProgram (world : World) (effects : List Effect) (event : Option EventKind) :
    Except SimulationError Unit :=
  validateEffects world event false effects

def validatePlayEffectProgram (world : World) (effects : List Effect) : Except SimulationError Unit :=
  validateEffects world none true effects

def validateSuppliedTarget (world : World) (player : PlayerId) (card target : GameEntityId) (filter : TargetFilter) :
    Except SimulationError Unit :=
  if target ∈ world.eligibleTargets player filter then .ok () else .error (.invalidTarget card target)

def validateTarget (world : World) (player : PlayerId) (card : GameEntityId) (target : Option GameEntityId) :
    TargetRequirement → Except SimulationError Unit
  | .none =>
    match target with
    | none => .ok ()
    | some _ => .error (.unexpectedTarget card)
  | .required filter =>
    match target with
    | none => .error (.missingTarget card)
    | some target => world.validateSuppliedTarget player card target filter
  | .optional filter =>
    match target with
    | none => .ok ()
    | some target => world.validateSuppliedTarget player card target filter
  | .requiredIfAvailable filter =>
    match target with
    | none => if (world.eligibleTargets player filter).isEmpty then .ok () else .error (.missingTarget card)
    | some target => world.validateSuppliedTarget player card target filter

def isPlayable : EntityKind → Bool
  | .minion | .spell | .weapon => true
  | _ => false

def isBrokenWeapon (components : Components) : Bool :=
  match components.weaponState with
  | none => true
  | some state => state.baseDurability ≤ 0 || state.durability ≤ 0

def validatePrograms (world : World) (kind : EntityKind) (runtime : CardRuntime) (triggers : List TriggerDefinition) :
    Except SimulationError Unit := do
  if kind = .minion then validatePlayEffectProgram world runtime.program
  else validateEffectProgram world runtime.program none
  validateTriggerPrograms world triggers

section Actions

variable [QueryOrder]

def validateResources (world : World) (id : PlayerId) (runtime : CardRuntime) : Except SimulationError Unit := do
  let player ← okOr (world.player id) (.playerNotFound id)
  let available := player.availableResources
  let cost := max runtime.cost 0
  if available < cost then .error (.notEnoughMana id cost available) else .ok ()

def validateChoice : Option ChoiceId → Except SimulationError Unit
  | none => .ok ()
  | some choice => .error (.unsupportedActionChoice choice)

def validatePlayPosition (world : World) (player : PlayerId) (card : GameEntityId) (kind : EntityKind)
    (boardIndex : Option Nat) : Except SimulationError (Option Nat) :=
  if kind = .minion then do
    (world.validateBoardPosition player boardIndex).mapError .zone
    .ok (some (boardIndex.getD (world.boardEntities player).length))
  else if boardIndex.isSome then
    .error (.unexpectedBoardPosition card)
  else
    .ok none

def validatePlayCard (world : World) (player : PlayerId) (card : GameEntityId) (target : Option GameEntityId)
    (boardIndex : Option Nat) (choice : Option ChoiceId) : Except SimulationError (Option Nat) := do
  let components ← world.controlledEntityInZone player card .hand
  let kind ← okOr components.kind (.notPlayable card)
  if !isPlayable kind then
    .error (.notPlayable card)
  else if kind = .weapon ∧ isBrokenWeapon components then
    .error (.notPlayable card)
  else if kind = .minion ∧ world.boardIsFull player then
    .error (.boardFull player)
  else do
    let runtime ← okOr components.cardRuntime (.notPlayable card)
    let triggers ← okOr components.runtimeTriggers (.notPlayable card)
    world.validatePrograms kind runtime triggers
    world.validateResources player runtime
    validateChoice choice
    world.validateTarget player card target runtime.targeting
    world.validatePlayPosition player card kind boardIndex

def validateHeroPower (world : World) (player : PlayerId) (power : GameEntityId) (target : Option GameEntityId) :
    Except SimulationError Unit := do
  let components ← world.controlledEntityInZone player power .play
  if components.kind ≠ some .heroPower then
    .error (.notActiveHeroPower power)
  else do
    let state ← okOr components.heroPowerState (.notActiveHeroPower power)
    if state.exhausted then
      .error (.heroPowerExhausted power)
    else do
      let runtime ← okOr components.cardRuntime (.notActiveHeroPower power)
      world.validateEffectProgram runtime.program none
      world.validateResources player runtime
      world.validateTarget player power target runtime.targeting

def isCombatant : Option EntityKind → Bool
  | some .hero | some .minion => true
  | _ => false

omit [QueryOrder] in
def validateDefender (world : World) (player : PlayerId) (attacker : GameEntityId) (state : AttackState)
    (defender : GameEntityId) : Except SimulationError Unit := do
  let components ← okOr world.entities[defender]? (.entityNotFound defender)
  if components.zone ≠ some .play ∨ components.controller ≠ some player.opponent ∨ !isCombatant components.kind then
    .error (.invalidDefender defender)
  else if state.readinessBlocked ∧ world.get attacker (·.kind) = some .minion ∧ !world.hasKeyword attacker .charge ∧
      components.kind = some .hero then
    .error (.invalidDefender defender)
  else if !world.permitsDirectTarget player defender then
    .error (.invalidDefender defender)
  else if (world.zoneIndex player.opponent .play).any (world.activeTaunt player) ∧
      !world.activeTaunt player defender then
    .error (.invalidDefender defender)
  else
    .ok ()

def validateAttack (world : World) (player : PlayerId) (attacker defender : GameEntityId) :
    Except SimulationError Unit := do
  let components ← world.controlledEntityInZone player attacker .play
  if !isCombatant components.kind then
    .error (.cannotAttack attacker)
  else do
    let state ← okOr components.attackState (.cannotAttack attacker)
    if world.hasKeyword attacker .frozen ∨ world.attackExhausted attacker state ∨ world.effectiveAttack attacker ≤ 0 then
      .error (.cannotAttack attacker)
    else
      world.validateDefender player attacker state defender

def validateActionKind (world : World) : GameAction → Except SimulationError GameAction
  | .playCard player card target boardIndex choice => do
    let boardIndex ← world.validatePlayCard player card target boardIndex choice
    .ok (.playCard player card target boardIndex choice)
  | .attack player attacker defender => do
    world.validateAttack player attacker defender
    .ok (.attack player attacker defender)
  | .useHeroPower player power target => do
    world.validateHeroPower player power target
    .ok (.useHeroPower player power target)
  | .endTurn player => .ok (.endTurn player)
  | .concede player => .ok (.concede player)

def validateAction (world : World) (action : GameAction) : Except SimulationError GameAction :=
  if world.gameState.outcome.isSome then
    .error .gameOver
  else if world.gameState.status ≠ .awaitingAction then
    .error .notAwaitingAction
  else if world.gameState.activePlayer ≠ action.player then
    .error (.notPlayersTurn action.player)
  else
    world.validateActionKind action

def boardIndexes (world : World) (player : PlayerId) : List Nat :=
  List.range ((world.boardEntities player).length + 1)

def cardCandidates (world : World) (active : PlayerId) (card : GameEntityId) : List GameAction :=
  match world.get card (·.kind), world.get card (·.cardRuntime) with
  | some kind, some runtime =>
    match kind with
    | .minion =>
      (world.targetOptions active runtime.targeting).flatMap fun target =>
        (world.boardIndexes active).map fun boardIndex => .playCard active card target (some boardIndex) none
    | .spell | .weapon =>
      (world.targetOptions active runtime.targeting).map fun target => .playCard active card target none none
    | _ => []
  | _, _ => []

def powerCandidates (world : World) (active : PlayerId) (power : GameEntityId) : List GameAction :=
  if world.get power (·.kind) = some .heroPower then
    match world.get power (·.cardRuntime) with
    | none => []
    | some runtime => (world.targetOptions active runtime.targeting).map fun target => .useHeroPower active power target
  else
    []

def attackCandidates (world : World) (active : PlayerId) (attacker : GameEntityId) : List GameAction :=
  (sortedIds (world.zoneIndex active.opponent .play)).map fun defender => .attack active attacker defender

/-- The actions that are offered to the validation, in the order in which they are. -/
def candidateActions (world : World) (active : PlayerId) : List GameAction :=
  [.endTurn active] ++ (sortedIds (world.zoneIndex active .hand)).flatMap (world.cardCandidates active) ++
    (sortedIds (world.zoneIndex active .play)).flatMap (world.attackCandidates active) ++
    (sortedIds (world.zoneIndex active .play)).flatMap (world.powerCandidates active) ++ [.concede active]

def legalActions (world : World) : List GameAction :=
  if world.gameState.status ≠ .awaitingAction ∨ world.gameState.outcome.isSome then
    []
  else
    (world.candidateActions world.gameState.activePlayer).filterMap fun candidate =>
      (world.validateAction candidate).toOption

end Actions

end World

end HearthstoneSimulator

import BazelRepo.HearthstoneSimulator.Equipment

namespace HearthstoneSimulator

open Library

namespace World

theorem isWeaponInPlay_iff {world : World} {id : GameEntityId} :
    world.isWeaponInPlay id = true ↔ world.get id (·.zone) = some .play ∧ world.get id (·.kind) = some .weapon := by
  unfold isWeaponInPlay
  simp

theorem Placed.of_eq {world other : World} (placed : world.Placed) (entities : other.entities = world.entities)
    (index : other.zoneIndex = world.zoneIndex) : other.Placed := by
  have places : other.place = world.place := by
    unfold place World.get
    rw [entities]
  have slots : other.slots = world.slots := by
    unfold slots
    rw [index]
  refine ⟨?_, ?_, ?_⟩
  · rw [places, slots]
    exact placed.located
  · rw [places]
    unfold World.get
    rw [entities]
    exact placed.complete
  · unfold World.get
    rw [entities]
    exact placed.unattached

theorem Equipped.release {excused : List GameEntityId} {world : World} {weapon : GameEntityId}
    (equipped : Equipped (weapon :: excused) world) (placed : world.Placed)
    (busy : ∀ player, weapon ∉ world.spareWeapons excused player) : Equipped excused world := by
  apply equipped.mono placed rfl equipped.wielded
  intro player id listed
  rcases mem_spareWeapons.mp listed with ⟨there, current, idle, charged⟩
  refine mem_spareWeapons.mpr ⟨there, current, idle, ?_⟩
  intro member
  rcases List.mem_cons.mp member with rfl | member
  · exact busy player listed
  · exact charged member

theorem Equipped.setPending {excused : List GameEntityId} {world : World} (equipped : Equipped [] world)
    (placed : world.Placed) {pending : BTreeMap GameEntityId (Option GameEntityId)}
    (supersedes : ∀ id, world.weaponEquipment.supersedes id = true → id ∉ excused →
      (world.setPending pending).weaponEquipment.supersedes id = true) :
    Equipped excused (world.setPending pending) := by
  have kept : (world.setPending pending).Placed := placed.of_eq rfl rfl
  apply equipped.mono kept rfl equipped.wielded
  intro player id listed
  rcases mem_spareWeapons.mp listed with ⟨there, current, idle, charged⟩
  refine mem_spareWeapons.mpr ⟨there, ?_, idle, List.not_mem_nil⟩
  cases superseded : world.weaponEquipment.supersedes id with
  | false => rfl
  | true => exact (supersedes id superseded charged).symm.trans current

section Retirement

variable [QueryOrder]

theorem retireWeapon_moved {world : World} (placed : world.Placed) {weapon : GameEntityId}
    (inPlay : world.isWeaponInPlay weapon) :
    ∃ controller other moved position, weapon ∈ world.slots (controller, .play) ∧
      Relocated world other weapon (controller, .graveyard) ∧ Settled weapon (other.trackEntry weapon) moved ∧
      world.retireWeapon weapon = (moved.traceMove weapon .play .graveyard, .ok position) := by
  have zoned := (isWeaponInPlay_iff.mp inPlay).1
  rcases Option.isSome_iff_exists.mp (placed.complete weapon (by rw [zoned]; rfl)) with ⟨⟨⟨controller, zone⟩, n⟩, here⟩
  rcases get_place here with ⟨components, found, controlled, inZone, _⟩
  have control : world.get weapon (·.controller) = some controller := by
    unfold World.get
    rw [found]
    exact controlled
  have same : zone = .play := by
    unfold World.get at zoned
    rw [found] at zoned
    exact Option.some.inj (inZone.symm.trans zoned)
  subst same
  have member : weapon ∈ world.slots (controller, .play) := placed.located.mem_iff.mpr ⟨n, here⟩
  have roomy := @destinationIsFull_unlimited .graveyard (.inl rfl) world weapon controller
  have result := moveEntityWithRequest_result placed ⟨weapon, controller, .graveyard, none, .death⟩
  unfold retireWeapon
  rw [control]
  dsimp only
  generalize moveEntityWithRequest world ⟨weapon, controller, .graveyard, none, .death⟩ = ended at result
  cases result with
  | rejected error reason =>
    rcases reason with requested | nowhere
    · cases requested
    · rw [here] at nowhere
      cases nowhere
  | prevented full => cases full.symm.trans roomy
  | moved position there room relocated settled =>
    rw [here] at there
    cases there
    exact ⟨controller, _, _, _, member, relocated, settled, rfl⟩
  | removed _ _ full => cases full.symm.trans roomy

theorem retireWeapon_placed {world : World} (placed : world.Placed) {weapon : GameEntityId}
    (inPlay : world.isWeaponInPlay weapon) : (world.retireWeapon weapon).1.Placed := by
  rcases retireWeapon_moved placed inPlay with ⟨controller, other, moved, position, _, relocated, settled, same⟩
  rw [same]
  exact (Settled.placed settled (placed_trackEntry relocated.placed _)).of_eq rfl rfl

theorem WithinLimits.retireWeapon {world : World} (limits : world.WithinLimits) (placed : world.Placed)
    {weapon : GameEntityId} (inPlay : world.isWeaponInPlay weapon) : (world.retireWeapon weapon).1.WithinLimits := by
  rcases retireWeapon_moved placed inPlay with ⟨controller, other, moved, position, _, relocated, settled, same⟩
  rw [same]
  have tracked := (limits.relocated relocated (.inr (hasRoom_unlimited (.inl rfl)))).trackEntry weapon
  exact (tracked.settled settled).congr rfl fun _ _ => rfl

/-- A retired weapon no longer counts, so it needs no excuse. -/
theorem Equipped.retireWeapon {excused : List GameEntityId} {world : World} {weapon : GameEntityId}
    (equipped : Equipped (weapon :: excused) world) (placed : world.Placed) (inPlay : world.isWeaponInPlay weapon) :
    Equipped excused (world.retireWeapon weapon).1 := by
  rcases retireWeapon_moved placed inPlay with ⟨controller, other, moved, position, _, relocated, settled, same⟩
  have start := placed_trackEntry relocated.placed weapon
  have tracked : Equipped (weapon :: excused) (other.trackEntry weapon) := by
    apply equipped.tracked relocated
    intro player there
    cases there
  have after := tracked.settled settled
  have gone : ∀ player, weapon ∉ moved.slots (player, .play) := by
    intro player member
    cases (relocated.arrived _).mp ((Settled.mem_iff settled _).mp member)
  have kept : (moved.traceMove weapon .play .graveyard).Placed := (Settled.placed settled start).of_eq rfl rfl
  rw [same]
  apply after.mono kept rfl after.wielded
  intro player id listed
  rcases mem_spareWeapons.mp listed with ⟨there, current, idle, charged⟩
  refine mem_spareWeapons.mpr ⟨there, current, idle, ?_⟩
  intro member
  rcases List.mem_cons.mp member with rfl | member
  · exact gone player (mem_weaponsInPlay.mp there).1
  · exact charged member

end Retirement

section Opening

variable [QueryOrder] {world : World} {player : PlayerId} {weapon : GameEntityId}

def opened (world : World) (player : PlayerId) (weapon : GameEntityId) : World :=
  world.setPending (world.weaponEquipment.pending.insert weapon (world.activeWeapon player))

omit [QueryOrder] in
theorem opened_supersedes (fresh : world.weaponEquipment.pending.contains weapon = false) {id : GameEntityId} :
    (world.opened player weapon).weaponEquipment.supersedes id = true ↔
      world.weaponEquipment.supersedes id = true ∨ world.activeWeapon player = some id := by
  rw [supersedes_iff, supersedes_iff]
  show (∃ scope : GameEntityId, (world.weaponEquipment.pending.insert weapon (world.activeWeapon player))[scope]? =
    some (some id)) ↔ _
  constructor
  · rintro ⟨scope, found⟩
    rw [BTreeMap.getElem?_insert_eq] at found
    split at found
    · exact .inr (Option.some.inj found)
    · exact .inl ⟨scope, found⟩
  · rintro (⟨scope, found⟩ | active)
    · refine ⟨scope, ?_⟩
      have different : scope ≠ weapon := by
        rintro rfl
        rw [Std.ExtTreeMap.contains_eq_isSome_getElem?, found] at fresh
        cases fresh
      rw [BTreeMap.getElem?_insert_eq, if_neg different]
      exact found
    · refine ⟨weapon, ?_⟩
      rw [BTreeMap.getElem?_insert_eq, if_pos rfl, active]

def wielding (moved : World) (player : PlayerId) (weapon : GameEntityId) (source : Zone) : World :=
  let allocated := ((moved.traceMove weapon source .play).setActive player weapon).allocatePlayOrder
  allocated.1.modify weapon fun components => { components with playOrder := some allocated.2 }

theorem beginEquip_cases (placed : world.Placed) (kind : world.get weapon (·.kind) = some .weapon)
    (controlled : world.get weapon (·.controller) = some player) :
    (world.beginEquip player weapon).1 = world ∨
      ∃ other moved source, world.weaponEquipment.pending.contains weapon = false ∧
        Relocated (world.opened player weapon) other weapon (player, .play) ∧
        Settled weapon (other.trackEntry weapon) moved ∧
        world.beginEquip player weapon = (moved.wielding player weapon source, .ok ()) := by
  unfold beginEquip
  dsimp only
  split
  · exact .inl rfl
  case isFalse open_ =>
    have fresh : world.weaponEquipment.pending.contains weapon = false := by
      rw [← Bool.not_eq_true]
      exact fun contained => open_ (.inr contained)
    have back : (world.opened player weapon).setPending
        ((world.opened player weapon).weaponEquipment.pending.erase weapon) = world := by
      have erased : (world.weaponEquipment.pending.insert weapon (world.activeWeapon player)).erase weapon =
          world.weaponEquipment.pending := by
        apply Std.ExtTreeMap.ext_getElem?
        intro scope
        rw [Std.ExtTreeMap.getElem?_erase, BTreeMap.getElem?_insert_eq]
        by_cases same : scope = weapon
        · subst same
          rw [if_pos Std.ReflCmp.compare_self]
          rw [Std.ExtTreeMap.contains_eq_isSome_getElem?, Option.isSome_eq_false_iff, Option.isNone_iff_eq_none] at fresh
          exact fresh.symm
        · have apart : compare weapon scope ≠ .eq := fun equal => same (Std.LawfulEqCmp.eq_of_compare equal).symm
          rw [if_neg apart, if_neg same]
      unfold opened setPending
      dsimp only
      rw [erased]
    have kept : (world.opened player weapon).Placed := placed.of_eq rfl rfl
    have exempt : (world.opened player weapon).destinationIsFull weapon player .play = false := by
      unfold destinationIsFull
      rw [if_pos]
      apply replacementExempt_eq.mpr
      refine ⟨rfl, controlled, kind, .inl ?_⟩
      exact Std.ExtTreeMap.contains_insert_self
    have result := moveEntityWithRequest_result kept ⟨weapon, player, .play, none, .normal⟩
    have named : (world.setPending (world.weaponEquipment.pending.insert weapon (world.activeWeapon player))).moveEntity
        weapon .play none = (world.opened player weapon).moveEntityWithRequest ⟨weapon, player, .play, none, .normal⟩ := by
      have control : (world.opened player weapon).get weapon (·.controller) = some player := controlled
      show (world.opened player weapon).moveEntity weapon .play none = _
      unfold moveEntity
      rw [control]
    rw [named]
    generalize moveEntityWithRequest _ _ = ended at result
    cases result with
    | rejected error => exact .inl back
    | prevented full => cases full.symm.trans exempt
    | moved position here room relocated settled =>
      exact .inr ⟨_, _, _, fresh, relocated, settled, rfl⟩
    | removed _ _ full => cases full.symm.trans exempt

omit [QueryOrder] in
theorem Settling.active {mover : GameEntityId} {world other : World} (settling : Settling mover world other)
    {player : PlayerId} {a : GameEntityId} (active : other.weaponEquipment.active player = some a) :
    world.weaponEquipment.active player = some a := by
  cases settling with
  | unmoved unmoved =>
    rw [unmoved.equipment] at active
    exact active
  | @detached _ id _ _ relocated =>
    by_cases same : a = id
    · subst same
      cases (relocated.active_self active).1
    · exact (relocated.active_other same).mp active

omit [QueryOrder] in
theorem Settled.active {mover : GameEntityId} {world other : World} (settled : Settled mover world other)
    {player : PlayerId} {a : GameEntityId} (active : other.weaponEquipment.active player = some a) :
    world.weaponEquipment.active player = some a := by
  induction settled with
  | refl => exact active
  | tail _ settling ih => exact ih (settling.active active)

omit [QueryOrder] in
theorem Placed.activeWeapon_eq (placed : world.Placed) (equipped : Equipped [] world) {a : GameEntityId}
    (active : world.weaponEquipment.active player = some a) : world.activeWeapon player = some a := by
  rcases equipped.wielded player a active with ⟨there, kind⟩
  rcases placed.located.mem_iff.mp there with ⟨n, here⟩
  rcases get_place here with ⟨components, found, controlled, zoned, _⟩
  have zone : world.get a (·.zone) = some .play := by
    unfold World.get
    rw [found]
    exact zoned
  have controller : world.get a (·.controller) = some player := by
    unfold World.get
    rw [found]
    exact controlled
  unfold activeWeapon
  rw [active]
  simp [zone, kind, controller]

omit [QueryOrder] in
theorem wielding_unmoved (moved : World) (player : PlayerId) (weapon : GameEntityId) (source : Zone) :
    Unmoved ((moved.traceMove weapon source .play).setActive player weapon) (moved.wielding player weapon source) := by
  have allocated : Unmoved ((moved.traceMove weapon source .play).setActive player weapon)
      ((moved.traceMove weapon source .play).setActive player weapon).allocatePlayOrder.1 := .of_eq rfl rfl rfl rfl
  apply allocated.trans
  apply unmoved_change
  intro components
  exact ⟨rfl, rfl⟩

theorem beginEquip_placed (placed : world.Placed) (kind : world.get weapon (·.kind) = some .weapon)
    (controlled : world.get weapon (·.controller) = some player) : (world.beginEquip player weapon).1.Placed := by
  rcases beginEquip_cases placed kind controlled with same | ⟨other, moved, source, fresh, relocated, settled, same⟩
  · rw [same]
    exact placed
  · rw [same]
    have start := Settled.placed settled (placed_trackEntry relocated.placed _)
    exact (wielding_unmoved moved player weapon source).placed (start.of_eq rfl rfl)

theorem WithinLimits.beginEquip (limits : world.WithinLimits) (placed : world.Placed)
    (kind : world.get weapon (·.kind) = some .weapon) (controlled : world.get weapon (·.controller) = some player) :
    (world.beginEquip player weapon).1.WithinLimits := by
  rcases beginEquip_cases placed kind controlled with same | ⟨other, moved, source, fresh, relocated, settled, same⟩
  · rw [same]
    exact limits
  · rw [same]
    have start : (world.opened player weapon).WithinLimits := limits.congr rfl fun _ _ => rfl
    have room : (world.opened player weapon).HasRoom weapon (player, .play) := by
      intro quota member there counts
      have weapons : (world.opened player weapon).get weapon (·.kind) = some .weapon := kind
      rw [weapons] at counts
      exact (uncounted_weapon member there counts).elim
    have after := ((start.relocated relocated (.inr room)).trackEntry weapon).settled settled
    have wielded : ((moved.traceMove weapon source .play).setActive player weapon).WithinLimits :=
      after.congr rfl fun _ _ => rfl
    exact wielded.unmoved (wielding_unmoved moved player weapon source)

theorem Equipped.beginEquip (equipped : Equipped [] world) (placed : world.Placed)
    (kind : world.get weapon (·.kind) = some .weapon) (controlled : world.get weapon (·.controller) = some player) :
    Equipped [] (world.beginEquip player weapon).1 := by
  rcases beginEquip_cases placed kind controlled with same | ⟨other, moved, source, fresh, relocated, settled, same⟩
  · rw [same]
    exact equipped
  · rw [same]
    have openedPlaced : (world.opened player weapon).Placed := placed.of_eq rfl rfl
    have opening : Equipped [weapon] (world.opened player weapon) := by
      apply equipped.setPending placed
      intro id superseded _
      exact (opened_supersedes fresh).mpr (.inl superseded)
    have start := placed_trackEntry relocated.placed weapon
    have tracked : Equipped [weapon] (other.trackEntry weapon) := by
      apply opening.tracked relocated
      intro _ _ _ _
      exact .inl (List.mem_singleton.mpr rfl)
    have after := tracked.settled settled
    have movedPlaced := Settled.placed settled start
    have kept : ((moved.traceMove weapon source .play).setActive player weapon).Placed := movedPlaced.of_eq rfl rfl
    have arrived : ∀ slot, weapon ∈ moved.slots slot ↔ slot = (player, .play) := by
      intro slot
      exact (Settled.mem_iff settled slot).trans (relocated.arrived slot)
    have wields : Equipped [] ((moved.traceMove weapon source .play).setActive player weapon) := by
      apply after.mono kept rfl
      · intro owner id active
        show id ∈ moved.slots (owner, .play) ∧ moved.get id (·.kind) = some .weapon
        have held : Function.update moved.weaponEquipment.active player (some weapon) owner = some id := active
        by_cases mine : owner = player
        · subst mine
          rw [Function.update_self] at held
          cases held
          refine ⟨(arrived _).mpr rfl, ?_⟩
          rw [Settled.kinds settled]
          exact (relocated.kinds weapon).trans kind
        · rw [Function.update_of_ne mine] at held
          exact after.wielded owner id held
      · intro owner id listed
        rcases mem_spareWeapons.mp listed with ⟨there, current, idle, _⟩
        have apart : Function.update moved.weaponEquipment.active player (some weapon) owner ≠ some id := idle
        have different : id ≠ weapon := by
          rintro rfl
          have mine : (owner, Zone.play) = (player, .play) := (arrived _).mp (mem_weaponsInPlay.mp there).1
          cases mine
          rw [Function.update_self] at apart
          exact apart rfl
        refine mem_spareWeapons.mpr ⟨there, current, ?_, ?_⟩
        · intro active
          by_cases mine : owner = player
          · subst mine
            -- the weapon wielded before is the one that the scope supersedes
            have before := (relocated.active_other different).mp (settled.active active)
            have previous := placed.activeWeapon_eq equipped before
            have superseded : moved.weaponEquipment.supersedes id = true := by
              have pending : moved.weaponEquipment.pending = (world.opened owner weapon).weaponEquipment.pending := by
                rw [settled.pending, trackEntry_pending, relocated.equipment]
              rw [supersedes_iff, pending, ← supersedes_iff]
              exact (opened_supersedes fresh).mpr (.inr previous)
            exact absurd superseded (by rw [Bool.not_eq_true]; exact current)
          · rw [Function.update_of_ne mine] at apart
            exact apart active
        · exact fun member => different (List.mem_singleton.mp member)
    exact wields.unmoved (wielding_unmoved moved player weapon source)

end Opening

section Closing

variable [QueryOrder] {world : World} {weapon : GameEntityId}

theorem finishEquip_cases (world : World) (weapon : GameEntityId) :
    world.finishEquip weapon = (world, .error (.invariant "missing weapon replacement scope")) ∨
      ∃ previous, world.weaponEquipment.pending[weapon]? = some previous ∧
        let closed := world.setPending (world.weaponEquipment.pending.erase weapon)
        (previous.filter closed.isWeaponInPlay = none ∧ world.finishEquip weapon = (closed, .ok ()) ∨
          ∃ old, previous = some old ∧ closed.isWeaponInPlay old = true ∧
            Unmoved (closed.retireWeapon old).1 (world.finishEquip weapon).1) := by
  unfold finishEquip
  cases found : world.weaponEquipment.pending[weapon]? with
  | none => exact .inl rfl
  | some previous =>
    refine .inr ⟨previous, rfl, ?_⟩
    dsimp only
    cases replaced : previous.filter (world.setPending (world.weaponEquipment.pending.erase weapon)).isWeaponInPlay with
    | none => exact .inl ⟨rfl, rfl⟩
    | some old =>
      rcases Option.filter_eq_some_iff.mp replaced with ⟨same, inPlay⟩
      refine .inr ⟨old, same, inPlay, ?_⟩
      dsimp only
      split
      case h_1 retired position ended =>
        rw [ended]
        exact unmoved_recordFullZoneDeath retired old position
      case h_2 retired error ended =>
        rw [ended]
        exact .refl retired

theorem finishEquip_placed (placed : world.Placed) : (world.finishEquip weapon).1.Placed := by
  have kept : (world.setPending (world.weaponEquipment.pending.erase weapon)).Placed := placed.of_eq rfl rfl
  rcases finishEquip_cases world weapon with same | ⟨previous, _, ⟨_, same⟩ | ⟨old, _, inPlay, unmoved⟩⟩
  · rw [same]
    exact placed
  · rw [same]
    exact kept
  · exact unmoved.placed (retireWeapon_placed kept inPlay)

theorem WithinLimits.finishEquip (limits : world.WithinLimits) (placed : world.Placed) :
    (world.finishEquip weapon).1.WithinLimits := by
  have kept : (world.setPending (world.weaponEquipment.pending.erase weapon)).Placed := placed.of_eq rfl rfl
  have closed : (world.setPending (world.weaponEquipment.pending.erase weapon)).WithinLimits :=
    limits.congr rfl fun _ _ => rfl
  rcases finishEquip_cases world weapon with same | ⟨previous, _, ⟨_, same⟩ | ⟨old, _, inPlay, unmoved⟩⟩
  · rw [same]
    exact limits
  · rw [same]
    exact closed
  · exact (closed.retireWeapon kept inPlay).unmoved unmoved

omit [QueryOrder] in
theorem supersedes_erase {previous : Option GameEntityId} (found : world.weaponEquipment.pending[weapon]? = some previous)
    {id : GameEntityId} (superseded : world.weaponEquipment.supersedes id = true) (other : previous ≠ some id) :
    (world.setPending (world.weaponEquipment.pending.erase weapon)).weaponEquipment.supersedes id = true := by
  rcases supersedes_iff.mp superseded with ⟨scope, listed⟩
  have apart : compare weapon scope ≠ .eq := by
    intro equal
    rw [← Std.LawfulEqCmp.eq_of_compare equal, found] at listed
    exact other (Option.some.inj listed)
  apply supersedes_iff.mpr
  refine ⟨scope, ?_⟩
  show (world.weaponEquipment.pending.erase weapon)[scope]? = some (some id)
  rw [Std.ExtTreeMap.getElem?_erase, if_neg apart]
  exact listed

omit [QueryOrder] in
theorem Equipped.closed (equipped : Equipped [] world) (placed : world.Placed) {previous : Option GameEntityId}
    (found : world.weaponEquipment.pending[weapon]? = some previous) :
    Equipped previous.toList (world.setPending (world.weaponEquipment.pending.erase weapon)) := by
  apply equipped.setPending placed
  intro id superseded charged
  apply supersedes_erase found superseded
  rintro rfl
  exact charged (List.mem_singleton.mpr rfl)

omit [QueryOrder] in
theorem Placed.isWeaponInPlay (placed : world.Placed) {id : GameEntityId} {player : PlayerId}
    (listed : id ∈ world.weaponsInPlay player) : world.isWeaponInPlay id = true := by
  rcases mem_weaponsInPlay.mp listed with ⟨there, kind⟩
  rcases placed.located.mem_iff.mp there with ⟨n, here⟩
  rcases get_place here with ⟨components, found, _, zoned, _⟩
  rw [isWeaponInPlay_iff]
  refine ⟨?_, kind⟩
  unfold World.get
  rw [found]
  exact zoned

theorem Equipped.finishEquip (equipped : Equipped [] world) (placed : world.Placed) :
    Equipped [] (world.finishEquip weapon).1 := by
  have kept : (world.setPending (world.weaponEquipment.pending.erase weapon)).Placed := placed.of_eq rfl rfl
  rcases finishEquip_cases world weapon with same | ⟨previous, found, ⟨gone, same⟩ | ⟨old, replaced, inPlay, unmoved⟩⟩
  · rw [same]
    exact equipped
  · have closed := equipped.closed placed found
    rw [same]
    cases previous with
    | none => exact closed
    | some old =>
      apply closed.release kept
      intro player listed
      rw [Option.filter_some, if_pos (kept.isWeaponInPlay (mem_spareWeapons.mp listed).1)] at gone
      cases gone
  · subst replaced
    exact ((equipped.closed placed found).retireWeapon kept inPlay).unmoved unmoved

/-- What holds of a world and survives the retirement of a replaced weapon survives the release of all scopes. -/
theorem abandonEquips_induction {invariant : List GameEntityId → World → Prop}
    (start : invariant (world.weaponEquipment.pending.toList.filterMap Prod.snd) (world.setPending ∅))
    (step : ∀ old rest (world : World), invariant (old :: rest) world → invariant rest (world.abandonEquip old)) :
    invariant [] world.abandonEquips := by
  have fold : ∀ (olds : List GameEntityId) (world : World), invariant olds world →
      invariant [] (olds.foldl abandonEquip world) := by
    intro olds
    induction olds with
    | nil => exact fun _ holds => holds
    | cons old rest ih => exact fun world holds => ih _ (step old rest world holds)
  exact fold _ _ start

theorem abandonEquip_placed (placed : world.Placed) (old : GameEntityId) : (world.abandonEquip old).Placed := by
  unfold abandonEquip
  split
  case isTrue retired => exact retireWeapon_placed placed retired.1
  case isFalse => exact placed

theorem abandonEquips_placed (placed : world.Placed) : world.abandonEquips.Placed := by
  apply @abandonEquips_induction _ world fun _ world => world.Placed
  · exact placed.of_eq rfl rfl
  · intro old _ world placed
    exact abandonEquip_placed placed old

theorem WithinLimits.abandonEquips (limits : world.WithinLimits) (placed : world.Placed) :
    world.abandonEquips.WithinLimits := by
  have both : world.abandonEquips.Placed ∧ world.abandonEquips.WithinLimits := by
    apply @abandonEquips_induction _ world fun _ world => world.Placed ∧ world.WithinLimits
    · exact ⟨placed.of_eq rfl rfl, limits.congr rfl fun _ _ => rfl⟩
    · intro old _ world holds
      refine ⟨abandonEquip_placed holds.1 old, ?_⟩
      unfold abandonEquip
      split
      case isTrue retired => exact holds.2.retireWeapon holds.1 retired.1
      case isFalse => exact holds.2
  exact both.2

theorem Equipped.abandonEquip {old : GameEntityId} {excused : List GameEntityId}
    (equipped : Equipped (old :: excused) world) (placed : world.Placed) :
    Equipped excused (world.abandonEquip old) := by
  unfold World.abandonEquip
  split
  case isTrue retired => exact equipped.retireWeapon placed retired.1
  case isFalse kept =>
    apply equipped.release placed
    intro player listed
    rcases mem_spareWeapons.mp listed with ⟨there, _, idle, _⟩
    apply kept
    refine ⟨placed.isWeaponInPlay there, ?_, ?_⟩ <;>
      intro active <;>
      have owner := placed.located.slot_eq (equipped.wielded _ _ active).1 (mem_weaponsInPlay.mp there).1 <;>
      cases owner <;>
      exact idle active

theorem Equipped.abandonEquips (equipped : Equipped [] world) (placed : world.Placed) :
    Equipped [] world.abandonEquips := by
  have both : world.abandonEquips.Placed ∧ Equipped [] world.abandonEquips := by
    apply @abandonEquips_induction _ world fun olds world => world.Placed ∧ Equipped olds world
    · refine ⟨placed.of_eq rfl rfl, equipped.setPending placed ?_⟩
      intro id superseded charged
      rcases supersedes_iff.mp superseded with ⟨scope, found⟩
      have old : id ∈ world.weaponEquipment.pending.toList.filterMap Prod.snd :=
        List.mem_filterMap.mpr ⟨(scope, some id), BTreeMap.mem_toList.mpr found, rfl⟩
      exact absurd old charged
    · intro old rest world holds
      exact ⟨abandonEquip_placed holds.1 old, holds.2.abandonEquip holds.1⟩
  exact both.2

end Closing

end World

end HearthstoneSimulator

import BazelRepo.HearthstoneSimulator.Model
import Mathlib.Data.List.Chain
import Mathlib.Logic.Function.Basic

namespace HearthstoneSimulator

inductive ScheduledTurnKind where
  | natural
  | extra
  deriving DecidableEq

structure ScheduledTurn where
  player : PlayerId
  kind : ScheduledTurnKind
  deriving DecidableEq

structure TurnSchedule where
  pending : List ScheduledTurn := []
  nextSeriesExtras : PlayerId → UInt32 := fun _ => 0
  afterCurrentExtras : PlayerId → UInt32 := fun _ => 0
  afterCurrentAnchor : Option PlayerId := none
  resumeNaturalPlayer : Option PlayerId := none

def extraTurns (player : PlayerId) (count : UInt32) : List ScheduledTurn :=
  List.replicate count.toNat ⟨player, .extra⟩

def saturatingAddU32 (a b : UInt32) : UInt32 :=
  if a.toNat + b.toNat < UInt32.size then a + b else UInt32.ofNatLT (UInt32.size - 1) (by decide)

namespace TurnSchedule

def schedule (schedule : TurnSchedule) (active player : PlayerId) (count : UInt32) :
    ExtraTurnTiming → TurnSchedule
  | .afterCurrentTurn =>
    { schedule with
      afterCurrentAnchor := some active
      afterCurrentExtras := Function.update schedule.afterCurrentExtras player
        (saturatingAddU32 (schedule.afterCurrentExtras player) count) }
  | .duringNextTurnSeries =>
    { schedule with
      nextSeriesExtras := Function.update schedule.nextSeriesExtras player
        (saturatingAddU32 (schedule.nextSeriesExtras player) count) }

/-- What the assertion in `schedule` says of an after-current grant. -/
def sharesAnchor (schedule : TurnSchedule) (active : PlayerId) : Prop :=
  ∀ anchor, schedule.afterCurrentAnchor = some anchor → anchor = active

def startNaturalSeries (schedule : TurnSchedule) (player : PlayerId) : ScheduledTurn × TurnSchedule :=
  (⟨player, .natural⟩,
    { schedule with
      nextSeriesExtras := Function.update schedule.nextSeriesExtras player 0
      pending := schedule.pending ++ extraTurns player (schedule.nextSeriesExtras player) })

def nextTurn (schedule : TurnSchedule) (ending : PlayerId) : ScheduledTurn × TurnSchedule :=
  match schedule.pending with
  | turn :: rest => (turn, { schedule with pending := rest })
  | [] =>
    match schedule.resumeNaturalPlayer with
    | some player => startNaturalSeries { schedule with resumeNaturalPlayer := none } player
    | none =>
      if 0 < schedule.nextSeriesExtras ending.opponent then
        -- a grant for the next series preempts the after-current ones, which join the series of their players
        startNaturalSeries
          { schedule with
            nextSeriesExtras := fun player =>
              saturatingAddU32 (schedule.nextSeriesExtras player) (schedule.afterCurrentExtras player)
            afterCurrentExtras := fun _ => 0
            afterCurrentAnchor := none } ending.opponent
      else
        match extraTurns .one (schedule.afterCurrentExtras .one) ++ extraTurns .two (schedule.afterCurrentExtras .two) with
        | turn :: rest =>
          (turn,
            { schedule with
              pending := rest
              afterCurrentExtras := fun _ => 0
              afterCurrentAnchor := none
              resumeNaturalPlayer := some ending.opponent })
        | [] => startNaturalSeries schedule ending.opponent

end TurnSchedule

structure Turns where
  schedule : TurnSchedule
  current : ScheduledTurn

inductive TurnCall where
  | schedule (player : PlayerId) (count : UInt32) (timing : ExtraTurnTiming)
  | nextTurn
  deriving DecidableEq

namespace Turns

def start (first : PlayerId) : Turns := ⟨{}, ⟨first, .natural⟩⟩

def step (turns : Turns) : TurnCall → Turns
  | .schedule player count timing =>
    { turns with schedule := turns.schedule.schedule turns.current.player player count timing }
  | .nextTurn => ⟨(turns.schedule.nextTurn turns.current.player).2, (turns.schedule.nextTurn turns.current.player).1⟩

def run (turns : Turns) (calls : List TurnCall) : Turns := calls.foldl step turns

end Turns

theorem saturatingAddU32_of_fits {a b : UInt32} (fits : a.toNat + b.toNat < UInt32.size) :
    (saturatingAddU32 a b).toNat = a.toNat + b.toNat := by
  unfold saturatingAddU32
  rw [if_pos fits, UInt32.toNat_add]
  exact Nat.mod_eq_of_lt fits

theorem saturatingAddU32_le (a b : UInt32) : (saturatingAddU32 a b).toNat ≤ a.toNat + b.toNat := by
  by_cases fits : a.toNat + b.toNat < UInt32.size
  · rw [saturatingAddU32_of_fits fits]
  · unfold saturatingAddU32
    rw [if_neg fits]
    show UInt32.size - 1 ≤ a.toNat + b.toNat
    omega

namespace Turns

/-- Which player had the last natural turn: unless a natural series is to be resumed, every turn since is one of
    that player, and so are the turns that are queued. -/
structure Orderly (last : PlayerId) (turns : Turns) : Prop where
  extras : ∀ turn ∈ turns.schedule.pending, turn.kind = .extra
  resumed : ∀ player, turns.schedule.resumeNaturalPlayer = some player → player = last.opponent
  series : turns.schedule.resumeNaturalPlayer = none →
    turns.current.player = last ∧ ∀ turn ∈ turns.schedule.pending, turn.player = last

theorem orderly_start (first : PlayerId) : Orderly first (start first) :=
  ⟨nofun, nofun, fun _ => ⟨rfl, nofun⟩⟩

theorem mem_extraTurns {player : PlayerId} {count : UInt32} {turn : ScheduledTurn}
    (member : turn ∈ extraTurns player count) : turn = ⟨player, .extra⟩ :=
  List.eq_of_mem_replicate member

theorem Orderly.schedule {last player : PlayerId} {turns : Turns} (orderly : Orderly last turns) (count : UInt32)
    (timing : ExtraTurnTiming) : Orderly last (turns.step (.schedule player count timing)) := by
  cases timing with
  | afterCurrentTurn => exact ⟨orderly.extras, orderly.resumed, orderly.series⟩
  | duringNextTurnSeries => exact ⟨orderly.extras, orderly.resumed, orderly.series⟩

theorem orderly_startNaturalSeries {schedule : TurnSchedule} (player : PlayerId) (empty : schedule.pending = [])
    (fresh : schedule.resumeNaturalPlayer = none) :
    Orderly player ⟨(schedule.startNaturalSeries player).2, (schedule.startNaturalSeries player).1⟩ := by
  unfold TurnSchedule.startNaturalSeries
  dsimp only
  rw [empty, List.nil_append]
  refine ⟨?_, ?_, ?_⟩
  · intro turn member
    rw [mem_extraTurns member]
  · intro resumed found
    rw [show schedule.resumeNaturalPlayer = some resumed from found] at fresh
    cases fresh
  · intro _
    refine ⟨rfl, ?_⟩
    intro turn member
    rw [mem_extraTurns member]

theorem Orderly.next {last : PlayerId} {turns : Turns} (orderly : Orderly last turns) :
    ((turns.step .nextTurn).current.kind = .extra ∧ Orderly last (turns.step .nextTurn)) ∨
      ((turns.step .nextTurn).current = ⟨last.opponent, .natural⟩ ∧ Orderly last.opponent (turns.step .nextTurn)) := by
  rcases turns with ⟨schedule, current⟩
  unfold step TurnSchedule.nextTurn
  dsimp only
  cases queued : schedule.pending with
  | cons turn rest =>
    left
    have extras := orderly.extras
    have series := orderly.series
    dsimp only at extras series
    rw [queued] at extras series
    refine ⟨extras turn List.mem_cons_self, ?_, orderly.resumed, ?_⟩
    · exact fun other member => extras other (List.mem_cons_of_mem _ member)
    · intro fresh
      have same := (series fresh).2
      exact ⟨same turn List.mem_cons_self, fun other member => same other (List.mem_cons_of_mem _ member)⟩
  | nil =>
    cases resumed : schedule.resumeNaturalPlayer with
    | some player =>
      right
      have turned : player = last.opponent := orderly.resumed player resumed
      subst turned
      exact ⟨rfl, orderly_startNaturalSeries last.opponent rfl rfl⟩
    | none =>
      have ended : current.player = last := (orderly.series resumed).1
      dsimp only
      rw [ended]
      split
      · right
        exact ⟨rfl, orderly_startNaturalSeries last.opponent rfl rfl⟩
      · split
        · rename_i turn rest granted
          left
          have extras : ∀ other ∈ turn :: rest, other.kind = .extra := by
            rw [← granted]
            intro other member
            rcases List.mem_append.mp member with one | two
            · rw [mem_extraTurns one]
            · rw [mem_extraTurns two]
          refine ⟨extras turn List.mem_cons_self, fun other member => extras other (List.mem_cons_of_mem _ member), ?_, ?_⟩
          · rintro player ⟨⟩
            rfl
          · rintro ⟨⟩
        · right
          exact ⟨rfl, orderly_startNaturalSeries last.opponent queued resumed⟩

def taken (turns : Turns) : List TurnCall → List ScheduledTurn
  | [] => []
  | .schedule player count timing :: rest => taken (turns.step (.schedule player count timing)) rest
  | .nextTurn :: rest => (turns.step .nextTurn).current :: taken (turns.step .nextTurn) rest

def naturalPlayers (turns : List ScheduledTurn) : List PlayerId :=
  (turns.filter fun turn => turn.kind = .natural).map ScheduledTurn.player

theorem Orderly.alternate {last : PlayerId} {turns : Turns} (orderly : Orderly last turns) (calls : List TurnCall) :
    (last :: naturalPlayers (turns.taken calls)).IsChain fun earlier later => later = earlier.opponent := by
  induction calls generalizing last turns with
  | nil => exact List.isChain_singleton last
  | cons call rest ih =>
    cases call with
    | schedule player count timing => exact ih (orderly.schedule count timing)
    | nextTurn =>
      unfold taken naturalPlayers
      rcases orderly.next with ⟨extra, kept⟩ | ⟨natural, kept⟩
      · rw [List.filter_cons_of_neg (by simp [extra])]
        exact ih kept
      · rw [List.filter_cons_of_pos (by simp [natural]), List.map_cons, natural]
        exact List.isChain_cons_cons.mpr ⟨rfl, ih kept⟩

end Turns

def TurnSchedule.outstanding (schedule : TurnSchedule) (player : PlayerId) : Nat :=
  schedule.pending.count ⟨player, .extra⟩ + (schedule.nextSeriesExtras player).toNat +
    (schedule.afterCurrentExtras player).toNat

/-- A grant for the next series waits for the player whose turn is next, and no turn is queued before it. -/
def TurnSchedule.Preempts (schedule : TurnSchedule) (ending : PlayerId) : Prop :=
  schedule.pending = [] ∧ schedule.resumeNaturalPlayer = none ∧ 0 < schedule.nextSeriesExtras ending.opponent

def scheduledFor (player : PlayerId) : List TurnCall → Nat
  | [] => 0
  | .schedule other count _ :: rest => (if other = player then count.toNat else 0) + scheduledFor player rest
  | .nextTurn :: rest => scheduledFor player rest

namespace Turns

def Fits (turns : Turns) (player : PlayerId) : TurnCall → Prop
  | .schedule other count .afterCurrentTurn =>
    other = player → (turns.schedule.afterCurrentExtras player).toNat + count.toNat < UInt32.size
  | .schedule other count .duringNextTurnSeries =>
    other = player → (turns.schedule.nextSeriesExtras player).toNat + count.toNat < UInt32.size
  | .nextTurn => turns.schedule.Preempts turns.current.player →
    (turns.schedule.nextSeriesExtras player).toNat + (turns.schedule.afterCurrentExtras player).toNat < UInt32.size

def Unsaturated (turns : Turns) (player : PlayerId) : List TurnCall → Prop
  | [] => True
  | call :: rest => turns.Fits player call ∧ (turns.step call).Unsaturated player rest

theorem count_extraTurns (player other : PlayerId) (count : UInt32) :
    (extraTurns other count).count ⟨player, .extra⟩ = if other = player then count.toNat else 0 := by
  unfold extraTurns
  rw [List.count_replicate]
  by_cases same : other = player
  · simp [same]
  · simp [same]

theorem outstanding_startNaturalSeries (schedule : TurnSchedule) (player other : PlayerId) :
    (schedule.startNaturalSeries other).2.outstanding player = schedule.outstanding player := by
  unfold TurnSchedule.startNaturalSeries TurnSchedule.outstanding
  dsimp only
  rw [List.count_append, count_extraTurns]
  by_cases same : other = player
  · subst same
    rw [if_pos rfl, Function.update_self]
    simp
  · rw [if_neg same, Function.update_of_ne (Ne.symm same)]
    simp

theorem outstanding_schedule (turns : Turns) (player other : PlayerId) (count : UInt32) (timing : ExtraTurnTiming) :
    (turns.step (.schedule other count timing)).schedule.outstanding player ≤
      turns.schedule.outstanding player + (if other = player then count.toNat else 0) ∧
    (turns.Fits player (.schedule other count timing) →
      (turns.step (.schedule other count timing)).schedule.outstanding player =
        turns.schedule.outstanding player + (if other = player then count.toNat else 0)) := by
  rcases turns with ⟨schedule, current⟩
  cases timing with
  | afterCurrentTurn =>
    unfold step TurnSchedule.schedule TurnSchedule.outstanding Fits
    dsimp only
    by_cases same : other = player
    · subst same
      rw [if_pos rfl, Function.update_self]
      have bound := saturatingAddU32_le (schedule.afterCurrentExtras other) count
      refine ⟨by omega, ?_⟩
      intro fits
      have exactly := saturatingAddU32_of_fits (fits rfl)
      omega
    · rw [if_neg same, Function.update_of_ne (Ne.symm same)]
      exact ⟨Nat.le_refl _, fun _ => rfl⟩
  | duringNextTurnSeries =>
    unfold step TurnSchedule.schedule TurnSchedule.outstanding Fits
    dsimp only
    by_cases same : other = player
    · subst same
      rw [if_pos rfl, Function.update_self]
      have bound := saturatingAddU32_le (schedule.nextSeriesExtras other) count
      refine ⟨by omega, ?_⟩
      intro fits
      have exactly := saturatingAddU32_of_fits (fits rfl)
      omega
    · rw [if_neg same, Function.update_of_ne (Ne.symm same)]
      exact ⟨Nat.le_refl _, fun _ => rfl⟩

theorem outstanding_next (turns : Turns) (player : PlayerId) :
    (turns.step .nextTurn).schedule.outstanding player +
        (if (turns.step .nextTurn).current = ⟨player, .extra⟩ then 1 else 0) ≤ turns.schedule.outstanding player ∧
    (turns.Fits player .nextTurn → (turns.step .nextTurn).schedule.outstanding player +
        (if (turns.step .nextTurn).current = ⟨player, .extra⟩ then 1 else 0) = turns.schedule.outstanding player) := by
  rcases turns with ⟨schedule, current⟩
  unfold step TurnSchedule.nextTurn Fits TurnSchedule.Preempts
  dsimp only
  cases queued : schedule.pending with
  | cons turn rest =>
    have moved : rest.count ⟨player, .extra⟩ + (if turn = ⟨player, .extra⟩ then 1 else 0) =
        schedule.pending.count ⟨player, .extra⟩ := by
      rw [queued, List.count_cons]
      simp
    unfold TurnSchedule.outstanding
    dsimp only
    rw [← moved]
    exact ⟨by omega, fun _ => by omega⟩
  | nil =>
    have natural : ∀ (started : TurnSchedule) (other : PlayerId),
        (if (started.startNaturalSeries other).1 = ⟨player, .extra⟩ then 1 else 0) = 0 := by
      intro started other
      rw [if_neg]
      intro same
      cases congrArg ScheduledTurn.kind same
    have unqueued : schedule.outstanding player =
        (schedule.nextSeriesExtras player).toNat + (schedule.afterCurrentExtras player).toNat := by
      unfold TurnSchedule.outstanding
      rw [queued, List.count_nil, Nat.zero_add]
    rw [unqueued]
    cases resumed : schedule.resumeNaturalPlayer with
    | some other =>
      dsimp only
      rw [natural, outstanding_startNaturalSeries]
      simp [TurnSchedule.outstanding]
    | none =>
      dsimp only
      split
      · rename_i preempts
        rw [natural, outstanding_startNaturalSeries]
        have bound := saturatingAddU32_le (schedule.nextSeriesExtras player) (schedule.afterCurrentExtras player)
        unfold TurnSchedule.outstanding
        dsimp only
        rw [List.count_nil, Nat.zero_add]
        refine ⟨by simpa using bound, ?_⟩
        intro fits
        simpa using saturatingAddU32_of_fits (fits ⟨rfl, rfl, preempts⟩)
      · split
        · rename_i turn rest granted
          have released : rest.count ⟨player, .extra⟩ + (if turn = ⟨player, .extra⟩ then 1 else 0) =
              (schedule.afterCurrentExtras player).toNat := by
            have total := congrArg (List.count ⟨player, .extra⟩) granted
            rw [List.count_append, count_extraTurns, count_extraTurns, List.count_cons] at total
            cases player with
            | one => simpa using total.symm
            | two => simpa using total.symm
          unfold TurnSchedule.outstanding
          dsimp only
          rw [← released]
          simp
          omega
        · rw [natural, outstanding_startNaturalSeries, unqueued]
          simp

theorem accounted (turns : Turns) (calls : List TurnCall) (player : PlayerId) :
    (turns.taken calls).count ⟨player, .extra⟩ + (turns.run calls).schedule.outstanding player ≤
      turns.schedule.outstanding player + scheduledFor player calls ∧
    (turns.Unsaturated player calls →
      (turns.taken calls).count ⟨player, .extra⟩ + (turns.run calls).schedule.outstanding player =
        turns.schedule.outstanding player + scheduledFor player calls) := by
  induction calls generalizing turns with
  | nil => simp [taken, run, scheduledFor]
  | cons call rest ih =>
    have later := ih (turns.step call)
    have continued : turns.run (call :: rest) = (turns.step call).run rest := rfl
    cases call with
    | schedule other count timing =>
      have now := outstanding_schedule turns player other count timing
      unfold taken scheduledFor Unsaturated
      rw [continued]
      refine ⟨by omega, ?_⟩
      rintro ⟨fits, unsaturated⟩
      have exactly := now.2 fits
      have remaining := later.2 unsaturated
      omega
    | nextTurn =>
      have now := outstanding_next turns player
      unfold taken scheduledFor Unsaturated
      rw [continued, List.count_cons]
      have same : (if ((turns.step .nextTurn).current == ⟨player, .extra⟩) = true then 1 else 0) =
          if (turns.step .nextTurn).current = ⟨player, .extra⟩ then 1 else 0 := by simp
      rw [same]
      refine ⟨by omega, ?_⟩
      rintro ⟨fits, unsaturated⟩
      have exactly := now.2 fits
      have remaining := later.2 unsaturated
      omega

/-- A series ends: no turn is queued, none is to be resumed, and the grants that wait are released. -/
def Releases (turns : Turns) : Prop :=
  turns.schedule.pending = [] ∧ turns.schedule.resumeNaturalPlayer = none ∧
    (0 < turns.schedule.nextSeriesExtras turns.current.player.opponent ∨
      ∃ player, 0 < turns.schedule.afterCurrentExtras player)

theorem extraTurns_eq_nil {player : PlayerId} {count : UInt32} : extraTurns player count = [] ↔ ¬ 0 < count := by
  unfold extraTurns
  rw [List.replicate_eq_nil_iff, UInt32.lt_iff_toNat_lt]
  exact Nat.pos_iff_ne_zero.not_left.symm

theorem anchor_next (turns : Turns) :
    (turns.Releases ∧ (turns.step .nextTurn).schedule.afterCurrentAnchor = none) ∨
      (¬ turns.Releases ∧
        (turns.step .nextTurn).schedule.afterCurrentAnchor = turns.schedule.afterCurrentAnchor) := by
  rcases turns with ⟨schedule, current⟩
  unfold step TurnSchedule.nextTurn Releases
  dsimp only
  cases queued : schedule.pending with
  | cons turn rest => exact .inr ⟨nofun, rfl⟩
  | nil =>
    cases resumed : schedule.resumeNaturalPlayer with
    | some other => exact .inr ⟨nofun, rfl⟩
    | none =>
      dsimp only
      split
      · rename_i preempts
        exact .inl ⟨⟨rfl, rfl, .inl preempts⟩, rfl⟩
      · rename_i waiting
        split
        · rename_i turn rest granted
          left
          refine ⟨⟨rfl, rfl, .inr ?_⟩, rfl⟩
          by_contra none
          have empty : ∀ player, extraTurns player (schedule.afterCurrentExtras player) = [] :=
            fun player => extraTurns_eq_nil.mpr fun positive => none ⟨player, positive⟩
          rw [empty, empty] at granted
          cases granted
        · rename_i nothing
          right
          refine ⟨?_, rfl⟩
          rintro ⟨_, _, preempts | ⟨player, positive⟩⟩
          · exact waiting preempts
          · rcases List.append_eq_nil_iff.mp nothing with ⟨one, two⟩
            cases player with
            | one => exact extraTurns_eq_nil.mp one positive
            | two => exact extraTurns_eq_nil.mp two positive

/-- The assertion in `schedule` holds at every after-current grant. -/
def AssertionsHold (turns : Turns) (calls : List TurnCall) : Prop :=
  ∀ before player count rest, calls = before ++ .schedule player count .afterCurrentTurn :: rest →
    (turns.run before).schedule.sharesAnchor (turns.run before).current.player

/-- Between after-current grants that are made in turns of different players a series ends. -/
def GrantsSeparated (turns : Turns) (calls : List TurnCall) : Prop :=
  ∀ before player count between other amount rest,
    calls = before ++ .schedule player count .afterCurrentTurn ::
      (between ++ .schedule other amount .afterCurrentTurn :: rest) →
    (turns.run before).current.player ≠
      (turns.run (before ++ .schedule player count .afterCurrentTurn :: between)).current.player →
    ∃ early late, between = early ++ .nextTurn :: late ∧
      (turns.run (before ++ .schedule player count .afterCurrentTurn :: early)).Releases

theorem run_append (turns : Turns) (early late : List TurnCall) :
    turns.run (early ++ late) = (turns.run early).run late :=
  List.foldl_append

theorem anchor_kept {turns : Turns} {anchor : PlayerId} (anchored : turns.schedule.afterCurrentAnchor = some anchor)
    {calls : List TurnCall} (asserted : turns.AssertionsHold calls)
    (unended : ∀ early late, calls = early ++ .nextTurn :: late → ¬ (turns.run early).Releases) :
    (turns.run calls).schedule.afterCurrentAnchor = some anchor := by
  induction calls generalizing turns with
  | nil => exact anchored
  | cons call rest ih =>
    have asserted' : (turns.step call).AssertionsHold rest := by
      intro before player count others same
      exact asserted (call :: before) player count others (by rw [same]; rfl)
    have unended' : ∀ early late, rest = early ++ .nextTurn :: late → ¬ ((turns.step call).run early).Releases := by
      intro early late same
      exact unended (call :: early) late (by rw [same]; rfl)
    apply ih _ asserted' unended'
    cases call with
    | schedule player count timing =>
      cases timing with
      | duringNextTurnSeries => exact anchored
      | afterCurrentTurn =>
        have shared := asserted [] player count rest rfl anchor anchored
        exact congrArg some shared.symm
    | nextTurn =>
      rcases anchor_next turns with ⟨released, _⟩ | ⟨_, kept⟩
      · exact absurd released (unended [] rest rfl)
      · rw [kept, anchored]

/-- An anchor is the player of an after-current grant since which no series ended. -/
theorem anchor_source {turns : Turns} (unanchored : turns.schedule.afterCurrentAnchor = none) {anchor : PlayerId}
    {calls : List TurnCall} (anchored : (turns.run calls).schedule.afterCurrentAnchor = some anchor) :
    ∃ before player count between, calls = before ++ .schedule player count .afterCurrentTurn :: between ∧
      (turns.run before).current.player = anchor ∧
      ∀ early late, between = early ++ .nextTurn :: late →
        ¬ (turns.run (before ++ .schedule player count .afterCurrentTurn :: early)).Releases := by
  induction calls using List.reverseRecOn with
  | nil =>
    rw [show turns.run [] = turns from rfl, unanchored] at anchored
    cases anchored
  | append_singleton calls call ih =>
    have last : turns.run (calls ++ [call]) = (turns.run calls).step call := run_append turns calls [call]
    rw [last] at anchored
    have kept : (turns.run calls).schedule.afterCurrentAnchor = some anchor →
        (call = .nextTurn → ¬ (turns.run calls).Releases) →
        ∃ before player count between,
          calls ++ [call] = before ++ .schedule player count .afterCurrentTurn :: between ∧
          (turns.run before).current.player = anchor ∧
          ∀ early late, between = early ++ .nextTurn :: late →
            ¬ (turns.run (before ++ .schedule player count .afterCurrentTurn :: early)).Releases := by
      intro earlier unended
      rcases ih earlier with ⟨before, player, count, between, rfl, active, since⟩
      refine ⟨before, player, count, between ++ [call], by simp, active, ?_⟩
      intro early late same
      rcases List.eq_nil_or_concat' late with rfl | ⟨others, ended, rfl⟩
      · rcases List.append_inj' same rfl with ⟨rfl, ending⟩
        exact unended (List.cons.inj ending).1
      · have split : between ++ [call] = (early ++ .nextTurn :: others) ++ [ended] := by simp [same]
        exact since early others (List.append_inj' split rfl).1
    cases call with
    | nextTurn =>
      rcases anchor_next (turns.run calls) with ⟨_, cleared⟩ | ⟨unended, same⟩
      · rw [cleared] at anchored
        cases anchored
      · rw [same] at anchored
        exact kept anchored fun _ => unended
    | schedule player count timing =>
      cases timing with
      | duringNextTurnSeries => exact kept anchored nofun
      | afterCurrentTurn =>
        refine ⟨calls, player, count, [], rfl, Option.some.inj anchored, ?_⟩
        intro early late same
        cases early <;> cases same

theorem assertionsHold_iff {turns : Turns} (unanchored : turns.schedule.afterCurrentAnchor = none)
    (calls : List TurnCall) : turns.AssertionsHold calls ↔ turns.GrantsSeparated calls := by
  constructor
  · intro asserted before player count between other amount rest same apart
    by_contra together
    have unended : ∀ early late, between = early ++ .nextTurn :: late →
        ¬ (turns.run (before ++ .schedule player count .afterCurrentTurn :: early)).Releases :=
      fun early late split released => together ⟨early, late, split, released⟩
    have after : ∀ others, turns.run (before ++ .schedule player count .afterCurrentTurn :: others) =
        ((turns.run before).step (.schedule player count .afterCurrentTurn)).run others :=
      fun others => run_append turns before _
    have anchored : ((turns.run before).step (.schedule player count .afterCurrentTurn)).schedule.afterCurrentAnchor =
        some (turns.run before).current.player := rfl
    have asserted' : ((turns.run before).step (.schedule player count .afterCurrentTurn)).AssertionsHold between := by
      intro middle granted number others split
      have whole : calls = (before ++ .schedule player count .afterCurrentTurn :: middle) ++
          .schedule granted number .afterCurrentTurn ::
            (others ++ .schedule other amount .afterCurrentTurn :: rest) := by
        rw [same, split]
        simp
      have shared := asserted _ granted number _ whole
      rwa [after] at shared
    have kept := anchor_kept anchored asserted' fun early late split => by
      rw [← after]
      exact unended early late split
    have whole : calls = (before ++ .schedule player count .afterCurrentTurn :: between) ++
        .schedule other amount .afterCurrentTurn :: rest := by
      rw [same]
      simp
    have shared := asserted _ other amount rest whole
    rw [after] at shared apart
    exact apart (shared _ kept)
  · intro separated before player count rest same anchor anchored
    rcases anchor_source unanchored anchored with ⟨first, granted, number, between, rfl, active, unended⟩
    by_contra apart
    have whole : calls = first ++ .schedule granted number .afterCurrentTurn ::
        (between ++ .schedule player count .afterCurrentTurn :: rest) := by
      rw [same]
      simp
    rw [← active] at apart
    rcases separated first granted number between player count rest whole apart with ⟨early, late, split, released⟩
    exact unended early late split released

/-- Natural turns alternate, extra turns are delivered once, and the assertion on the anchor holds exactly where a
    series ends between after-current grants of different turns' players. -/
theorem turns_are_kept (first : PlayerId) (calls : List TurnCall) :
    ((first :: naturalPlayers ((start first).taken calls)).IsChain fun earlier later => later = earlier.opponent) ∧
    (∀ player,
      ((start first).taken calls).count ⟨player, .extra⟩ + ((start first).run calls).schedule.outstanding player ≤
        scheduledFor player calls ∧
      ((start first).Unsaturated player calls →
        ((start first).taken calls).count ⟨player, .extra⟩ + ((start first).run calls).schedule.outstanding player =
          scheduledFor player calls)) ∧
    ((start first).AssertionsHold calls ↔ (start first).GrantsSeparated calls) := by
  refine ⟨(orderly_start first).alternate calls, ?_, assertionsHold_iff rfl calls⟩
  intro player
  have nothing : (start first).schedule.outstanding player = 0 := by
    cases player <;> rfl
  have total := accounted (start first) calls player
  rw [nothing, Nat.zero_add] at total
  exact total

/-- A grant in an extra turn outlives the resumed natural turn of the other player. -/
theorem anchor_assertion_fails : ∃ (first : PlayerId) (calls : List TurnCall), ¬ (start first).AssertionsHold calls := by
  refine ⟨.one, [.schedule .one 1 .afterCurrentTurn, .nextTurn, .schedule .one 1 .afterCurrentTurn, .nextTurn,
    .schedule .two 1 .afterCurrentTurn], ?_⟩
  intro asserted
  have shared := asserted [.schedule .one 1 .afterCurrentTurn, .nextTurn, .schedule .one 1 .afterCurrentTurn, .nextTurn]
    .two 1 [] rfl .one (by decide)
  exact absurd shared (by decide)

example : (start .one).taken [.schedule .one 2 .duringNextTurnSeries, .schedule .two 1 .afterCurrentTurn, .nextTurn,
    .nextTurn, .nextTurn, .nextTurn] =
      [⟨.two, .extra⟩, ⟨.two, .natural⟩, ⟨.one, .natural⟩, ⟨.one, .extra⟩] := by decide

end Turns

end HearthstoneSimulator

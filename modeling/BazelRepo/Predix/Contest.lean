import BazelRepo.Library.Checked
import BazelRepo.Library.TreeMap
import Mathlib.Data.Rat.Floor
import Mathlib.Logic.Relation

namespace Predix

open Library

structure UserId where
  val : BitVec 128
  deriving DecidableEq

instance : Ord UserId := ⟨compareOn fun user => user.val.toNat⟩

instance : Std.TransOrd UserId := inferInstanceAs (Std.TransCmp (compareOn fun user : UserId => user.val.toNat))

instance : Std.LawfulEqOrd UserId :=
  lawfulEqCmp_compareOn (by
    rintro ⟨a⟩ ⟨b⟩ same
    exact congrArg UserId.mk (BitVec.eq_of_toNat_eq same))

inductive Status where
  | statusOpen
  | statusLocked
  | statusExpired
  | statusResolved
  deriving DecidableEq

structure Prediction where
  userId : UserId
  optionId : Int64
  clout : Int64
  deriving DecidableEq

/-- What the payouts read of a contest; the rate of the house is taken exactly. -/
structure Contest where
  predictions : List Prediction
  status : Status
  resultOptionId : Option Int64
  houseRake : ℚ

structure PayoutRecord where
  userId : UserId
  originalStake : Int64
  shareOfPot : Int64
  totalPayout : Int64
  deriving DecidableEq

/-- The conversion of a rate to an integer drops the fraction, towards zero. -/
def truncated (amount : ℚ) : Int64 :=
  Int64.ofInt (if 0 ≤ amount then ⌊amount⌋ else ⌈amount⌉)

def credit (payouts : BTreeMap UserId Int64) (user : UserId) (amount : Int64) : BTreeMap UserId Int64 :=
  payouts.insert user (payouts[user]?.getD 0 + amount)

namespace Contest

def calculatePot (c : Contest) : Int64 :=
  c.predictions.foldl (fun total pred => total + pred.clout) 0

def calculateHouseRakeClout (c : Contest) : Int64 :=
  match c.resultOptionId with
  | none => 0
  | some result =>
    let (totalPot, winningStake) := c.predictions.foldl
      (fun (totalPot, winningStake) pred =>
        (totalPot + pred.clout, if pred.optionId = result then winningStake + pred.clout else winningStake)) (0, 0)
    let losingStake := totalPot - winningStake
    truncated (losingStake.toInt * c.houseRake)

def calculateRemainingPot (c : Contest) : Int64 :=
  c.calculatePot - c.calculateHouseRakeClout

/-- What the loop over the predictions of `CalculateWinnerPayouts` gathers. -/
structure Winning where
  winningPredictions : List Prediction
  totalWinningClout : Int64
  totalPot : Int64

def Winning.gather (result : Int64) (tally : Winning) (pred : Prediction) : Winning :=
  let tally := { tally with totalPot := tally.totalPot + pred.clout }
  if pred.optionId = result then
    { tally with
      winningPredictions := tally.winningPredictions ++ [pred]
      totalWinningClout := tally.totalWinningClout + pred.clout }
  else
    tally

def calculateWinnerPayouts (c : Contest) : Except String (BTreeMap UserId Int64) :=
  match c.resultOptionId with
  | none => .error "contest has not been resolved yet"
  | some result =>
    let tally := c.predictions.foldl (Winning.gather result) ⟨[], 0, 0⟩
    if tally.winningPredictions.isEmpty then
      .ok ∅
    else
      let losingClout := tally.totalPot - tally.totalWinningClout
      let distributableLosingClout := truncated (losingClout.toInt * (1 - c.houseRake))
      .ok (tally.winningPredictions.foldl
        (fun payouts pred =>
          let payout := pred.clout
          let payout :=
            if 0 < tally.totalWinningClout then
              payout + pred.clout * distributableLosingClout / tally.totalWinningClout
            else
              payout
          credit payouts pred.userId payout) ∅)

/-- What the loop over the predictions of `CalculatePayoutBreakdown` gathers. -/
structure Sides where
  winningPredictions : List Prediction
  losingPredictions : List Prediction
  totalWinningClout : Int64
  totalPot : Int64

def Sides.gather (result : Int64) (sides : Sides) (pred : Prediction) : Sides :=
  let sides := { sides with totalPot := sides.totalPot + pred.clout }
  if pred.optionId = result then
    { sides with
      winningPredictions := sides.winningPredictions ++ [pred]
      totalWinningClout := sides.totalWinningClout + pred.clout }
  else
    { sides with losingPredictions := sides.losingPredictions ++ [pred] }

def calculatePayoutBreakdown (c : Contest) : Except String (List PayoutRecord × List PayoutRecord) :=
  match c.resultOptionId with
  | none => .error "contest has not been resolved yet"
  | some result =>
    let sides := c.predictions.foldl (Sides.gather result) ⟨[], [], 0, 0⟩
    let losingClout := sides.totalPot - sides.totalWinningClout
    let distributableLosingClout := truncated (losingClout.toInt * (1 - c.houseRake))
    let winners := sides.winningPredictions.map fun pred =>
      let share :=
        if 0 < sides.totalWinningClout then
          pred.clout * distributableLosingClout / sides.totalWinningClout
        else
          0
      { userId := pred.userId, originalStake := pred.clout, shareOfPot := share, totalPayout := pred.clout + share }
    let losers := sides.losingPredictions.map fun pred =>
      { userId := pred.userId, originalStake := pred.clout, shareOfPot := 0, totalPayout := 0 }
    .ok (winners, losers)

def calculateRefunds (c : Contest) : BTreeMap UserId Int64 :=
  c.predictions.foldl (fun refunds pred => credit refunds pred.userId pred.clout) ∅

end Contest

/-- A record of the breakdown a service shows, with the name of its user. -/
structure NamedRecord where
  userId : UserId
  username : String
  stake : Int64
  share : Int64
  total : Int64
  deriving DecidableEq

structure PayoutBreakdown where
  winners : List NamedRecord
  losers : List NamedRecord
  totalPot : Int64
  houseRake : Int64
  distributablePot : Int64
  totalDistributed : Int64

def named (findById : UserId → Option String) (r : PayoutRecord) : NamedRecord where
  userId := r.userId
  username := (findById r.userId).getD "Unknown"
  stake := r.originalStake
  share := r.shareOfPot
  total := r.totalPayout

def getPayoutBreakdown (findById : UserId → Option String) (c : Contest) : Except String PayoutBreakdown :=
  if c.status ≠ .statusResolved then
    .error "contest must be resolved to view payout breakdown"
  else do
    let (winners, losers) ← c.calculatePayoutBreakdown
    let winnerRecords := winners.map (named findById)
    let loserRecords := losers.map (named findById)
    let (totalPot, winningClout) := c.predictions.foldl
      (fun (totalPot, winningClout) p =>
        (totalPot + p.clout, if c.resultOptionId = some p.optionId then winningClout + p.clout else winningClout))
      ((0, 0) : Int64 × Int64)
    let losingClout := totalPot - winningClout
    let houseRake := truncated (losingClout.toInt * c.houseRake)
    .ok {
      winners := winnerRecords
      losers := loserRecords
      totalPot := totalPot
      houseRake := houseRake
      distributablePot := totalPot - houseRake
      totalDistributed := winnerRecords.foldl (fun total r => total + r.total) 0 }

structure StoredContest extends Contest where
  creatorId : UserId
  options : List (Int64 × String)
  minStake : Int64
  lockedAt : Int
  expiresAt : Int

def parseDuration : String → Except String Int
  | "1h" => .ok 3600
  | "1d" => .ok (24 * 3600)
  | "1w" => .ok (7 * 24 * 3600)
  | _ => .error "invalid duration: must be one of: 1h, 1d, 1w"

def defaultExpirationAfterLock : Int := 7 * 24 * 3600

def normalizeMinStake (minStake : Int64) : Except String Int64 :=
  if minStake = 0 then .ok 10
  else if minStake ∈ [10, 100, 1000] then .ok minStake
  else .error "min stake must be one of 10, 100, or 1000"

def checkOptions : List String → Except String Unit
  | [] => .ok ()
  | opt :: rest =>
    if opt = "" then .error "option text cannot be empty"
    else if opt ∈ rest then .error "duplicate options are not allowed"
    else checkOptions rest

/-- The prediction of the user for the option gets the stake; where there is none yet, one is added. -/
def stake (userId : UserId) (optionId clout : Int64) : List Prediction → List Prediction
  | [] => [⟨userId, optionId, clout⟩]
  | pred :: rest =>
    if pred.userId = userId ∧ pred.optionId = optionId then { pred with clout := clout } :: rest
    else pred :: stake userId optionId clout rest

namespace StoredContest

def new (now : Int) (circleId : Int) (creatorId : UserId) (question : String) (options : List String)
    (duration : String) (minStake : Int64) : Except String StoredContest :=
  if circleId = 0 then .error "circle id must be positive"
  else if question = "" then .error "contest question cannot be empty"
  else if options.length < 2 then .error "at least two options are required"
  else do
    let normalizedMinStake ← normalizeMinStake minStake
    let durationValue ← parseDuration duration
    checkOptions options
    .ok {
      predictions := []
      status := .statusOpen
      resultOptionId := none
      houseRake := 1 / 10
      creatorId := creatorId
      options := options.zipIdx.map fun (text, i) => (Int64.ofNat (i + 1), text)
      minStake := normalizedMinStake
      lockedAt := now + durationValue
      expiresAt := now + durationValue + defaultExpirationAfterLock }

def predict (c : StoredContest) (userId : UserId) (optionId clout : Int64) : Except String StoredContest :=
  if c.status = .statusLocked then .error "contest is locked for predictions"
  else if c.status ≠ .statusOpen then .error "contest is not open for predictions"
  else if optionId ∉ c.options.map Prod.fst then .error "invalid option"
  else if clout ≤ 0 then .error "prediction clout must be positive"
  else if clout < c.minStake then .error s!"prediction clout must be at least {c.minStake}"
  else .ok { c with predictions := stake userId optionId clout c.predictions }

def isLockedTime (c : StoredContest) (now : Int) : Bool :=
  c.status = .statusOpen ∧ c.lockedAt ≤ now

def isExpiredTime (c : StoredContest) (now : Int) : Bool :=
  (c.status = .statusOpen ∨ c.status = .statusLocked) ∧ c.expiresAt ≤ now

def lock (c : StoredContest) : Except String StoredContest :=
  if c.status ≠ .statusOpen then .error "only open contests can be locked"
  else .ok { c with status := .statusLocked }

def expire (c : StoredContest) : Except String StoredContest :=
  if c.status = .statusResolved then .error "cannot expire a resolved contest"
  else if c.status = .statusExpired then .error "contest is already expired"
  else .ok { c with status := .statusExpired }

def resolve (c : StoredContest) (winningOptionId : Int64) : Except String StoredContest :=
  if c.status = .statusResolved then .error "contest is already resolved"
  else if c.status ≠ .statusLocked ∧ c.status ≠ .statusOpen then .error "contest is not in a state that can be resolved"
  else if winningOptionId ∉ c.options.map Prod.fst then .error "invalid winning option"
  else .ok { c with resultOptionId := some winningOptionId, status := .statusResolved }

end StoredContest

/-! The predictions of a contest. -/

section Stakes

variable {userId : UserId} {optionId clout : Int64}

def key (pred : Prediction) : UserId × Int64 := (pred.userId, pred.optionId)

theorem mem_stake {predictions : List Prediction} {pred : Prediction}
    (member : pred ∈ stake userId optionId clout predictions) : pred ∈ predictions ∨ pred = ⟨userId, optionId, clout⟩ := by
  induction predictions with
  | nil => exact .inr (List.mem_singleton.mp member)
  | cons first rest ih =>
    unfold stake at member
    split at member
    · rename_i theirs
      rcases List.mem_cons.mp member with rfl | later
      · rw [theirs.1, theirs.2]
        exact .inr rfl
      · exact .inl (List.mem_cons_of_mem _ later)
    · rcases List.mem_cons.mp member with rfl | later
      · exact .inl List.mem_cons_self
      · exact (ih later).imp_left (List.mem_cons_of_mem _)

theorem keys_stake (predictions : List Prediction) : (stake userId optionId clout predictions).map key =
    if (userId, optionId) ∈ predictions.map key then predictions.map key
    else predictions.map key ++ [(userId, optionId)] := by
  induction predictions with
  | nil => rfl
  | cons first rest ih =>
    unfold stake
    by_cases theirs : first.userId = userId ∧ first.optionId = optionId
    · have same : key first = (userId, optionId) := by rw [key, theirs.1, theirs.2]
      rw [if_pos theirs, List.map_cons, List.map_cons, same, if_pos List.mem_cons_self, ← same]
      rfl
    · have other : (userId, optionId) ≠ key first := by
        intro same
        exact theirs ⟨congrArg Prod.fst same.symm, congrArg Prod.snd same.symm⟩
      rw [if_neg theirs, List.map_cons, ih, List.map_cons]
      simp only [List.mem_cons, other, false_or]
      split
      · rfl
      · rfl

end Stakes

namespace StoredContest

inductive Change (c c' : StoredContest) : Prop where
  | predict (userId : UserId) (optionId clout : Int64) (made : c.predict userId optionId clout = .ok c')
  | lock (made : c.lock = .ok c')
  | expire (made : c.expire = .ok c')
  | resolve (winningOptionId : Int64) (made : c.resolve winningOptionId = .ok c')

structure Orderly (c : StoredContest) : Prop where
  once : (c.predictions.map key).Nodup
  stakes : ∀ pred ∈ c.predictions, c.minStake ≤ pred.clout ∧ pred.optionId ∈ c.options.map Prod.fst
  minimum : c.minStake ∈ [10, 100, 1000]
  rake : c.houseRake = 1 / 10
  resolved : c.status = .statusResolved ↔ c.resultOptionId.isSome = true
  winner : ∀ result ∈ c.resultOptionId, result ∈ c.options.map Prod.fst
  expiry : c.expiresAt = c.lockedAt + defaultExpirationAfterLock

variable {c c' : StoredContest}

theorem predict_eq_ok {userId : UserId} {optionId clout : Int64} (made : c.predict userId optionId clout = .ok c') :
    c.status = .statusOpen ∧ optionId ∈ c.options.map Prod.fst ∧ c.minStake ≤ clout ∧ 0 < clout ∧
      c' = { c with predictions := stake userId optionId clout c.predictions } := by
  unfold predict at made
  simp only [reject_eq_ok, not_not, Except.ok.injEq, Int64.not_le, Int64.not_lt] at made
  rcases made with ⟨_, isOpen, valid, positive, enough, rfl⟩
  exact ⟨isOpen, valid, enough, positive, rfl⟩

theorem lock_eq_ok (made : c.lock = .ok c') : c.status = .statusOpen ∧ c' = { c with status := .statusLocked } := by
  unfold lock at made
  simp only [reject_eq_ok, not_not, Except.ok.injEq] at made
  exact ⟨made.1, made.2.symm⟩

theorem expire_eq_ok (made : c.expire = .ok c') : c.status ≠ .statusResolved ∧ c.status ≠ .statusExpired ∧
    c' = { c with status := .statusExpired } := by
  unfold expire at made
  simp only [reject_eq_ok, Except.ok.injEq] at made
  exact ⟨made.1, made.2.1, made.2.2.symm⟩

theorem resolve_eq_ok {winningOptionId : Int64} (made : c.resolve winningOptionId = .ok c') :
    c.status ≠ .statusResolved ∧ c.status ≠ .statusExpired ∧ winningOptionId ∈ c.options.map Prod.fst ∧
      c' = { c with resultOptionId := some winningOptionId, status := .statusResolved } := by
  unfold resolve at made
  simp only [reject_eq_ok, not_not, Except.ok.injEq] at made
  rcases made with ⟨unresolved, undecided, valid, rfl⟩
  refine ⟨unresolved, ?_, valid, rfl⟩
  intro expired
  rw [expired] at undecided
  exact undecided ⟨by decide, by decide⟩

namespace Orderly

theorem unresolved (orderly : c.Orderly) (pending : c.status ≠ .statusResolved) : c.resultOptionId = none := by
  rw [← Option.not_isSome_iff_eq_none]
  exact fun given => pending (orderly.resolved.mpr given)

theorem change (orderly : c.Orderly) (changed : Change c c') : c'.Orderly := by
  cases changed with
  | predict userId optionId clout made =>
    rcases predict_eq_ok made with ⟨isOpen, valid, enough, _, rfl⟩
    refine { orderly with once := ?_, stakes := ?_ }
    · show (List.map key (stake userId optionId clout c.predictions)).Nodup
      rw [keys_stake]
      split
      · exact orderly.once
      · rename_i new
        exact List.nodup_append.mpr ⟨orderly.once, by simp, by
          intro a first b last same
          rw [List.mem_singleton.mp last] at same
          exact new (same ▸ first)⟩
    · intro pred member
      rcases mem_stake member with before | rfl
      · exact orderly.stakes pred before
      · exact ⟨enough, valid⟩
  | lock made =>
    rcases lock_eq_ok made with ⟨isOpen, rfl⟩
    have none := orderly.unresolved (by rw [isOpen]; decide)
    exact { orderly with resolved := by simp [none] }
  | expire made =>
    rcases expire_eq_ok made with ⟨pending, _, rfl⟩
    have none := orderly.unresolved pending
    exact { orderly with resolved := by simp [none] }
  | resolve winningOptionId made =>
    rcases resolve_eq_ok made with ⟨_, _, valid, rfl⟩
    refine { orderly with resolved := by simp, winner := ?_ }
    rintro _ ⟨⟩
    exact valid

end Orderly

theorem new_orderly {now : Int} {circleId : Int} {creatorId : UserId} {question duration : String}
    {options : List String} {minStake : Int64}
    (created : new now circleId creatorId question options duration minStake = .ok c) :
    c.Orderly ∧ c.status = .statusOpen ∧ c.predictions = [] := by
  unfold new at created
  simp only [reject_eq_ok, bind_eq_ok, Except.ok.injEq] at created
  rcases created with ⟨_, _, _, least, normalized, _, _, _, _, rfl⟩
  refine ⟨⟨List.nodup_nil, ?_, ?_, rfl, by simp, ?_, rfl⟩, rfl, rfl⟩
  · intro pred member
    cases member
  · unfold normalizeMinStake at normalized
    split at normalized
    · cases normalized
      simp
    · split at normalized
      · rename_i allowed
        cases normalized
        exact allowed
      · cases normalized
  · intro result given
    cases given

theorem frozen (changed : Relation.ReflTransGen Change c c') (shut : c.status ≠ .statusOpen) :
    c'.predictions = c.predictions ∧ c'.status ≠ .statusOpen := by
  induction changed with
  | refl => exact ⟨rfl, shut⟩
  | tail _ change ih =>
    rcases ih with ⟨same, still⟩
    cases change with
    | predict userId optionId clout made => exact absurd (predict_eq_ok made).1 still
    | lock made => exact absurd (lock_eq_ok made).1 still
    | expire made =>
      rcases expire_eq_ok made with ⟨_, _, rfl⟩
      exact ⟨same, by simp⟩
    | resolve winningOptionId made =>
      rcases resolve_eq_ok made with ⟨_, _, _, rfl⟩
      exact ⟨same, by simp⟩

theorem settled (changed : Relation.ReflTransGen Change c c')
    (closed : c.status = .statusResolved ∨ c.status = .statusExpired) : c' = c := by
  induction changed with
  | refl => rfl
  | tail _ change ih =>
    rw [ih] at change
    have impossible : ¬ (c.status ≠ .statusResolved ∧ c.status ≠ .statusExpired) := by tauto
    cases change with
    | predict userId optionId clout made =>
      rw [(predict_eq_ok made).1] at closed
      rcases closed with closed | closed <;> cases closed
    | lock made =>
      rw [(lock_eq_ok made).1] at closed
      rcases closed with closed | closed <;> cases closed
    | expire made => exact absurd ⟨(expire_eq_ok made).1, (expire_eq_ok made).2.1⟩ impossible
    | resolve winningOptionId made => exact absurd ⟨(resolve_eq_ok made).1, (resolve_eq_ok made).2.1⟩ impossible

/-- In every state of a contest a user has at most one stake on an option, of at least the minimum, and a result is
there exactly when it is resolved, and one of the options. Once locked its predictions stay, and once it is resolved
or expired nothing of it changes. -/
theorem lives_in_order {now : Int} {circleId : Int} {creatorId : UserId} {question duration : String}
    {options : List String} {minStake : Int64} {first : StoredContest}
    (created : new now circleId creatorId question options duration minStake = .ok first)
    (lived : Relation.ReflTransGen Change first c) :
    c.Orderly ∧ ∀ c', Relation.ReflTransGen Change c c' →
      (c.status ≠ .statusOpen → c'.predictions = c.predictions ∧ c'.status ≠ .statusOpen) ∧
      (c.status = .statusResolved ∨ c.status = .statusExpired → c' = c) := by
  refine ⟨?_, fun c' later => ⟨frozen later, settled later⟩⟩
  induction lived with
  | refl => exact (new_orderly created).1
  | tail _ changed ih => exact ih.change changed

/-- A contest of two options whose creator stakes on the first, which wins. -/
def sample : StoredContest :=
  { predictions := [⟨⟨1⟩, 1, 10⟩], status := .statusResolved, resultOptionId := some 1, houseRake := 1 / 10
    creatorId := ⟨1⟩, options := [(1, "Yes"), (2, "No")], minStake := 10, lockedAt := 3600, expiresAt := 608400 }

theorem lives_in_order_sample : sample.Orderly ∧ ∀ c', Relation.ReflTransGen Change sample c' → c' = sample := by
  have created : new 0 1 ⟨1⟩ "Rain?" ["Yes", "No"] "1h" 0 =
      .ok { sample with predictions := [], status := .statusOpen, resultOptionId := none } := rfl
  have predicted : Change { sample with predictions := [], status := .statusOpen, resultOptionId := none }
      { sample with status := .statusOpen, resultOptionId := none } := .predict ⟨1⟩ 1 10 rfl
  have lives := lives_in_order created (.tail (.single predicted) (.resolve 1 rfl : Change _ sample))
  exact ⟨lives.1, fun c' later => (lives.2 c' later).2 (.inl rfl)⟩

end StoredContest

end Predix

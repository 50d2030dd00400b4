import BazelRepo.Library.Checked
import BazelRepo.Library.Json

namespace HostedReview

open Library (Formats Json Uuid isAsciiHexdigit splitOnce)

inductive Review where
  | missing
  | incomplete
  | complete
  deriving DecidableEq

inductive Decision where
  | closed
  | complete
  | untracked
  | uncertain
  | waiting
  | request
  deriving DecidableEq

/-- Only an authenticated, incomplete review can establish timeout eligibility. -/
def decide (isOpen : Bool) (review : Review) (last : Option (Nat × Bool)) (now : Nat) : Decision :=
  if !isOpen then .closed
  else if review = .complete then .complete
  else match last with
    | none => .untracked
    | some (at', confirmed) =>
      if !confirmed then .uncertain
      else if review = .incomplete ∧ at' ≤ now ∧ now - at' > 3600 then .request
      else .waiting

theorem decide_eq_request {review : Review} {last : Option (Nat × Bool)} {now : Nat} :
    decide true review last now = .request ↔
      ∃ at', last = some (at', true) ∧ review = .incomplete ∧ at' + 3600 < now := by
  unfold decide
  rcases last with _ | ⟨at', confirmed⟩
  · cases review <;> simp
  · cases confirmed
    · cases review <;> simp
    · cases review with
      | missing | complete => simp
      | incomplete =>
        by_cases late : at' ≤ now ∧ now - at' > 3600
        · simp [late]
          omega
        · simp [late]
          omega

structure User where
  id : Nat
  login : String
  kind : String
  deriving DecidableEq

structure Comment where
  id : Nat
  user : User
  body : String
  createdAt : String
  deriving DecidableEq

structure Pull where
  state : String
  headSha : String

def isCommit (value : String) : Bool := value.toList.length == 40 && value.toList.all isAsciiHexdigit

structure Commit where
  val : String
  valid : isCommit val
  deriving DecidableEq

theorem isAsciiHexdigit_toLower {c : Char} (digit : isAsciiHexdigit c = true) : isAsciiHexdigit c.toLower = true := by
  by_cases upper : 0x41 ≤ c.toNat ∧ c.toNat ≤ 0x46
  · have code : c.toNat = 0x41 ∨ c.toNat = 0x42 ∨ c.toNat = 0x43 ∨ c.toNat = 0x44 ∨ c.toNat = 0x45 ∨ c.toNat = 0x46 := by
      omega
    rw [← c.ofNat_toNat]
    rcases code with code | code | code | code | code | code <;> rw [code] <;> decide
  · have same : c.toLower = c := by
      unfold Char.toLower
      apply dif_neg
      simp only [isAsciiHexdigit, Library.isAsciiDigit, Bool.or_eq_true, Bool.and_eq_true, decide_eq_true_eq] at digit
      intro letter
      have bounds : 65 ≤ c.toNat ∧ c.toNat ≤ 90 := letter
      omega
    rw [same]
    exact digit

def Commit.tryFrom (value : String) : Except String Commit :=
  if full : isCommit value then
    .ok ⟨String.ofList (value.toList.map Char.toLower), by
      simp only [isCommit, Bool.and_eq_true, beq_iff_eq, List.all_eq_true] at full ⊢
      simp only [String.toList_ofList, List.length_map, List.mem_map]
      refine ⟨full.1, ?_⟩
      rintro _ ⟨c, member, rfl⟩
      exact isAsciiHexdigit_toLower (full.2 c member)⟩
  else .error "commit must be a full SHA-1"

def contains (text part : String) : Bool := (splitOnce part.toList text.toList).isSome

section Github

variable [Formats]

/-- Seconds since the Unix epoch. -/
def timestamp (value : String) : Except String Nat :=
  match Formats.rfc3339 value with
  | none => .error "invalid GitHub timestamp"
  | some at' => if 0 ≤ at' then .ok at'.toNat else .error "GitHub timestamp is before the Unix epoch"

def Comment.isProvider (comment : Comment) : Bool :=
  comment.user.id == 199175422 && comment.user.login == "chatgpt-codex-connector[bot]" && comment.user.kind == "Bot"

/-- The review state that a comment of the provider carries for a commit. -/
def Comment.reviewState (comment : Comment) (head : String) : Except String (Option Json) :=
  if !comment.isProvider then .ok none
  else match splitOnce "<!-- codex-review-state:v1 ".toList comment.body.toList with
    | none => .ok none
    | some (_, rest) => match splitOnce " -->".toList rest with
      | none => .error "invalid hosted review marker"
      | some (text, _) => match Formats.json (String.ofList text) with
        | none => .error "invalid hosted review state"
        | some value => match value.member "code_review" with
          | none => .error "missing code review state"
          | some state => .ok (if (state.member "commit_sha").bind Json.asStr = some head then some state else none)

def isAfter (previous : Option (Nat × Nat)) (at' id : Nat) : Bool :=
  previous.any fun previous => at' < previous.1 || (previous.1 == at' && id < previous.2)

def reviewStateFrom (head : String) : Option Json → Option (Nat × Nat) → List Comment → Except String (Option Json)
  | result, _, [] => .ok result
  | result, latest, comment :: rest => do
    let state ← comment.reviewState head
    match state with
    | none => reviewStateFrom head result latest rest
    | some state => do
      let at' ← timestamp comment.createdAt
      if isAfter latest at' comment.id then reviewStateFrom head result latest rest
      else reviewStateFrom head (some state) (some (at', comment.id)) rest

def reviewState (comments : List Comment) (head : String) : Except String (Option Json) :=
  reviewStateFrom head none none comments

/-- The bot identity comes from authenticated GitHub response fields, not body text. -/
def review (comments : List Comment) (head : String) : Except String Review := do
  let state ← reviewState comments head
  match state with
  | none => .ok .missing
  | some state => match (state.member "status").bind Json.asStr with
    | some "completed" => .ok .complete
    | some "running" | some "queued" | some "pending" | some "in_progress" => .ok .incomplete
    | _ => .error "unknown hosted review status"

end Github

structure Request where
  id : Uuid
  head : Commit
  at' : Nat
  actor : Nat
  comment : Option Nat
  deriving DecidableEq

def Request.body (request : Request) : String :=
  s!"@codex review\n\nReview commit `{request.head.val}`.\n\n<!-- hosted-review-request:v1 {toString request.id} {request.head.val} -->"

structure State where
  version : Nat
  repository : String
  pr : Nat
  requests : List Request
  deriving DecidableEq

end HostedReview

import BazelRepo.Library.Checked
import BazelRepo.Library.Text
import BazelRepo.Library.TreeMap

namespace KafkaCalculator

open Library

/-- What ends a computation that gives no value: an error it returns, a panic, or levels of recursion that ran out. -/
inductive Failure (ε : Type) where
  | invalid (error : ε)
  | panic
  | outOfFuel

def Failure.map {ε ε' : Type} (f : ε → ε') : Failure ε → Failure ε'
  | .invalid error => .invalid (f error)
  | .panic => .panic
  | .outOfFuel => .outOfFuel

inductive IdentifierError where
  | empty
  | emptySegment (segment : Nat)
  | invalidSegmentStart (segment : Nat) (character : Char)
  | invalidCharacter (segment character : Nat) (value : Char)
  deriving DecidableEq

def isSegmentCharacter (c : Char) : Bool := isAsciiLowercase c || isAsciiDigit c || c == '_' || c == '-'

def validateSegment (segment : Nat) : List Char → Except IdentifierError Unit
  | [] => .error (.emptySegment segment)
  | first :: characters =>
    if !isAsciiLowercase first then .error (.invalidSegmentStart segment first)
    else characters.zipIdx.forM fun character =>
      if isSegmentCharacter character.1 then .ok ()
      else .error (.invalidCharacter segment (character.2 + 1) character.1)

def validateIdentifier (value : String) : Except IdentifierError Unit :=
  if value.isEmpty then .error .empty
  else (value.toList.splitOn '.').zipIdx.forM fun segment => validateSegment segment.2 segment.1

def IsSegment (segment : List Char) : Prop :=
  ∃ first characters, segment = first :: characters ∧ isAsciiLowercase first ∧
    ∀ c ∈ characters, isSegmentCharacter c

theorem validateSegment_eq_ok {index : Nat} {segment : List Char} :
    validateSegment index segment = .ok () ↔ IsSegment segment := by
  cases segment with
  | nil =>
    constructor
    · intro accepted
      cases accepted
    · rintro ⟨_, _, impossible, _⟩
      cases impossible
  | cons first characters =>
    unfold validateSegment
    rw [reject_eq_ok, forM_eq_ok]
    constructor
    · rintro ⟨start, accepted⟩
      refine ⟨first, characters, rfl, by simpa using start, ?_⟩
      intro c member
      rcases List.getElem?_of_mem member with ⟨position, found⟩
      have passed := accepted (c, position) (List.mem_zipIdx_iff_getElem?.mpr found)
      by_contra invalid
      simp [invalid] at passed
    · rintro ⟨_, _, ⟨rfl, rfl⟩, start, valid⟩
      refine ⟨by simpa using start, ?_⟩
      rintro ⟨c, position⟩ member
      have found := List.mem_zipIdx_iff_getElem?.mp member
      exact if_pos (valid c (List.mem_of_getElem? found))

theorem validateIdentifier_eq_ok {value : String} :
    validateIdentifier value = .ok () ↔ value ≠ "" ∧ ∀ segment ∈ value.toList.splitOn '.', IsSegment segment := by
  unfold validateIdentifier
  rw [reject_eq_ok, forM_eq_ok, String.isEmpty_iff]
  apply and_congr_right
  intro _
  constructor
  · intro accepted segment member
    rcases List.getElem?_of_mem member with ⟨index, found⟩
    exact validateSegment_eq_ok.mp (accepted (segment, index) (List.mem_zipIdx_iff_getElem?.mpr found))
  · rintro valid ⟨segment, index⟩ member
    have found := List.mem_zipIdx_iff_getElem?.mp member
    exact validateSegment_eq_ok.mpr (valid segment (List.mem_of_getElem? found))

structure NodeIdSuffix where
  value : String
  valid : validateIdentifier value = .ok ()
  deriving DecidableEq

structure NodeId where
  value : String
  valid : validateIdentifier value = .ok ()
  deriving DecidableEq

structure CitationId where
  value : String
  valid : validateIdentifier value = .ok ()
  deriving DecidableEq

def NodeIdSuffix.new (value : String) : Except IdentifierError NodeIdSuffix :=
  match valid : validateIdentifier value with
  | .ok () => .ok ⟨value, valid⟩
  | .error error => .error error

def NodeId.new (value : String) : Except IdentifierError NodeId :=
  match valid : validateIdentifier value with
  | .ok () => .ok ⟨value, valid⟩
  | .error error => .error error

def CitationId.new (value : String) : Except IdentifierError CitationId :=
  match valid : validateIdentifier value with
  | .ok () => .ok ⟨value, valid⟩
  | .error error => .error error

instance : Ord NodeId := ⟨compareOn NodeId.value⟩

instance : Ord CitationId := ⟨compareOn CitationId.value⟩

instance : Std.TransOrd NodeId := inferInstanceAs (Std.TransCmp (compareOn NodeId.value))

instance : Std.TransOrd CitationId := inferInstanceAs (Std.TransCmp (compareOn CitationId.value))

instance : Std.LawfulEqOrd NodeId := lawfulEqCmp_compareOn (by rintro ⟨_, _⟩ ⟨_, _⟩ rfl; rfl)

instance : Std.LawfulEqOrd CitationId := lawfulEqCmp_compareOn (by rintro ⟨_, _⟩ ⟨_, _⟩ rfl; rfl)

theorem isSegment_not_mem_dot {segment : List Char} (valid : IsSegment segment) : '.' ∉ segment := by
  rcases valid with ⟨first, characters, rfl, start, valid⟩
  intro member
  rcases List.mem_cons.mp member with rfl | member
  · exact absurd start (by decide)
  · exact absurd (valid _ member) (by decide)

theorem validateIdentifier_prefixed {segment suffix : String} (lead : IsSegment segment.toList)
    (valid : validateIdentifier suffix = .ok ()) : validateIdentifier (segment ++ "." ++ suffix) = .ok () := by
  rw [validateIdentifier_eq_ok] at valid ⊢
  have fresh := isSegment_not_mem_dot lead
  have characters : (segment ++ "." ++ suffix).toList = segment.toList ++ '.' :: suffix.toList := by simp
  rw [characters, List.splitOn_append_cons_self_of_not_mem fresh]
  constructor
  · intro empty
    rw [empty] at characters
    simp at characters
  · intro part member
    rcases List.mem_cons.mp member with rfl | member
    · exact lead
    · exact valid.2 part member

theorem source_valid : validateIdentifier "source" = .ok () := by decide +kernel

theorem result_valid : validateIdentifier "result" = .ok () := by decide +kernel

end KafkaCalculator

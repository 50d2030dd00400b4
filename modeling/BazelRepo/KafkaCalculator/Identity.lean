import BazelRepo.KafkaCalculator.Expression

namespace KafkaCalculator

open Library

def IsIdentifier (text : List Char) : Prop :=
  ∃ segments : List (List Char), segments ≠ [] ∧ (∀ segment ∈ segments, IsSegment segment) ∧ ['.'].intercalate segments = text

/-- What is wrong with a text at the first place where something is: every segment before it is one, and so is the beginning
of its own segment up to it. -/
inductive Leftmost (text : List Char) : IdentifierError → Prop where
  | empty (nothing : text = []) : Leftmost text .empty
  | emptySegment {before rest : List (List Char)} (something : text ≠ []) (split : text.splitOn '.' = before ++ [] :: rest)
      (earlier : ∀ segment ∈ before, IsSegment segment) : Leftmost text (.emptySegment before.length)
  | invalidSegmentStart {before rest : List (List Char)} {c : Char} {characters : List Char}
      (split : text.splitOn '.' = before ++ (c :: characters) :: rest)
      (earlier : ∀ segment ∈ before, IsSegment segment) (invalid : isAsciiLowercase c = false) :
      Leftmost text (.invalidSegmentStart before.length c)
  | invalidCharacter {before rest : List (List Char)} {segment characters : List Char} {c : Char}
      (split : text.splitOn '.' = before ++ (segment ++ c :: characters) :: rest)
      (earlier : ∀ segment ∈ before, IsSegment segment) (begun : IsSegment segment) (invalid : isSegmentCharacter c = false) :
      Leftmost text (.invalidCharacter before.length segment.length c)

inductive SegmentFault (index : Nat) : List Char → IdentifierError → Prop where
  | empty : SegmentFault index [] (.emptySegment index)
  | start {c : Char} {characters : List Char} (invalid : isAsciiLowercase c = false) :
      SegmentFault index (c :: characters) (.invalidSegmentStart index c)
  | character {segment characters : List Char} {c : Char} (begun : IsSegment segment) (invalid : isSegmentCharacter c = false) :
      SegmentFault index (segment ++ c :: characters) (.invalidCharacter index segment.length c)

theorem validateSegment_error {index : Nat} {segment : List Char} {error : IdentifierError}
    (failed : validateSegment index segment = .error error) : SegmentFault index segment error := by
  cases segment with
  | nil =>
    cases failed
    exact .empty
  | cons first characters =>
    unfold validateSegment at failed
    dsimp only at failed
    split at failed
    · rename_i start
      cases failed
      exact .start (by simpa using start)
    · rename_i start
      rcases forM_zipIdx_eq_error.mp failed with ⟨before, c, rest, rfl, earlier, last⟩
      split at last
      · cases last
      · rename_i invalid
        cases last
        apply @SegmentFault.character index (first :: before) rest c
        · refine ⟨first, before, rfl, by simpa using start, ?_⟩
          intro d member
          rcases List.getElem?_of_mem member with ⟨i, found⟩
          have passed := earlier i d found
          by_contra wrong
          simp [wrong] at passed
        · simpa using invalid

theorem validateSegment_eq_error {index : Nat} {segment : List Char} {error : IdentifierError} :
    validateSegment index segment = .error error ↔ SegmentFault index segment error := by
  constructor
  · exact validateSegment_error
  · intro fault
    cases fault with
    | empty => rfl
    | start invalid =>
      unfold validateSegment
      dsimp only
      rw [if_pos (by simpa using invalid)]
    | @character segment characters c begun invalid =>
      rcases begun with ⟨first, before, rfl, start, valid⟩
      show validateSegment index (first :: (before ++ c :: characters)) = _
      unfold validateSegment
      dsimp only
      rw [if_neg (by simpa using start)]
      apply forM_zipIdx_eq_error.mpr
      refine ⟨before, c, characters, rfl, ?_, ?_⟩
      · intro i d found
        exact if_pos (valid d (List.mem_of_getElem? found))
      · dsimp only
        rw [if_neg (by simpa using invalid)]
        rfl

theorem validateIdentifier_eq_error {value : String} {error : IdentifierError} :
    validateIdentifier value = .error error ↔ Leftmost value.toList error := by
  have passes : ∀ before : List (List Char), (∀ (i : Nat) (segment : List Char), before[i]? = some segment →
      validateSegment i segment = .ok ()) ↔ ∀ segment ∈ before, IsSegment segment := by
    intro before
    constructor
    · intro all segment member
      rcases List.getElem?_of_mem member with ⟨i, found⟩
      exact validateSegment_eq_ok.mp (all i segment found)
    · intro all i segment found
      exact validateSegment_eq_ok.mpr (all segment (List.mem_of_getElem? found))
  unfold validateIdentifier
  by_cases nothing : value.isEmpty = true
  · rw [if_pos nothing]
    have text : value.toList = [] := by
      rw [String.isEmpty_iff.mp nothing]
      rfl
    constructor
    · intro failed
      cases failed
      exact .empty text
    · intro leftmost
      cases leftmost with
      | empty _ => rfl
      | emptySegment something _ _ => exact absurd text something
      | invalidSegmentStart split _ _ | invalidCharacter split _ _ _ =>
        rw [text, List.splitOn_nil] at split
        have only := congrArg List.flatten split
        simp at only
  · rw [if_neg nothing, forM_zipIdx_eq_error]
    have text : value.toList ≠ [] := by
      intro none_there
      exact nothing (String.isEmpty_iff.mpr (String.toList_inj.mp none_there))
    constructor
    · rintro ⟨before, segment, rest, split, earlier, failed⟩
      have valid := (passes before).mp earlier
      have fault := validateSegment_eq_error.mp failed
      dsimp only at fault
      cases fault with
      | empty => exact .emptySegment text split valid
      | start invalid => exact .invalidSegmentStart split valid invalid
      | character begun invalid => exact .invalidCharacter split valid begun invalid
    · intro leftmost
      cases leftmost with
      | empty nothing_there => exact absurd nothing_there text
      | emptySegment _ split earlier => exact ⟨_, _, _, split, (passes _).mpr earlier, validateSegment_eq_error.mpr .empty⟩
      | invalidSegmentStart split earlier invalid =>
        exact ⟨_, _, _, split, (passes _).mpr earlier, validateSegment_eq_error.mpr (.start invalid)⟩
      | invalidCharacter split earlier begun invalid =>
        exact ⟨_, _, _, split, (passes _).mpr earlier, validateSegment_eq_error.mpr (.character begun invalid)⟩

theorem validateIdentifier_iff {value : String} : validateIdentifier value = .ok () ↔ IsIdentifier value.toList := by
  rw [validateIdentifier_eq_ok]
  constructor
  · rintro ⟨_, valid⟩
    exact ⟨value.toList.splitOn '.', List.splitOn_ne_nil _ _, valid, List.intercalate_splitOn '.'⟩
  · rintro ⟨segments, nonempty, valid, joined⟩
    have split : value.toList.splitOn '.' = segments := by
      rw [← joined]
      exact List.splitOn_intercalate '.' (fun segment member => isSegment_not_mem_dot (valid segment member)) nonempty
    rw [split]
    refine ⟨?_, valid⟩
    rintro rfl
    rw [show "".toList = [] from rfl, List.splitOn_nil] at split
    rcases valid [] (by rw [← split]; exact List.mem_singleton_self []) with ⟨_, _, impossible, _⟩
    cases impossible

inductive NodeKind where
  | input
  | constant
  | derived
  | setting
  | finding
  deriving DecidableEq

def NodeKind.type : NodeKind → Type
  | .input => Input
  | .constant => Constant
  | .derived => Derived
  | .setting => Setting
  | .finding => Finding

instance : (kind : NodeKind) → NodeTypeMetadata kind.type
  | .input => inferInstanceAs (NodeTypeMetadata Input)
  | .constant => inferInstanceAs (NodeTypeMetadata Constant)
  | .derived => inferInstanceAs (NodeTypeMetadata Derived)
  | .setting => inferInstanceAs (NodeTypeMetadata Setting)
  | .finding => inferInstanceAs (NodeTypeMetadata Finding)

theorem idPrefix_inj {kind other : NodeKind} (same : NodeTypeMetadata.idPrefix kind.type = NodeTypeMetadata.idPrefix other.type) :
    kind = other := by
  cases kind <;> cases other <;> first | rfl | exact absurd same (by decide)

theorem fromParts_inj {τ σ : Type} [NodeTypeMetadata τ] [NodeTypeMetadata σ] {suffix other : NodeIdSuffix}
    (same : NodeId.fromParts τ suffix = NodeId.fromParts σ other) :
    NodeTypeMetadata.idPrefix τ = NodeTypeMetadata.idPrefix σ ∧ suffix = other := by
  have texts : (NodeTypeMetadata.idPrefix τ ++ "." ++ suffix.value).toList =
      (NodeTypeMetadata.idPrefix σ ++ "." ++ other.value).toList := congrArg (fun id => id.value.toList) same
  rw [String.toList_append, String.toList_append, String.toList_append, String.toList_append, List.append_assoc,
    List.append_assoc] at texts
  have dot : ".".toList = ['.'] := rfl
  rw [dot, List.singleton_append, List.singleton_append] at texts
  -- the first dot ends the prefix on both sides
  have pieces := congrArg (List.splitOn '.') texts
  rw [List.splitOn_append_cons_self_of_not_mem (isSegment_not_mem_dot NodeTypeMetadata.segment),
    List.splitOn_append_cons_self_of_not_mem (isSegment_not_mem_dot NodeTypeMetadata.segment)] at pieces
  have lead := String.toList_inj.mp (List.cons.inj pieces).1
  rw [lead, List.append_cancel_left_eq, List.cons.injEq] at texts
  refine ⟨lead, ?_⟩
  cases suffix
  cases other
  rw [NodeIdSuffix.mk.injEq]
  exact String.toList_inj.mp texts.2

/-- The identifiers of the nodes: which texts are accepted, what an error is about, and that a node's kind and suffix make its
identifier, which no other ones do. -/
theorem identifiers_canonical :
    (∀ value : String, validateIdentifier value = .ok () ↔ IsIdentifier value.toList) ∧
    (∀ (value : String) (error : IdentifierError), validateIdentifier value = .error error ↔ Leftmost value.toList error) ∧
    (∀ (kind : NodeKind) (suffix : NodeIdSuffix) (metadata : NodeMetadata) (data : kind.type),
      validateIdentifier (Node.new suffix metadata data).id.value = .ok ()) ∧
    ∀ (kind other : NodeKind) (suffix suffix' : NodeIdSuffix) (metadata metadata' : NodeMetadata) (data : kind.type)
      (data' : other.type), (Node.new suffix metadata data).id = (Node.new suffix' metadata' data').id →
        kind = other ∧ suffix = suffix' := by
  refine ⟨fun value => validateIdentifier_iff, fun value error => validateIdentifier_eq_error, ?_, ?_⟩
  · intro kind suffix metadata data
    exact (Node.new suffix metadata data).id.valid
  · intro kind other suffix suffix' metadata metadata' data data' same
    rcases fromParts_inj same with ⟨leads, suffixes⟩
    exact ⟨idPrefix_inj leads, suffixes⟩

example : validateIdentifier "input.byTes" = .error (.invalidCharacter 1 2 'T') := by decide

end KafkaCalculator

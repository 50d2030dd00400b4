import Mathlib.Data.List.Basic
import Mathlib.Data.Nat.Find
import Mathlib.Data.Rat.Init
import Mathlib.Order.Lattice

namespace PinyinComposer

/-- A text of the browser: its UTF-16 code units. -/
abbrev Text := List UInt16

/-- Whitespace and line terminators, as the trimming of the browser knows them. -/
def isWhitespace (unit : UInt16) : Bool :=
  (0x09 ≤ unit && unit ≤ 0x0D) || unit == 0x20 || unit == 0xA0 || unit == 0x1680 ||
    (0x2000 ≤ unit && unit ≤ 0x200A) || unit == 0x2028 || unit == 0x2029 || unit == 0x202F ||
    unit == 0x205F || unit == 0x3000 || unit == 0xFEFF

def trim (text : Text) : Text :=
  ((text.dropWhile isWhitespace).reverse.dropWhile isWhitespace).reverse

def slice (text : Text) (startOffset endOffset : Int) : Text :=
  (text.take endOffset.toNat).drop startOffset.toNat

def characters : Text → List Text
  | [] => []
  | [unit] => [[unit]]
  | high :: low :: rest =>
    if 0xD800 ≤ high && high ≤ 0xDBFF && 0xDC00 ≤ low && low ≤ 0xDFFF then [high, low] :: characters rest
    else [high] :: characters (low :: rest)

/-- The script property of the browser's character tables. -/
class HanScript where
  isHanzi : Text → Bool

/-- The random ids of the browser, by how many were drawn before. Whatever ids are in use, drawing on gives another. -/
class RandomUuid where
  draw : Nat → Text
  escapes : ∀ (used : List Text) (drawn : Nat), ∃ more, draw (drawn + more) ∉ used

/-- Ids each one longer than the last, so never drawn twice. -/
abbrev lengthening : RandomUuid where
  draw := fun drawn => List.replicate drawn 0x30
  escapes := by
    intro used drawn
    refine ⟨used.flatten.length + 1, ?_⟩
    intro member
    have bound := (List.sublist_flatten_of_mem member).length_le
    rw [List.length_replicate] at bound
    omega

inductive Number where
  | finite (value : ℚ)
  | infinity
  | negativeInfinity
  | nan
  deriving DecidableEq

instance : Coe Int Number := ⟨fun offset => .finite offset⟩

def trunc (value : ℚ) : Int := value.num.tdiv value.den

structure Candidate where
  id : Text
  sourcePinyin : Text
  sourcePinyinSyllables : List Text
  hanzi : Text
  displayPinyin : Text
  displayPinyinSyllables : List Text
  deriving DecidableEq

structure DocumentRange where
  startOffset : Int
  endOffset : Int
  deriving DecidableEq

inductive AnnotationScope where
  | character
  | atomicPhrase
  deriving DecidableEq

inductive DocumentSpan where
  | annotated (id sourcePinyin text displayPinyin : Text) (annotationScope : AnnotationScope)
  | plain (id text : Text)
  deriving DecidableEq

def DocumentSpan.id : DocumentSpan → Text
  | .annotated id _ _ _ _ => id
  | .plain id _ => id

def DocumentSpan.text : DocumentSpan → Text
  | .annotated _ _ text _ _ => text
  | .plain _ text => text

def DocumentSpan.length (span : DocumentSpan) : Int := span.text.length

def DocumentSpan.isAtomic : DocumentSpan → Bool
  | .annotated _ _ _ _ .atomicPhrase => true
  | _ => false

def DocumentSpan.isPlain : DocumentSpan → Bool
  | .plain _ _ => true
  | .annotated _ _ _ _ _ => false

structure EditorState where
  inputBuffer : Text := []
  spans : List DocumentSpan := []
  pendingRange : Option DocumentRange := none
  /-- How many random ids the browser has drawn. -/
  drawn : Nat := 0
  deriving DecidableEq

def documentText (spans : List DocumentSpan) : Text := spans.flatMap DocumentSpan.text

def clampOffset (offset : Number) (documentLength : Int) : Int :=
  match offset with
  | .finite value => min (max (trunc value) 0) documentLength
  | .infinity | .negativeInfinity | .nan => 0

def EditorState.normalizeRange (editor : EditorState) (startOffset endOffset : Number) : DocumentRange :=
  let documentLength : Int := (documentText editor.spans).length
  let safeStartOffset := clampOffset startOffset documentLength
  let safeEndOffset := clampOffset endOffset documentLength
  { startOffset := min safeStartOffset safeEndOffset
    endOffset := max safeStartOffset safeEndOffset }

def EditorState.updateInputBuffer (editor : EditorState) (value : Text) : EditorState :=
  { editor with inputBuffer := value }

def EditorState.setPendingRange (editor : EditorState) (range : Option DocumentRange) : EditorState :=
  { editor with pendingRange := range.map fun range => editor.normalizeRange range.startOffset range.endOffset }

def rangeIntersectsSpan (range : DocumentRange) (spanStartOffset spanEndOffset : Int) : Bool :=
  range.startOffset < spanEndOffset && spanStartOffset < range.endOffset

def placedSpans : Int → List DocumentSpan → List (DocumentSpan × Int × Int)
  | _, [] => []
  | offset, span :: rest => (span, offset, offset + span.length) :: placedSpans (offset + span.length) rest

def expandOverSpan (range : DocumentRange) (placed : DocumentSpan × Int × Int) : DocumentRange :=
  if rangeIntersectsSpan range placed.2.1 placed.2.2 && placed.1.isAtomic &&
      (placed.2.1 < range.startOffset || range.endOffset < placed.2.2) then
    { startOffset := min range.startOffset placed.2.1
      endOffset := max range.endOffset placed.2.2 }
  else range

def expandPass (spans : List DocumentSpan) (range : DocumentRange) : DocumentRange :=
  (placedSpans 0 spans).foldl expandOverSpan range

/-- The passes of the loop, which goes on while a pass expands the range. -/
def expandLoop (spans : List DocumentSpan) : Nat → DocumentRange → DocumentRange
  | 0, range => range
  | passes + 1, range =>
    if expandPass spans range = range then range else expandLoop spans passes (expandPass spans range)

/-- Each expanding pass covers another span, so the loop ends within these passes. -/
def expandRangeForAtomicAnnotations (spans : List DocumentSpan) (range : DocumentRange) : DocumentRange :=
  expandLoop spans (spans.length + 1) range

structure SpanIds where
  used : List Text
  drawn : Nat

def usedSpanIds (spans : List DocumentSpan) (drawn : Nat) : SpanIds := { used := spans.map DocumentSpan.id, drawn }

section

variable [RandomUuid]

def createUniqueSpanId (ids : SpanIds) : Text × SpanIds :=
  let more := Nat.find (RandomUuid.escapes ids.used ids.drawn)
  let id := RandomUuid.draw (ids.drawn + more)
  (id, { used := id :: ids.used, drawn := ids.drawn + more + 1 })

def characterSpans (ids : SpanIds) : List (Text × Text × Text) → List DocumentSpan × SpanIds
  | [] => ([], ids)
  | (character, source, display) :: rest =>
    let (id, ids) := createUniqueSpanId ids
    let (spans, ids) := characterSpans ids rest
    (.annotated id source character display .character :: spans, ids)

def alignedSpansForCandidate [HanScript] (candidate : Candidate) (ids : SpanIds) :
    Option (List DocumentSpan × SpanIds) :=
  let hanziCharacters := characters candidate.hanzi
  if hanziCharacters.length = 0 ∨ ¬ hanziCharacters.all HanScript.isHanzi ∨
      candidate.sourcePinyinSyllables.length ≠ hanziCharacters.length ∨
      candidate.displayPinyinSyllables.length ≠ hanziCharacters.length ∨
      candidate.sourcePinyinSyllables.any List.isEmpty ∨ candidate.displayPinyinSyllables.any List.isEmpty then
    none
  else
    some (characterSpans ids
      (hanziCharacters.zip (candidate.sourcePinyinSyllables.zip candidate.displayPinyinSyllables)))

def spansForCandidate [HanScript] (candidate : Candidate) (ids : SpanIds) : List DocumentSpan × SpanIds :=
  match alignedSpansForCandidate candidate ids with
  | some aligned => aligned
  | none =>
    let (id, ids) := createUniqueSpanId ids
    ([.annotated id candidate.sourcePinyin candidate.hanzi candidate.displayPinyin .atomicPhrase], ids)

def sliceSpan (span : DocumentSpan) (startOffset endOffset : Int) (id : Text) : DocumentSpan :=
  match span with
  | .plain _ text => .plain id (slice text startOffset endOffset)
  | .annotated _ source text display scope => .annotated id source (slice text startOffset endOffset) display scope

def clampSpanOffset (offset spanLength : Int) : Int := min (max offset 0) spanLength

/-- What of the spans so far lies before a range and what lies after it. -/
structure Split where
  before : List DocumentSpan
  after : List DocumentSpan
  ids : SpanIds

def splitSpan (range : DocumentRange) (split : Split) (placed : DocumentSpan × Int × Int) : Split :=
  let (span, spanStartOffset, spanEndOffset) := placed
  if spanEndOffset ≤ range.startOffset then { split with before := split.before ++ [span] }
  else if range.endOffset ≤ spanStartOffset then { split with after := split.after ++ [span] }
  else
    let leadingEndOffset := clampSpanOffset (range.startOffset - spanStartOffset) span.length
    let trailingStartOffset := clampSpanOffset (range.endOffset - spanStartOffset) span.length
    if 0 < leadingEndOffset then
      let before := split.before ++ [sliceSpan span 0 leadingEndOffset span.id]
      if trailingStartOffset < span.length then
        let (id, ids) := createUniqueSpanId split.ids
        { before, after := split.after ++ [sliceSpan span trailingStartOffset span.length id], ids }
      else { split with before }
    else if trailingStartOffset < span.length then
      { split with after := split.after ++ [sliceSpan span trailingStartOffset span.length span.id] }
    else split

def splitSpansForRange (spans : List DocumentSpan) (range : DocumentRange) (ids : SpanIds) : Split :=
  let split := (placedSpans 0 spans).foldl (splitSpan range) { before := [], after := [], ids }
  { split with
    before := split.before.filter fun span => 0 < span.length
    after := split.after.filter fun span => 0 < span.length }

end

def mergeSpan (merged : List DocumentSpan) (span : DocumentSpan) : List DocumentSpan :=
  if span.text = [] then merged
  else
    match merged.getLast?, span with
    | some (.plain id previous), .plain _ text => merged.dropLast ++ [.plain id (previous ++ text)]
    | _, _ => merged ++ [span]

def mergeAdjacentPlainSpans (spans : List DocumentSpan) : List DocumentSpan := spans.foldl mergeSpan []

section

variable [RandomUuid]

def EditorState.replaceSpans (editor : EditorState) (range : DocumentRange) (replacement : List DocumentSpan × SpanIds) :
    EditorState :=
  let split := splitSpansForRange editor.spans range replacement.2
  { editor with
    spans := mergeAdjacentPlainSpans (split.before ++ replacement.1 ++ split.after)
    drawn := split.ids.drawn }

def spansForText (text : Text) (ids : SpanIds) : List DocumentSpan × SpanIds :=
  if 0 < text.length then
    let (id, ids) := createUniqueSpanId ids
    ([.plain id text], ids)
  else ([], ids)

def EditorState.replaceRange (editor : EditorState) (startOffset endOffset : Number) (text : Text) :
    EditorState × DocumentRange :=
  let range := expandRangeForAtomicAnnotations editor.spans (editor.normalizeRange startOffset endOffset)
  (editor.replaceSpans range (spansForText text (usedSpanIds editor.spans editor.drawn)),
    { startOffset := range.startOffset, endOffset := range.startOffset + text.length })

def EditorState.commitCandidateToRange [HanScript] (editor : EditorState) (startOffset endOffset : Number)
    (candidate : Candidate) : EditorState :=
  let expandedRange := expandRangeForAtomicAnnotations editor.spans (editor.normalizeRange startOffset endOffset)
  { editor.replaceSpans expandedRange (spansForCandidate candidate (usedSpanIds editor.spans editor.drawn)) with
    inputBuffer := []
    pendingRange := none }

def EditorState.commitCandidate [HanScript] (editor : EditorState) (candidate : Candidate) : EditorState :=
  let endOffset : Int := (documentText editor.spans).length
  editor.commitCandidateToRange endOffset endOffset candidate

def findSpanRange (spans : List DocumentSpan) (spanId : Text) : Option DocumentRange :=
  ((placedSpans 0 spans).find? fun placed => placed.1.id = spanId).map fun placed => ⟨placed.2.1, placed.2.2⟩

def EditorState.replaceToken [HanScript] (editor : EditorState) (tokenId : Text) (candidate : Candidate) : EditorState :=
  match findSpanRange editor.spans tokenId with
  | none => editor
  | some range => editor.commitCandidateToRange range.startOffset range.endOffset candidate

def EditorState.clear (editor : EditorState) : EditorState :=
  { editor with inputBuffer := [], spans := [], pendingRange := none }

end

def DocumentRange.covers (range : DocumentRange) (placed : DocumentSpan × Int × Int) : Bool :=
  range.startOffset ≤ placed.2.1 && placed.2.2 ≤ range.endOffset

def DocumentRange.Within (inner outer : DocumentRange) : Prop :=
  outer.startOffset ≤ inner.startOffset ∧ inner.endOffset ≤ outer.endOffset

theorem covers_of_within {inner outer : DocumentRange} (within : inner.Within outer)
    {placed : DocumentSpan × Int × Int} (covered : inner.covers placed = true) : outer.covers placed = true := by
  rcases within with ⟨starts, ends⟩
  simp only [DocumentRange.covers, Bool.and_eq_true, decide_eq_true_eq] at covered ⊢
  omega

theorem expandOverSpan_cases (range : DocumentRange) (placed : DocumentSpan × Int × Int) :
    expandOverSpan range placed = range ∨ (range.Within (expandOverSpan range placed) ∧
      (expandOverSpan range placed).covers placed = true ∧ range.covers placed = false) := by
  unfold expandOverSpan
  split
  · rename_i partly
    right
    simp only [Bool.and_eq_true, Bool.or_eq_true, decide_eq_true_eq] at partly
    refine ⟨⟨min_le_left _ _, le_max_left _ _⟩, ?_, ?_⟩
    · simp [DocumentRange.covers]
    · rw [Bool.eq_false_iff]
      simp only [DocumentRange.covers, ne_eq, Bool.and_eq_true, decide_eq_true_eq]
      omega
  · exact .inl rfl

theorem foldl_expandOverSpan_cases (placed : List (DocumentSpan × Int × Int)) (range : DocumentRange) :
    placed.foldl expandOverSpan range = range ∨ (range.Within (placed.foldl expandOverSpan range) ∧
      ∃ span ∈ placed, (placed.foldl expandOverSpan range).covers span = true ∧ range.covers span = false) := by
  induction placed generalizing range with
  | nil => exact .inl rfl
  | cons first rest ih =>
    rw [List.foldl_cons]
    rcases expandOverSpan_cases range first with same | ⟨within, covered, open_⟩
    · rw [same]
      rcases ih range with kept | ⟨wider, span, member, facts⟩
      · exact .inl kept
      · exact .inr ⟨wider, span, List.mem_cons_of_mem _ member, facts⟩
    · right
      rcases ih (expandOverSpan range first) with kept | ⟨wider, _⟩
      · rw [kept]
        exact ⟨within, first, List.mem_cons_self, covered, open_⟩
      · refine ⟨⟨?_, ?_⟩, first, List.mem_cons_self, covers_of_within wider covered, open_⟩
        · exact wider.1.trans within.1
        · exact within.2.trans wider.2

def uncovered (placed : List (DocumentSpan × Int × Int)) (range : DocumentRange) : Nat :=
  placed.countP fun span => !range.covers span

theorem uncovered_expandPass {spans : List DocumentSpan} {range : DocumentRange}
    (expands : expandPass spans range ≠ range) :
    uncovered (placedSpans 0 spans) (expandPass spans range) < uncovered (placedSpans 0 spans) range := by
  rcases foldl_expandOverSpan_cases (placedSpans 0 spans) range with same | ⟨within, span, member, covered, bare⟩
  · exact absurd same expands
  · have wider : range.Within (expandPass spans range) := within
    have fewer : ∀ others : List (DocumentSpan × Int × Int),
        uncovered others (expandPass spans range) ≤ uncovered others range := by
      intro others
      apply List.countP_mono_left
      intro other _ still
      rw [Bool.not_eq_true'] at still ⊢
      cases before : range.covers other with
      | false => rfl
      | true =>
        rw [covers_of_within wider before] at still
        cases still
    rcases List.append_of_mem member with ⟨before, after, split⟩
    have ahead := fewer before
    have behind := fewer after
    have gained : uncovered [span] (expandPass spans range) < uncovered [span] range := by
      have reached : (expandPass spans range).covers span = true := covered
      simp [uncovered, reached, bare]
    unfold uncovered at ahead behind gained ⊢
    rw [split, List.countP_append, List.countP_append, ← List.singleton_append, List.countP_append,
      List.countP_append]
    omega

theorem expandPass_expandRange (spans : List DocumentSpan) (range : DocumentRange) :
    expandPass spans (expandRangeForAtomicAnnotations spans range) = expandRangeForAtomicAnnotations spans range := by
  have ends : ∀ (passes : Nat) (range : DocumentRange), uncovered (placedSpans 0 spans) range < passes →
      expandPass spans (expandLoop spans passes range) = expandLoop spans passes range := by
    intro passes
    induction passes with
    | zero =>
      intro range few
      omega
    | succ passes ih =>
      intro range few
      unfold expandLoop
      split
      · assumption
      · rename_i expands
        apply ih
        have fewer := uncovered_expandPass expands
        omega
  apply ends
  have length : ∀ (offset : Int) (spans : List DocumentSpan), (placedSpans offset spans).length = spans.length := by
    intro offset spans
    induction spans generalizing offset with
    | nil => rfl
    | cons span rest ih => rw [placedSpans, List.length_cons, List.length_cons, ih]
  have bound : uncovered (placedSpans 0 spans) range ≤ spans.length := by
    rw [← length 0 spans]
    exact List.countP_le_length
  omega

end PinyinComposer

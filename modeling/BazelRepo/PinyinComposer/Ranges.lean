import BazelRepo.PinyinComposer.Editor
import Mathlib.Data.List.Chain
import Mathlib.Data.List.Pairwise
import Mathlib.Order.MinMax

namespace PinyinComposer

def textLength (spans : List DocumentSpan) : Int := (documentText spans).length

@[simp]
theorem documentText_nil : documentText [] = [] := rfl

@[simp]
theorem documentText_cons (span : DocumentSpan) (rest : List DocumentSpan) :
    documentText (span :: rest) = span.text ++ documentText rest := rfl

@[simp]
theorem documentText_append (left right : List DocumentSpan) :
    documentText (left ++ right) = documentText left ++ documentText right := List.flatMap_append

@[simp]
theorem textLength_nil : textLength [] = 0 := rfl

@[simp]
theorem textLength_cons (span : DocumentSpan) (rest : List DocumentSpan) :
    textLength (span :: rest) = span.length + textLength rest := by
  simp [textLength, DocumentSpan.length]

@[simp]
theorem textLength_append (left right : List DocumentSpan) :
    textLength (left ++ right) = textLength left + textLength right := by
  simp [textLength]

theorem textLength_nonneg (spans : List DocumentSpan) : 0 ≤ textLength spans := Int.natCast_nonneg _

theorem DocumentSpan.length_nonneg (span : DocumentSpan) : 0 ≤ span.length := Int.natCast_nonneg _

theorem DocumentSpan.length_pos {span : DocumentSpan} : 0 < span.length ↔ span.text ≠ [] := by
  unfold DocumentSpan.length
  rw [← List.length_pos_iff]
  omega

@[simp]
theorem text_sliceSpan (span : DocumentSpan) (startOffset endOffset : Int) (id : Text) :
    (sliceSpan span startOffset endOffset id).text = slice span.text startOffset endOffset := by
  cases span <;> rfl

@[simp]
theorem id_sliceSpan (span : DocumentSpan) (startOffset endOffset : Int) (id : Text) :
    (sliceSpan span startOffset endOffset id).id = id := by
  cases span <;> rfl

theorem isPlain_sliceSpan (span : DocumentSpan) (startOffset endOffset : Int) (id : Text) :
    (sliceSpan span startOffset endOffset id).isPlain = span.isPlain := by
  cases span <;> rfl

theorem isAtomic_sliceSpan (span : DocumentSpan) (startOffset endOffset : Int) (id : Text) :
    (sliceSpan span startOffset endOffset id).isAtomic = span.isAtomic := by
  rcases span with ⟨_, _, _, _, _ | _⟩ | _ <;> rfl

theorem placedSpans_append (left right : List DocumentSpan) (offset : Int) :
    placedSpans offset (left ++ right) = placedSpans offset left ++ placedSpans (offset + textLength left) right := by
  induction left generalizing offset with
  | nil => simp [placedSpans]
  | cons span rest ih =>
    rw [List.cons_append, placedSpans, placedSpans, ih, List.cons_append, textLength_cons, Int.add_assoc]

theorem mem_placedSpans {spans : List DocumentSpan} {offset : Int} {placed : DocumentSpan × Int × Int} :
    placed ∈ placedSpans offset spans ↔ ∃ before after, spans = before ++ placed.1 :: after ∧
      placed.2.1 = offset + textLength before ∧ placed.2.2 = placed.2.1 + placed.1.length := by
  constructor
  · intro member
    induction spans generalizing offset with
    | nil => cases member
    | cons span rest ih =>
      rcases List.mem_cons.mp member with rfl | later
      · exact ⟨[], rest, rfl, by simp, rfl⟩
      · rcases ih later with ⟨before, after, rfl, start, finish⟩
        refine ⟨span :: before, after, rfl, ?_, finish⟩
        rw [start, textLength_cons]
        omega
  · rcases placed with ⟨span, start, finish⟩
    rintro ⟨before, after, rfl, start_, finish_⟩
    dsimp only at start_ finish_
    subst finish_
    subst start_
    rw [placedSpans_append]
    exact List.mem_append_right _ List.mem_cons_self

theorem placedSpans_bounds {spans : List DocumentSpan} {offset : Int} {placed : DocumentSpan × Int × Int}
    (member : placed ∈ placedSpans offset spans) :
    offset ≤ placed.2.1 ∧ placed.2.1 ≤ placed.2.2 ∧ placed.2.2 ≤ offset + textLength spans := by
  rcases mem_placedSpans.mp member with ⟨before, after, rfl, start, finish⟩
  have first := textLength_nonneg before
  have last := textLength_nonneg after
  have own := placed.1.length_nonneg
  rw [textLength_append, textLength_cons]
  omega

theorem placedSpans_pairwise (spans : List DocumentSpan) (offset : Int) :
    (placedSpans offset spans).Pairwise fun first second => first.2.2 ≤ second.2.1 := by
  induction spans generalizing offset with
  | nil => exact List.Pairwise.nil
  | cons span rest ih =>
    refine List.pairwise_cons.mpr ⟨?_, ih _⟩
    intro other member
    exact (placedSpans_bounds member).1

def Apart (first second : DocumentSpan × Int × Int) : Prop := first.2.2 ≤ second.2.1 ∨ second.2.2 ≤ first.2.1

instance : Std.Symm Apart := ⟨fun _ _ => Or.symm⟩

theorem placedSpans_disjoint {spans : List DocumentSpan} {offset : Int} {first second : DocumentSpan × Int × Int}
    (one : first ∈ placedSpans offset spans) (other : second ∈ placedSpans offset spans) :
    first = second ∨ Apart first second := by
  by_cases same : first = second
  · exact .inl same
  · right
    have apart : (placedSpans offset spans).Pairwise Apart := (placedSpans_pairwise spans offset).imp .inl
    exact apart.forall one other same

theorem DocumentRange.Within.antisymm {inner outer : DocumentRange} (one : inner.Within outer)
    (other : outer.Within inner) : inner = outer := by
  rcases inner with ⟨start, finish⟩
  rcases outer with ⟨otherStart, otherFinish⟩
  rcases one with ⟨starts, ends⟩
  rcases other with ⟨starts', ends'⟩
  dsimp only at starts ends starts' ends'
  rw [le_antisymm starts' starts, le_antisymm ends ends']

theorem within_foldl_expandOverSpan (placed : List (DocumentSpan × Int × Int)) (range : DocumentRange) :
    range.Within (placed.foldl expandOverSpan range) := by
  rcases foldl_expandOverSpan_cases placed range with same | ⟨within, _⟩
  · rw [same]
    exact ⟨le_rfl, le_rfl⟩
  · exact within

structure LeastCovering (spans : List DocumentSpan) (inner range : DocumentRange) : Prop where
  settled : expandPass spans range = range
  contains : inner.Within range
  covers : ∀ placed ∈ placedSpans 0 spans, placed.1.isAtomic = true →
    rangeIntersectsSpan range placed.2.1 placed.2.2 = true → range.covers placed = true
  least : ∀ other : DocumentRange, inner.Within other →
    (∀ placed ∈ placedSpans 0 spans, placed.1.isAtomic = true →
      rangeIntersectsSpan inner placed.2.1 placed.2.2 = true → other.covers placed = true) → range.Within other

theorem covers_of_settled {spans : List DocumentSpan} {range : DocumentRange}
    (settled : expandPass spans range = range) {placed : DocumentSpan × Int × Int}
    (member : placed ∈ placedSpans 0 spans) (atomic : placed.1.isAtomic = true)
    (intersects : rangeIntersectsSpan range placed.2.1 placed.2.2 = true) : range.covers placed = true := by
  rcases List.append_of_mem member with ⟨before, after, split⟩
  unfold expandPass at settled
  rw [split, List.foldl_append, List.foldl_cons] at settled
  have first := within_foldl_expandOverSpan before range
  have last := within_foldl_expandOverSpan after (expandOverSpan (before.foldl expandOverSpan range) placed)
  rw [settled] at last
  have middle := within_foldl_expandOverSpan [placed] (before.foldl expandOverSpan range)
  have same : before.foldl expandOverSpan range = range := by
    apply DocumentRange.Within.antisymm ?_ first
    exact ⟨last.1.trans middle.1, middle.2.trans last.2⟩
  rw [same] at last
  by_contra cut
  rw [Bool.not_eq_true] at cut
  simp only [DocumentRange.covers, Bool.and_eq_false_iff, decide_eq_false_iff_not] at cut
  unfold expandOverSpan at last
  rw [if_pos (by simp only [intersects, atomic, Bool.true_and, Bool.or_eq_true, decide_eq_true_eq]; omega)] at last
  rcases last with ⟨starts, ends⟩
  dsimp only at starts ends
  omega

/-- An end that moved is that of a phrase which the first range intersects. -/
structure Justified (spans : List DocumentSpan) (inner range : DocumentRange) : Prop where
  contains : inner.Within range
  start : range.startOffset = inner.startOffset ∨ ∃ placed ∈ placedSpans 0 spans, placed.1.isAtomic = true ∧
    rangeIntersectsSpan inner placed.2.1 placed.2.2 = true ∧ placed.2.1 = range.startOffset
  finish : range.endOffset = inner.endOffset ∨ ∃ placed ∈ placedSpans 0 spans, placed.1.isAtomic = true ∧
    rangeIntersectsSpan inner placed.2.1 placed.2.2 = true ∧ placed.2.2 = range.endOffset

theorem rangeIntersectsSpan_iff {range : DocumentRange} {start finish : Int} :
    rangeIntersectsSpan range start finish = true ↔ range.startOffset < finish ∧ start < range.endOffset := by
  unfold rangeIntersectsSpan
  rw [Bool.and_eq_true, decide_eq_true_eq, decide_eq_true_eq]

/-- A phrase reached from a justified range is reached from the first one: no phrase overlaps another. -/
theorem Justified.intersects {spans : List DocumentSpan} {inner range : DocumentRange}
    (justified : Justified spans inner range) (ordered : inner.startOffset ≤ inner.endOffset)
    {placed : DocumentSpan × Int × Int} (member : placed ∈ placedSpans 0 spans)
    (intersects : rangeIntersectsSpan range placed.2.1 placed.2.2 = true)
    (cut : placed.2.1 < range.startOffset ∨ range.endOffset < placed.2.2) :
    rangeIntersectsSpan inner placed.2.1 placed.2.2 = true := by
  rcases justified.contains with ⟨starts, ends⟩
  rw [rangeIntersectsSpan_iff] at intersects ⊢
  rcases cut with left | right
  · rcases justified.start with same | ⟨other, listed, _, reached, start⟩
    · omega
    · rw [rangeIntersectsSpan_iff] at reached
      rcases placedSpans_disjoint member listed with rfl | apart | apart
      · omega
      · omega
      · have own := (placedSpans_bounds listed).2.1
        omega
  · rcases justified.finish with same | ⟨other, listed, _, reached, finish⟩
    · omega
    · rw [rangeIntersectsSpan_iff] at reached
      rcases placedSpans_disjoint member listed with rfl | apart | apart
      · omega
      · have own := (placedSpans_bounds listed).2.1
        omega
      · omega

theorem Justified.expandOverSpan {spans : List DocumentSpan} {inner range : DocumentRange}
    (justified : Justified spans inner range) (ordered : inner.startOffset ≤ inner.endOffset)
    {placed : DocumentSpan × Int × Int} (member : placed ∈ placedSpans 0 spans) :
    Justified spans inner (expandOverSpan range placed) := by
  unfold PinyinComposer.expandOverSpan
  split
  · rename_i partly
    simp only [Bool.and_eq_true, Bool.or_eq_true, decide_eq_true_eq] at partly
    rcases partly with ⟨⟨intersects, atomic⟩, cut⟩
    have reached := justified.intersects ordered member intersects cut
    rcases justified.contains with ⟨starts, ends⟩
    refine ⟨⟨(min_le_left _ _).trans starts, ends.trans (le_max_left _ _)⟩, ?_, ?_⟩
    · dsimp only
      rcases min_choice range.startOffset placed.2.1 with kept | moved
      · rw [kept]
        exact justified.start
      · exact .inr ⟨placed, member, atomic, reached, moved.symm⟩
    · dsimp only
      rcases max_choice range.endOffset placed.2.2 with kept | moved
      · rw [kept]
        exact justified.finish
      · exact .inr ⟨placed, member, atomic, reached, moved.symm⟩
  · exact justified

theorem Justified.expandLoop {spans : List DocumentSpan} {inner : DocumentRange}
    (ordered : inner.startOffset ≤ inner.endOffset) (passes : Nat) {range : DocumentRange}
    (justified : Justified spans inner range) : Justified spans inner (expandLoop spans passes range) := by
  have pass : ∀ range, Justified spans inner range → Justified spans inner (expandPass spans range) := by
    intro range justified
    unfold expandPass
    have folded : ∀ placed : List (DocumentSpan × Int × Int), (∀ span ∈ placed, span ∈ placedSpans 0 spans) →
        ∀ range, Justified spans inner range → Justified spans inner (placed.foldl PinyinComposer.expandOverSpan range) := by
      intro placed
      induction placed with
      | nil => exact fun _ _ justified => justified
      | cons first rest ih =>
        intro members range justified
        exact ih (fun span member => members span (List.mem_cons_of_mem _ member)) _
          (justified.expandOverSpan ordered (members first List.mem_cons_self))
    exact folded _ (fun _ member => member) range justified
  induction passes generalizing range with
  | zero => exact justified
  | succ passes ih =>
    unfold PinyinComposer.expandLoop
    split
    · exact justified
    · exact ih (pass range justified)

theorem justified_expandRange (spans : List DocumentSpan) {inner : DocumentRange}
    (ordered : inner.startOffset ≤ inner.endOffset) :
    Justified spans inner (expandRangeForAtomicAnnotations spans inner) :=
  Justified.expandLoop ordered _ ⟨⟨le_rfl, le_rfl⟩, .inl rfl, .inl rfl⟩

theorem leastCovering (spans : List DocumentSpan) (inner : DocumentRange)
    (ordered : inner.startOffset ≤ inner.endOffset) :
    LeastCovering spans inner (expandRangeForAtomicAnnotations spans inner) := by
  have settled := expandPass_expandRange spans inner
  have justified := justified_expandRange spans ordered
  refine ⟨settled, justified.contains, fun placed => covers_of_settled settled, ?_⟩
  rintro other ⟨starts, ends⟩ covers
  constructor
  · rcases justified.start with same | ⟨placed, member, atomic, reached, same⟩
    · rw [same]
      exact starts
    · have covered := covers placed member atomic reached
      simp only [DocumentRange.covers, Bool.and_eq_true, decide_eq_true_eq] at covered
      omega
  · rcases justified.finish with same | ⟨placed, member, atomic, reached, same⟩
    · rw [same]
      exact ends
    · have covered := covers placed member atomic reached
      simp only [DocumentRange.covers, Bool.and_eq_true, decide_eq_true_eq] at covered
      omega

end PinyinComposer

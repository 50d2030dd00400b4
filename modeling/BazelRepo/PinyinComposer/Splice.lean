import BazelRepo.PinyinComposer.Splitting
import BazelRepo.PinyinComposer.Merging

namespace PinyinComposer

/-- The new spans are the old ones with the range replaced by the text, and nothing else. -/
structure ExactSplice (old new : List DocumentSpan) (range : DocumentRange) (text : Text)
    (inserted : List DocumentSpan) : Prop where
  spliced : documentText new = slice (documentText old) 0 range.startOffset ++ text ++
    slice (documentText old) range.endOffset (textLength old)
  before : ∀ placed ∈ placedSpans 0 old, placed.1.text ≠ [] → placed.2.2 ≤ range.startOffset →
    Kept placed.1 placed.2.1 new
  after : ∀ placed ∈ placedSpans 0 old, placed.1.text ≠ [] → range.endOffset ≤ placed.2.1 →
    Kept placed.1 (placed.2.1 - (range.endOffset - range.startOffset) + text.length) new
  whole : ∀ span ∈ new, span.isAtomic = true → span ∈ inserted ∨
    ∃ placed ∈ placedSpans 0 old, placed.1 = span ∧
      (placed.2.2 ≤ range.startOffset ∨ range.endOffset ≤ placed.2.1)
  visible : ∀ span ∈ new, span.text ≠ []
  distinct : (new.map DocumentSpan.id).Nodup
  apart : new.IsChain fun first second => ¬ (first.isPlain = true ∧ second.isPlain = true)

structure Drawn (ids : SpanIds) (made : List DocumentSpan × SpanIds) : Prop where
  distinct : (made.1.map DocumentSpan.id).Nodup
  fresh : ∀ span ∈ made.1, span.id ∉ ids.used
  used : ∀ span ∈ made.1, span.id ∈ made.2.used
  grows : ∀ id ∈ ids.used, id ∈ made.2.used

theorem drawn_nil (ids : SpanIds) : Drawn ids ([], ids) := by
  refine ⟨List.nodup_nil, ?_, ?_, fun _ member => member⟩
  · intro span member
    cases member
  · intro span member
    cases member

theorem isAtomic_isPlain {span : DocumentSpan} (atomic : span.isAtomic = true) : span.isPlain = false := by
  rcases span with ⟨_, _, _, _, _ | _⟩ | _
  · cases atomic
  · rfl
  · cases atomic

section

variable [RandomUuid]

theorem Drawn.cons {ids : SpanIds} {made : List DocumentSpan × SpanIds} {span : DocumentSpan}
    (drawn : Drawn (createUniqueSpanId ids).2 made) (own : span.id = (createUniqueSpanId ids).1) :
    Drawn ids (span :: made.1, made.2) := by
  refine ⟨?_, ?_, ?_, ?_⟩
  · rw [List.map_cons, List.nodup_cons]
    refine ⟨?_, drawn.distinct⟩
    intro member
    rcases List.mem_map.mp member with ⟨other, listed, same⟩
    apply drawn.fresh other listed
    rw [same, own]
    exact List.mem_cons_self
  · intro other member
    rcases List.mem_cons.mp member with rfl | later
    · rw [own]
      exact createUniqueSpanId_fresh ids
    · intro earlier
      exact drawn.fresh other later (List.mem_cons_of_mem _ earlier)
  · intro other member
    rcases List.mem_cons.mp member with rfl | later
    · rw [own]
      exact drawn.grows _ List.mem_cons_self
    · exact drawn.used other later
  · intro id member
    exact drawn.grows id (List.mem_cons_of_mem _ member)

theorem drawn_spansForText (text : Text) (ids : SpanIds) : Drawn ids (spansForText text ids) := by
  unfold spansForText
  split
  · exact (drawn_nil _).cons rfl
  · exact drawn_nil ids

theorem drawn_characterSpans (characters : List (Text × Text × Text)) :
    ∀ ids, Drawn ids (characterSpans ids characters) := by
  induction characters with
  | nil => exact drawn_nil
  | cons first rest ih =>
    intro ids
    exact (ih (createUniqueSpanId ids).2).cons rfl

theorem drawn_spansForCandidate [HanScript] (candidate : Candidate) (ids : SpanIds) :
    Drawn ids (spansForCandidate candidate ids) := by
  unfold spansForCandidate alignedSpansForCandidate
  dsimp only
  split
  · rename_i aligned found
    split at found
    · cases found
    · cases found
      exact drawn_characterSpans _ _
  · exact (drawn_nil _).cons rfl

theorem documentText_spansForText (text : Text) (ids : SpanIds) : documentText (spansForText text ids).1 = text := by
  unfold spansForText
  split
  · simp [DocumentSpan.text]
  · rename_i empty
    rw [List.eq_nil_of_length_eq_zero (by omega : text.length = 0)]
    rfl

theorem isPlain_spansForText {text : Text} {ids : SpanIds} {span : DocumentSpan}
    (member : span ∈ (spansForText text ids).1) : span.isPlain = true := by
  unfold spansForText at member
  split at member
  · rw [List.mem_singleton.mp member]
    rfl
  · cases member

omit [RandomUuid] in
theorem flatten_characters (text : Text) : (characters text).flatten = text := by
  fun_induction characters text with
  | case1 => rfl
  | case2 unit => rfl
  | case3 high low rest pair ih => rw [List.flatten_cons, ih]; rfl
  | case4 high low rest single ih => rw [List.flatten_cons, ih]; rfl

theorem documentText_characterSpans (characters : List (Text × Text × Text)) :
    ∀ ids, documentText (characterSpans ids characters).1 = (characters.map Prod.fst).flatten := by
  induction characters with
  | nil => exact fun _ => rfl
  | cons first rest ih =>
    intro ids
    exact congrArg (first.1 ++ ·) (ih (createUniqueSpanId ids).2)

theorem documentText_spansForCandidate [HanScript] (candidate : Candidate) (ids : SpanIds) :
    documentText (spansForCandidate candidate ids).1 = candidate.hanzi := by
  unfold spansForCandidate alignedSpansForCandidate
  dsimp only
  split
  · rename_i aligned found
    split at found
    · cases found
    · rename_i counts
      simp only [not_or, not_not] at counts
      cases found
      rw [documentText_characterSpans, List.map_fst_zip, flatten_characters]
      rw [List.length_zip, counts.2.2.1, counts.2.2.2.1, Nat.min_self]
  · simp [DocumentSpan.text]

theorem documentText_replaceSpans (editor : EditorState) (range : DocumentRange)
    (ordered : range.startOffset ≤ range.endOffset) (made : List DocumentSpan × SpanIds) :
    documentText (editor.replaceSpans range made).spans = (documentText editor.spans).take range.startOffset.toNat ++
      documentText made.1 ++ (documentText editor.spans).drop range.endOffset.toNat := by
  have texts := text_splitSpansForRange ordered editor.spans made.2
  unfold EditorState.replaceSpans
  dsimp only
  rw [(merged_mergeAdjacentPlainSpans _).text, documentText_append, documentText_append, texts.1, texts.2]

/-- What stands in the place of the range is kept apart by its ids, so the whole is a splice. -/
theorem exactSplice_replaceSpans {editor : EditorState} (distinct : (editor.spans.map DocumentSpan.id).Nodup)
    {range : DocumentRange} (starts : 0 ≤ range.startOffset) (ordered : range.startOffset ≤ range.endOffset)
    (ends : range.endOffset ≤ textLength editor.spans)
    (covers : ∀ placed ∈ placedSpans 0 editor.spans, placed.1.isAtomic = true →
      rangeIntersectsSpan range placed.2.1 placed.2.2 = true → range.covers placed = true)
    {made : List DocumentSpan × SpanIds} (drawn : Drawn (usedSpanIds editor.spans editor.drawn) made)
    {inserted : List DocumentSpan} (annotated : ∀ span ∈ made.1, span.isAtomic = true → span ∈ inserted) :
    ExactSplice editor.spans (editor.replaceSpans range made).spans range (documentText made.1) inserted := by
  rcases editor with ⟨_, spans, _, _⟩
  dsimp only at distinct ends covers drawn ⊢
  have texts := text_splitSpansForRange ordered spans made.2
  have merged := merged_mergeAdjacentPlainSpans ((splitSpansForRange spans range made.2).before ++ made.1 ++
    (splitSpansForRange spans range made.2).after)
  have before : slice (documentText spans) 0 range.startOffset = (documentText spans).take range.startOffset.toNat := rfl
  have after : slice (documentText spans) range.endOffset (textLength spans) =
      (documentText spans).drop range.endOffset.toNat := by
    unfold slice textLength
    rw [List.take_of_length_le (by omega)]
  have length : textLength (splitSpansForRange spans range made.2).before = range.startOffset := by
    unfold textLength at ends ⊢
    rw [texts.1, List.length_take]
    omega
  have tail : textLength (splitSpansForRange spans range made.2).after = textLength spans - range.endOffset := by
    unfold textLength at ends ⊢
    rw [texts.2, List.length_drop]
    omega
  refine ⟨?_, ?_, ?_, ?_, merged.visible, ?_, merged.apart⟩
  · rw [documentText_replaceSpans _ _ ordered, before, after]
  · intro placed member visible left
    rcases mem_placedSpans.mp member with ⟨earlier, later, rfl, start, finish⟩
    rcases kept_before made.2 later visible (by omega : textLength earlier + placed.1.length ≤ range.startOffset) with
      ⟨first, rest, split, same⟩
    have kept := merged.kept first placed.1 (rest ++ made.1 ++
      (splitSpansForRange (earlier ++ placed.1 :: later) range made.2).after)
      (by rw [split]; simp) visible
    rw [same] at kept
    rw [start, Int.zero_add]
    exact kept
  · intro placed member visible right
    rcases mem_placedSpans.mp member with ⟨earlier, later, rfl, start, finish⟩
    rcases kept_after made.2 later ordered visible (by omega : range.endOffset ≤ textLength earlier) with
      ⟨first, rest, split, same⟩
    have kept := merged.kept ((splitSpansForRange (earlier ++ placed.1 :: later) range made.2).before ++ made.1 ++ first)
      placed.1 rest (by rw [split]; simp) visible
    have place : textLength ((splitSpansForRange (earlier ++ placed.1 :: later) range made.2).before ++ made.1 ++ first) =
        placed.2.1 - (range.endOffset - range.startOffset) + (documentText made.1).length := by
      have total := tail
      rw [split, textLength_append, textLength_cons, textLength_append, textLength_cons] at total
      rw [textLength_append, textLength_append, length]
      have own : textLength made.1 = (documentText made.1).length := rfl
      omega
    rw [place] at kept
    exact kept
  · intro span member atomic
    have listed := merged.annotated span member (isAtomic_isPlain atomic)
    rw [List.append_assoc, List.mem_append, List.mem_append] at listed
    have outside : span ∈ (splitSpansForRange spans range made.2).before ∨
        span ∈ (splitSpansForRange spans range made.2).after → ∃ placed ∈ placedSpans 0 spans, placed.1 = span ∧
          (placed.2.2 ≤ range.startOffset ∨ range.endOffset ≤ placed.2.1) := by
      intro left
      rcases mem_splitSpansForRange left with whole | ⟨placed, present, cut, start, finish, id, rfl⟩
      · exact whole
      · rw [isAtomic_sliceSpan] at atomic
        have reached : rangeIntersectsSpan range placed.2.1 placed.2.2 = true := by
          rw [rangeIntersectsSpan_iff]
          unfold Cuts at cut
          omega
        have covered := covers placed present atomic reached
        simp only [DocumentRange.covers, Bool.and_eq_true, decide_eq_true_eq] at covered
        unfold Cuts at cut
        omega
    rcases listed with left | own | right
    · exact .inr (outside (.inl left))
    · exact .inl (annotated span own atomic)
    · exact .inr (outside (.inr right))
  · apply List.Nodup.sublist merged.ids
    have apart : (spans.map DocumentSpan.id ++ made.1.map DocumentSpan.id).Nodup := by
      refine List.nodup_append.mpr ⟨distinct, drawn.distinct, ?_⟩
      rintro id old other new rfl
      rcases List.mem_map.mp new with ⟨span, member, rfl⟩
      exact drawn.fresh span member old
    have used : ∀ id ∈ spans.map DocumentSpan.id ++ made.1.map DocumentSpan.id, id ∈ made.2.used := by
      intro id member
      rcases List.mem_append.mp member with old | new
      · exact drawn.grows id old
      · rcases List.mem_map.mp new with ⟨span, own, rfl⟩
        exact drawn.used span own
    have reserved := distinct_splitSpansForRange range apart used
    have perm : (((splitSpansForRange spans range made.2).before ++ made.1 ++
        (splitSpansForRange spans range made.2).after).map DocumentSpan.id).Perm
          ((splitSpansForRange spans range made.2).before.map DocumentSpan.id ++
            (splitSpansForRange spans range made.2).after.map DocumentSpan.id ++ made.1.map DocumentSpan.id) := by
      simp [List.perm_iff_count]
      omega
    exact perm.nodup_iff.mpr reserved

omit [RandomUuid] in
theorem normalizeRange_bounds (editor : EditorState) (startOffset endOffset : Number) :
    0 ≤ (editor.normalizeRange startOffset endOffset).startOffset ∧
      (editor.normalizeRange startOffset endOffset).startOffset ≤
        (editor.normalizeRange startOffset endOffset).endOffset ∧
      (editor.normalizeRange startOffset endOffset).endOffset ≤ textLength editor.spans := by
  have length := textLength_nonneg editor.spans
  have clamped : ∀ offset : Number, 0 ≤ clampOffset offset (textLength editor.spans) ∧
      clampOffset offset (textLength editor.spans) ≤ textLength editor.spans := by
    intro offset
    cases offset with
    | finite value =>
      show 0 ≤ min (max (trunc value) 0) _ ∧ min (max (trunc value) 0) _ ≤ _
      omega
    | infinity | negativeInfinity | nan => exact ⟨le_rfl, length⟩
  have first := clamped startOffset
  have second := clamped endOffset
  unfold EditorState.normalizeRange
  dsimp only
  unfold textLength at *
  omega

omit [RandomUuid] in
theorem LeastCovering.bounds {spans : List DocumentSpan} {inner range : DocumentRange}
    (covering : LeastCovering spans inner range) (starts : 0 ≤ inner.startOffset)
    (ordered : inner.startOffset ≤ inner.endOffset) (ends : inner.endOffset ≤ textLength spans) :
    0 ≤ range.startOffset ∧ range.startOffset ≤ range.endOffset ∧ range.endOffset ≤ textLength spans := by
  have whole := covering.least ⟨0, textLength spans⟩ ⟨starts, ends⟩ (by
    intro placed member _ _
    have bounds := placedSpans_bounds member
    simp only [DocumentRange.covers, Bool.and_eq_true, decide_eq_true_eq]
    omega)
  have contains := covering.contains
  rcases whole with ⟨first, last⟩
  rcases contains with ⟨left, right⟩
  dsimp only at first last
  omega

/-- Whatever the offsets are, an edit replaces the least range that cuts no phrase: by the text, or by the candidate. -/
theorem replacements_are_exact_splices [HanScript] (editor : EditorState)
    (distinct : (editor.spans.map DocumentSpan.id).Nodup) (startOffset endOffset : Number) :
    ∃ range, LeastCovering editor.spans (editor.normalizeRange startOffset endOffset) range ∧
      (∀ text, (editor.replaceRange startOffset endOffset text).2 =
          ⟨range.startOffset, range.startOffset + text.length⟩ ∧
        ExactSplice editor.spans (editor.replaceRange startOffset endOffset text).1.spans range text []) ∧
      ∀ candidate, ExactSplice editor.spans (editor.commitCandidateToRange startOffset endOffset candidate).spans range
        candidate.hanzi (spansForCandidate candidate (usedSpanIds editor.spans editor.drawn)).1 := by
  rcases normalizeRange_bounds editor startOffset endOffset with ⟨first, ordered, last⟩
  have covering := leastCovering editor.spans _ ordered
  rcases covering.bounds first ordered last with ⟨starts, between, ends⟩
  refine ⟨_, covering, ?_, ?_⟩
  · intro text
    refine ⟨rfl, ?_⟩
    have plain : ∀ span ∈ (spansForText text (usedSpanIds editor.spans editor.drawn)).1, span.isAtomic = true →
        span ∈ ([] : List DocumentSpan) := by
      intro span member atomic
      have plain := isPlain_spansForText member
      rw [isAtomic_isPlain atomic] at plain
      cases plain
    have splice := exactSplice_replaceSpans distinct starts between ends covering.covers
      (drawn_spansForText text (usedSpanIds editor.spans editor.drawn)) plain
    rw [documentText_spansForText] at splice
    exact splice
  · intro candidate
    have splice := exactSplice_replaceSpans distinct starts between ends covering.covers
      (drawn_spansForCandidate candidate (usedSpanIds editor.spans editor.drawn)) fun _ member _ => member
    rw [documentText_spansForCandidate] at splice
    exact splice

end

def phraseBetween : EditorState :=
  { spans := [.plain [0x31] [0x41, 0x42], .annotated [0x32] [0x62] [0x5317, 0x4EAC] [0x42] .atomicPhrase,
      .plain [0x33] [0x5A]] }

theorem replacements_are_exact_splices_phrase : ∃ range,
    LeastCovering phraseBetween.spans (phraseBetween.normalizeRange (3 : Int) .infinity) range ∧
      ExactSplice phraseBetween.spans
        (@EditorState.replaceRange lengthening phraseBetween (3 : Int) .infinity [0x21]).1.spans range [0x21] [] := by
  have distinct : (phraseBetween.spans.map DocumentSpan.id).Nodup := by decide
  rcases @replacements_are_exact_splices lengthening ⟨fun _ => true⟩ phraseBetween distinct (3 : Int) .infinity with
    ⟨range, covering, texts, _⟩
  exact ⟨range, covering, (texts [0x21]).2⟩

/-- An annotated span without a text lies before the edit, and is not kept. -/
theorem empty_span_is_dropped : ¬ ∀ (editor : EditorState) (startOffset endOffset : Number) (text : Text),
    (editor.spans.map DocumentSpan.id).Nodup → ∀ placed ∈ placedSpans 0 editor.spans, placed.1.isPlain = false →
      placed.2.2 ≤ (expandRangeForAtomicAnnotations editor.spans
        (editor.normalizeRange startOffset endOffset)).startOffset →
      placed.1 ∈ (@EditorState.replaceRange lengthening editor startOffset endOffset text).1.spans := by
  intro every
  have kept := every { spans := [.annotated [0x31] [0x61] [] [0x41] .character, .plain [0x32] [0x78]] } (1 : Int)
    (1 : Int) [0x79] (by decide) (.annotated [0x31] [0x61] [] [0x41] .character, 0, 0) (by decide +kernel) rfl
    (by decide +kernel)
  revert kept
  decide +kernel

end PinyinComposer

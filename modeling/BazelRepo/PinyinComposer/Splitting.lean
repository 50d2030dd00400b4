import BazelRepo.PinyinComposer.Ranges

namespace PinyinComposer

variable [RandomUuid]

theorem createUniqueSpanId_fresh (ids : SpanIds) : (createUniqueSpanId ids).1 ∉ ids.used :=
  Nat.find_spec (RandomUuid.escapes ids.used ids.drawn)

theorem text_splitSpan {range : DocumentRange} (ordered : range.startOffset ≤ range.endOffset) (split : Split)
    (span : DocumentSpan) (offset : Int) :
    documentText (splitSpan range split (span, offset, offset + span.length)).before =
        documentText split.before ++ span.text.take (range.startOffset - offset).toNat ∧
      documentText (splitSpan range split (span, offset, offset + span.length)).after =
        documentText split.after ++ span.text.drop (range.endOffset - offset).toNat := by
  have length : span.length = span.text.length := rfl
  unfold splitSpan
  dsimp only
  split
  · rename_i left
    rw [List.take_of_length_le (by omega), List.drop_of_length_le (by omega)]
    simp
  · rename_i left
    split
    · rename_i right
      have none : (range.startOffset - offset).toNat = 0 := by omega
      have all : (range.endOffset - offset).toNat = 0 := by omega
      simp [none, all]
    · rename_i right
      have trailing : (if clampSpanOffset (range.endOffset - offset) span.length < span.length then
          slice span.text (clampSpanOffset (range.endOffset - offset) span.length) span.length else []) =
            span.text.drop (range.endOffset - offset).toNat := by
        unfold clampSpanOffset slice
        split
        · have here : min (max (range.endOffset - offset) 0) span.length = range.endOffset - offset := by omega
          rw [here, List.take_of_length_le (by omega)]
        · rw [List.drop_of_length_le (by omega)]
      have leading : (if 0 < clampSpanOffset (range.startOffset - offset) span.length then
          slice span.text 0 (clampSpanOffset (range.startOffset - offset) span.length) else []) =
            span.text.take (range.startOffset - offset).toNat := by
        unfold clampSpanOffset slice
        split
        · have here : min (max (range.startOffset - offset) 0) span.length = range.startOffset - offset := by omega
          rw [here]
          rfl
        · have none : (range.startOffset - offset).toNat = 0 := by omega
          simp [none]
      rw [← leading, ← trailing]
      split
      · split
        · simp
        · simp
      · split
        · simp
        · simp

theorem text_foldl_splitSpan {range : DocumentRange} (ordered : range.startOffset ≤ range.endOffset)
    (spans : List DocumentSpan) : ∀ (offset : Int) (split : Split),
      documentText ((placedSpans offset spans).foldl (splitSpan range) split).before =
          documentText split.before ++ (documentText spans).take (range.startOffset - offset).toNat ∧
        documentText ((placedSpans offset spans).foldl (splitSpan range) split).after =
          documentText split.after ++ (documentText spans).drop (range.endOffset - offset).toNat := by
  induction spans with
  | nil => simp [placedSpans]
  | cons span rest ih =>
    intro offset split
    have own := text_splitSpan ordered split span offset
    have later := ih (offset + span.length) (splitSpan range split (span, offset, offset + span.length))
    have length : span.length = span.text.length := rfl
    have starts : (range.startOffset - offset).toNat - span.text.length =
        (range.startOffset - (offset + span.length)).toNat := by omega
    have ends : (range.endOffset - offset).toNat - span.text.length =
        (range.endOffset - (offset + span.length)).toNat := by omega
    rw [placedSpans, List.foldl_cons, later.1, later.2, own.1, own.2, documentText_cons, List.take_append,
      List.drop_append, starts, ends, List.append_assoc, List.append_assoc]
    exact ⟨rfl, rfl⟩

omit [RandomUuid] in
theorem documentText_filter (spans : List DocumentSpan) :
    documentText (spans.filter fun span => 0 < span.length) = documentText spans := by
  induction spans with
  | nil => rfl
  | cons span rest ih =>
    by_cases empty : 0 < span.length
    · rw [List.filter_cons_of_pos (by simpa using empty), documentText_cons, documentText_cons, ih]
    · have none : span.text = [] := by
        rw [DocumentSpan.length_pos, not_not] at empty
        exact empty
      rw [List.filter_cons_of_neg (by simpa using empty), documentText_cons, ih, none, List.nil_append]

theorem text_splitSpansForRange {range : DocumentRange} (ordered : range.startOffset ≤ range.endOffset)
    (spans : List DocumentSpan) (ids : SpanIds) :
    documentText (splitSpansForRange spans range ids).before = (documentText spans).take range.startOffset.toNat ∧
      documentText (splitSpansForRange spans range ids).after = (documentText spans).drop range.endOffset.toNat := by
  have texts := text_foldl_splitSpan ordered spans 0 { before := [], after := [], ids }
  unfold splitSpansForRange
  dsimp only
  rw [documentText_filter, documentText_filter, texts.1, texts.2, Int.sub_zero, Int.sub_zero]
  exact ⟨rfl, rfl⟩

/-- No id is used twice, by what was split, by what is still to be split or by what is set aside. -/
structure Split.Distinct (split : Split) (rest : List DocumentSpan) (reserved : List Text) : Prop where
  distinct : (split.before.map DocumentSpan.id ++ split.after.map DocumentSpan.id ++ rest.map DocumentSpan.id ++
    reserved).Nodup
  used : ∀ id ∈ split.before.map DocumentSpan.id ++ split.after.map DocumentSpan.id ++ rest.map DocumentSpan.id ++
    reserved, id ∈ split.ids.used

omit [RandomUuid] in
theorem Split.Distinct.of_perm {split : Split} {rest : List DocumentSpan} {reserved ids : List Text}
    (perm : (split.before.map DocumentSpan.id ++ split.after.map DocumentSpan.id ++ rest.map DocumentSpan.id ++
      reserved).Perm ids) (distinct : ids.Nodup) (used : ∀ id ∈ ids, id ∈ split.ids.used) :
    split.Distinct rest reserved :=
  ⟨perm.nodup_iff.mpr distinct, fun id member => used id (perm.mem_iff.mp member)⟩

theorem Split.Distinct.splitSpan {split : Split} {range : DocumentRange} {span : DocumentSpan}
    {rest : List DocumentSpan} {reserved : List Text} (distinct : split.Distinct (span :: rest) reserved)
    (start finish : Int) : (splitSpan range split (span, start, finish)).Distinct rest reserved := by
  rcases distinct with ⟨distinct, used⟩
  rcases split with ⟨before, after, ids⟩
  dsimp only at distinct used
  have fresh : (createUniqueSpanId ids).1 ∉ before.map DocumentSpan.id ++ after.map DocumentSpan.id ++
      (span :: rest).map DocumentSpan.id ++ reserved := by
    intro member
    exact createUniqueSpanId_fresh ids (used _ member)
  unfold PinyinComposer.splitSpan
  dsimp only
  split
  · apply Split.Distinct.of_perm ?_ distinct used
    simp [List.perm_iff_count, List.count_cons]
    omega
  · split
    · apply Split.Distinct.of_perm ?_ distinct used
      simp
    · split
      · split
        · apply Split.Distinct.of_perm ?_ (List.nodup_cons.mpr ⟨fresh, distinct⟩)
          · intro id member
            rcases List.mem_cons.mp member with rfl | earlier
            · exact List.mem_cons_self
            · exact List.mem_cons_of_mem _ (used id earlier)
          · simp [List.perm_iff_count, List.count_cons]
            omega
        · apply Split.Distinct.of_perm ?_ distinct used
          simp [List.perm_iff_count, List.count_cons]
          omega
      · split
        · apply Split.Distinct.of_perm ?_ distinct used
          simp
        · have fewer : (before.map DocumentSpan.id ++ after.map DocumentSpan.id ++ rest.map DocumentSpan.id ++
              reserved).Sublist (before.map DocumentSpan.id ++ after.map DocumentSpan.id ++
                (span :: rest).map DocumentSpan.id ++ reserved) := by
            apply List.Sublist.append_right
            apply List.Sublist.append_left
            exact (List.sublist_cons_self _ _).map _
          exact ⟨distinct.sublist fewer, fun id member => used id (fewer.subset member)⟩

theorem distinct_splitSpansForRange {spans : List DocumentSpan} (range : DocumentRange) {ids : SpanIds}
    {reserved : List Text} (distinct : (spans.map DocumentSpan.id ++ reserved).Nodup)
    (used : ∀ id ∈ spans.map DocumentSpan.id ++ reserved, id ∈ ids.used) :
    ((splitSpansForRange spans range ids).before.map DocumentSpan.id ++
      (splitSpansForRange spans range ids).after.map DocumentSpan.id ++ reserved).Nodup := by
  have loop : ∀ (rest : List DocumentSpan) (offset : Int) (split : Split), split.Distinct rest reserved →
      ((placedSpans offset rest).foldl (splitSpan range) split).Distinct [] reserved := by
    intro rest
    induction rest with
    | nil => exact fun _ _ distinct => distinct
    | cons span rest ih => exact fun _ _ distinct => ih _ _ (distinct.splitSpan _ _)
  have ends := (loop spans 0 { before := [], after := [], ids } ⟨distinct, used⟩).distinct
  rw [List.map_nil, List.append_nil] at ends
  refine List.Nodup.sublist (List.Sublist.append_right ?_ _) ends
  exact List.Sublist.append (List.filter_sublist.map _) (List.filter_sublist.map _)

def Cuts (offset : Int) (placed : DocumentSpan × Int × Int) : Prop := placed.2.1 < offset ∧ offset < placed.2.2

/-- What is left of the spans around a range: a whole span next to the range, or a part of one that the range cuts. -/
def LeftOf (spans : List DocumentSpan) (range : DocumentRange) (offset : Int) (span : DocumentSpan) : Prop :=
  (∃ placed ∈ placedSpans offset spans, placed.1 = span ∧
    (placed.2.2 ≤ range.startOffset ∨ range.endOffset ≤ placed.2.1)) ∨
  ∃ placed ∈ placedSpans offset spans, (Cuts range.startOffset placed ∨ Cuts range.endOffset placed) ∧
    ∃ start finish id, span = sliceSpan placed.1 start finish id

omit [RandomUuid] in
theorem LeftOf.cons {spans : List DocumentSpan} {range : DocumentRange} {offset : Int} {span first : DocumentSpan}
    (left : LeftOf spans range (offset + first.length) span) : LeftOf (first :: spans) range offset span := by
  rcases left with ⟨placed, member, facts⟩ | ⟨placed, member, facts⟩
  · exact .inl ⟨placed, List.mem_cons_of_mem _ member, facts⟩
  · exact .inr ⟨placed, List.mem_cons_of_mem _ member, facts⟩

theorem mem_splitSpan {range : DocumentRange} {split : Split} {first span : DocumentSpan} {rest : List DocumentSpan}
    {offset : Int} (member : span ∈ (splitSpan range split (first, offset, offset + first.length)).before ∨
      span ∈ (splitSpan range split (first, offset, offset + first.length)).after) :
    span ∈ split.before ∨ span ∈ split.after ∨ LeftOf (first :: rest) range offset span := by
  have here : (first, offset, offset + first.length) ∈ placedSpans offset (first :: rest) := List.mem_cons_self
  have whole : offset + first.length ≤ range.startOffset ∨ range.endOffset ≤ offset →
      LeftOf (first :: rest) range offset first := fun outside => .inl ⟨_, here, rfl, outside⟩
  unfold splitSpan at member
  dsimp only at member
  split at member
  · rename_i outside
    rcases member with before | after
    · rcases List.mem_append.mp before with before | last
      · exact .inl before
      · rw [List.mem_singleton.mp last]
        exact .inr (.inr (whole (.inl outside)))
    · exact .inr (.inl after)
  · rename_i reaches
    split at member
    · rename_i outside
      rcases member with before | after
      · exact .inl before
      · rcases List.mem_append.mp after with after | last
        · exact .inr (.inl after)
        · rw [List.mem_singleton.mp last]
          exact .inr (.inr (whole (.inr outside)))
    · rename_i starts
      have leading : 0 < clampSpanOffset (range.startOffset - offset) first.length →
          Cuts range.startOffset (first, offset, offset + first.length) := by
        intro positive
        unfold clampSpanOffset at positive
        unfold Cuts
        dsimp only
        omega
      have trailing : clampSpanOffset (range.endOffset - offset) first.length < first.length →
          Cuts range.endOffset (first, offset, offset + first.length) := by
        intro short
        unfold clampSpanOffset at short
        unfold Cuts
        dsimp only
        omega
      have part : ∀ start finish id, Cuts range.startOffset (first, offset, offset + first.length) ∨
          Cuts range.endOffset (first, offset, offset + first.length) →
            LeftOf (first :: rest) range offset (sliceSpan first start finish id) :=
        fun start finish id cut => .inr ⟨_, here, cut, start, finish, id, rfl⟩
      split at member
      · rename_i positive
        have before : ∀ {id}, span ∈ split.before ++ [sliceSpan first 0
            (clampSpanOffset (range.startOffset - offset) first.length) id] →
              span ∈ split.before ∨ span ∈ split.after ∨ LeftOf (first :: rest) range offset span := by
          intro id member
          rcases List.mem_append.mp member with before | last
          · exact .inl before
          · rw [List.mem_singleton.mp last]
            exact .inr (.inr (part _ _ _ (.inl (leading positive))))
        split at member
        · rename_i short
          rcases member with left | right
          · exact before left
          · rcases List.mem_append.mp right with after | last
            · exact .inr (.inl after)
            · rw [List.mem_singleton.mp last]
              exact .inr (.inr (part _ _ _ (.inr (trailing short))))
        · rcases member with left | right
          · exact before left
          · exact .inr (.inl right)
      · split at member
        · rename_i short
          rcases member with left | right
          · exact .inl left
          · rcases List.mem_append.mp right with after | last
            · exact .inr (.inl after)
            · rw [List.mem_singleton.mp last]
              exact .inr (.inr (part _ _ _ (.inr (trailing short))))
        · rcases member with left | right
          · exact .inl left
          · exact .inr (.inl right)

theorem mem_foldl_splitSpan {range : DocumentRange} {span : DocumentSpan} (spans : List DocumentSpan) :
    ∀ (offset : Int) (split : Split),
      span ∈ ((placedSpans offset spans).foldl (splitSpan range) split).before ∨
        span ∈ ((placedSpans offset spans).foldl (splitSpan range) split).after →
      span ∈ split.before ∨ span ∈ split.after ∨ LeftOf spans range offset span := by
  induction spans with
  | nil =>
    intro offset split member
    rcases member with before | after
    · exact .inl before
    · exact .inr (.inl after)
  | cons first rest ih =>
    intro offset split member
    rcases ih _ _ member with before | after | left
    · exact mem_splitSpan (.inl before)
    · exact mem_splitSpan (.inr after)
    · exact .inr (.inr left.cons)

theorem mem_splitSpansForRange {spans : List DocumentSpan} {range : DocumentRange} {ids : SpanIds} {span : DocumentSpan}
    (member : span ∈ (splitSpansForRange spans range ids).before ∨
      span ∈ (splitSpansForRange spans range ids).after) : LeftOf spans range 0 span := by
  have unfiltered : span ∈ ((placedSpans 0 spans).foldl (splitSpan range) ⟨[], [], ids⟩).before ∨
      span ∈ ((placedSpans 0 spans).foldl (splitSpan range) ⟨[], [], ids⟩).after :=
    member.imp List.mem_of_mem_filter List.mem_of_mem_filter
  rcases mem_foldl_splitSpan spans 0 ⟨[], [], ids⟩ unfiltered with none | none | left
  · cases none
  · cases none
  · exact left

omit [RandomUuid] in
theorem textLength_filter (spans : List DocumentSpan) :
    textLength (spans.filter fun span => 0 < span.length) = textLength spans := by
  unfold textLength
  rw [documentText_filter]

theorem foldl_splitSpan_left {range : DocumentRange} (spans : List DocumentSpan) : ∀ (offset : Int) (split : Split),
    offset + textLength spans ≤ range.startOffset → (placedSpans offset spans).foldl (splitSpan range) split =
      { split with before := split.before ++ spans } := by
  induction spans with
  | nil => simp [placedSpans]
  | cons span rest ih =>
    intro offset split left
    have tail := textLength_nonneg rest
    rw [textLength_cons] at left
    have own : splitSpan range split (span, offset, offset + span.length) =
        { split with before := split.before ++ [span] } := if_pos (by omega)
    rw [placedSpans, List.foldl_cons, own, ih _ _ (by omega)]
    simp

theorem foldl_splitSpan_right {range : DocumentRange} (spans : List DocumentSpan) : ∀ (offset : Int) (split : Split),
    range.startOffset < offset → range.endOffset ≤ offset → (placedSpans offset spans).foldl (splitSpan range) split =
      { split with after := split.after ++ spans } := by
  induction spans with
  | nil => simp [placedSpans]
  | cons span rest ih =>
    intro offset split starts ends
    have length := span.length_nonneg
    have own : splitSpan range split (span, offset, offset + span.length) =
        { split with after := split.after ++ [span] } := (if_neg (by omega)).trans (if_pos ends)
    rw [placedSpans, List.foldl_cons, own, ih _ _ (by omega) (by omega)]
    simp

theorem before_prefix_foldl (range : DocumentRange) (placed : List (DocumentSpan × Int × Int)) :
    ∀ split : Split, split.before <+: (placed.foldl (splitSpan range) split).before := by
  induction placed with
  | nil => exact fun _ => List.prefix_refl _
  | cons first rest ih =>
    intro split
    apply List.IsPrefix.trans ?_ (ih _)
    unfold splitSpan
    dsimp only
    repeat' split
    all_goals first | exact List.prefix_refl _ | exact List.prefix_append _ _

theorem kept_before {range : DocumentRange} (ids : SpanIds) {before : List DocumentSpan} {span : DocumentSpan}
    (after : List DocumentSpan) (visible : span.text ≠ []) (left : textLength before + span.length ≤ range.startOffset) :
    ∃ first rest, (splitSpansForRange (before ++ span :: after) range ids).before = first ++ span :: rest ∧
      textLength first = textLength before := by
  have whole : before ++ span :: after = (before ++ [span]) ++ after := by simp
  have length : (0 : Int) + textLength (before ++ [span]) ≤ range.startOffset := by
    rw [textLength_append, textLength_cons, textLength_nil]
    omega
  rcases before_prefix_foldl range (placedSpans (0 + textLength (before ++ [span])) after)
    ⟨before ++ [span], [], ids⟩ with ⟨rest, more⟩
  refine ⟨before.filter fun span => 0 < span.length, rest.filter fun span => 0 < span.length, ?_, textLength_filter before⟩
  unfold splitSpansForRange
  dsimp only
  rw [whole, placedSpans_append, List.foldl_append, foldl_splitSpan_left _ _ _ length, List.nil_append, ← more,
    List.filter_append, List.filter_append, List.filter_cons_of_pos (by simpa using DocumentSpan.length_pos.mpr visible)]
  simp

theorem kept_after {range : DocumentRange} (ids : SpanIds) {before : List DocumentSpan} {span : DocumentSpan}
    (after : List DocumentSpan) (ordered : range.startOffset ≤ range.endOffset) (visible : span.text ≠ [])
    (right : range.endOffset ≤ textLength before) :
    ∃ first rest, (splitSpansForRange (before ++ span :: after) range ids).after = first ++ span :: rest ∧
      textLength rest = textLength after := by
  have positive := DocumentSpan.length_pos.mpr visible
  generalize earlier : (placedSpans 0 before).foldl (splitSpan range) ⟨[], [], ids⟩ = split
  have own : splitSpan range split (span, textLength before, textLength before + span.length) =
      { split with after := split.after ++ [span] } := (if_neg (by omega)).trans (if_pos right)
  refine ⟨split.after.filter fun span => 0 < span.length, after.filter fun span => 0 < span.length, ?_,
    textLength_filter after⟩
  unfold splitSpansForRange
  dsimp only
  rw [placedSpans_append, List.foldl_append, earlier, placedSpans, List.foldl_cons, Int.zero_add, own,
    foldl_splitSpan_right _ _ _ (by omega) (by omega), List.filter_append, List.filter_append,
    List.filter_cons_of_pos (by simpa using positive)]
  simp

end PinyinComposer

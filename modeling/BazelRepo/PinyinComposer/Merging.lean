import BazelRepo.PinyinComposer.Ranges

namespace PinyinComposer

/-- What the loop does with a span: nothing, a longer plain span, or one more span. -/
theorem mergeSpan_cases (merged : List DocumentSpan) (span : DocumentSpan) :
    (span.text = [] ∧ mergeSpan merged span = merged) ∨
      (∃ earlier id previous own text, merged = earlier ++ [.plain id previous] ∧ span = .plain own text ∧ text ≠ [] ∧
        mergeSpan merged span = earlier ++ [.plain id (previous ++ text)]) ∨
      (span.text ≠ [] ∧ (∀ last, merged.getLast? = some last → ¬ (last.isPlain = true ∧ span.isPlain = true)) ∧
        mergeSpan merged span = merged ++ [span]) := by
  unfold mergeSpan
  split
  · rename_i empty
    exact .inl ⟨empty, rfl⟩
  · rename_i visible
    right
    cases found : merged.getLast? with
    | none =>
      refine .inr ⟨visible, ?_, rfl⟩
      intro last impossible
      cases impossible
    | some last =>
      have others : ¬ (last.isPlain = true ∧ span.isPlain = true) → ∀ other, some last = some other →
          ¬ (other.isPlain = true ∧ span.isPlain = true) := by
        intro apart other same
        cases same
        exact apart
      cases last with
      | annotated _ _ _ _ _ => exact .inr ⟨visible, others (fun both => nomatch both.1), rfl⟩
      | plain id previous =>
        cases span with
        | annotated _ _ _ _ _ => exact .inr ⟨visible, others (fun both => nomatch both.2), rfl⟩
        | plain own text =>
          rcases List.getLast?_eq_some_iff.mp found with ⟨earlier, rfl⟩
          refine .inl ⟨earlier, id, previous, own, text, rfl, rfl, visible, ?_⟩
          dsimp only
          rw [List.dropLast_concat]

/-- The span stands in the list from this offset on, whole; a plain one may stand inside a longer one. -/
def Kept (span : DocumentSpan) (offset : Int) (spans : List DocumentSpan) : Prop :=
  ∃ holder ∈ placedSpans 0 spans, holder.2.1 ≤ offset ∧ offset + span.length ≤ holder.2.2 ∧
    holder.1.isPlain = span.isPlain ∧
    slice holder.1.text (offset - holder.2.1) (offset - holder.2.1 + span.length) = span.text ∧
    (holder.2.1 = offset → holder.2.2 = offset + span.length → holder.1 = span) ∧
    (span.isPlain = false → holder.1 = span)

structure Merged (spans merged : List DocumentSpan) : Prop where
  text : documentText merged = documentText spans
  visible : ∀ span ∈ merged, span.text ≠ []
  apart : merged.IsChain fun first second => ¬ (first.isPlain = true ∧ second.isPlain = true)
  ids : (merged.map DocumentSpan.id).Sublist (spans.map DocumentSpan.id)
  annotated : ∀ span ∈ merged, span.isPlain = false → span ∈ spans
  kept : ∀ before span after, spans = before ++ span :: after → span.text ≠ [] → Kept span (textLength before) merged

theorem placedSpans_concat (spans : List DocumentSpan) (span : DocumentSpan) :
    placedSpans 0 (spans ++ [span]) =
      placedSpans 0 spans ++ [(span, textLength spans, textLength spans + span.length)] := by
  rw [placedSpans_append, Int.zero_add]
  rfl

theorem slice_append_of_le {first second : Text} {start finish : Int} (inside : finish ≤ first.length) :
    slice (first ++ second) start finish = slice first start finish := by
  unfold slice
  rw [List.take_append_of_le_length (by omega)]

theorem Kept.mergeSpan {span next : DocumentSpan} {offset : Int} {merged : List DocumentSpan}
    (kept : Kept span offset merged) : Kept span offset (mergeSpan merged next) := by
  rcases mergeSpan_cases merged next with ⟨_, same⟩ | ⟨earlier, id, previous, own, text, rfl, rfl, more, same⟩ |
    ⟨_, _, same⟩
  · rw [same]
    exact kept
  · rw [same]
    rcases kept with ⟨holder, member, starts, ends, kind, part, whole, annotated⟩
    rw [placedSpans_concat] at member
    rcases List.mem_append.mp member with before | last
    · refine ⟨holder, ?_, starts, ends, kind, part, whole, annotated⟩
      rw [placedSpans_concat]
      exact List.mem_append_left _ before
    · rw [List.mem_singleton] at last
      subst last
      have longer : (DocumentSpan.plain id (previous ++ text)).length =
          (DocumentSpan.plain id previous).length + text.length := by
        simp [DocumentSpan.length, DocumentSpan.text]
      have positive := List.length_pos_iff.mpr more
      have own : (DocumentSpan.plain id previous).length = previous.length := rfl
      dsimp only at starts ends kind part whole annotated
      refine ⟨(.plain id (previous ++ text), textLength earlier,
        textLength earlier + (DocumentSpan.plain id (previous ++ text)).length), ?_, starts, ?_, kind, ?_, ?_, ?_⟩
      · rw [placedSpans_concat]
        exact List.mem_append_right _ List.mem_cons_self
      · dsimp only
        omega
      · dsimp only
        show slice (previous ++ text) _ _ = _
        rw [slice_append_of_le (by omega)]
        exact part
      · dsimp only
        omega
      · intro isAnnotated
        rw [isAnnotated] at kind
        cases kind
  · rw [same]
    rcases kept with ⟨holder, member, facts⟩
    refine ⟨holder, ?_, facts⟩
    rw [placedSpans_concat]
    exact List.mem_append_left _ member

theorem kept_mergeSpan {span : DocumentSpan} {merged : List DocumentSpan} (visible : span.text ≠ [])
    (others : ∀ other ∈ merged, other.text ≠ []) : Kept span (textLength merged) (mergeSpan merged span) := by
  rcases mergeSpan_cases merged span with ⟨empty, _⟩ | ⟨earlier, id, previous, own, text, rfl, rfl, more, same⟩ |
    ⟨_, _, same⟩
  · exact absurd empty visible
  · rw [same]
    have filled : previous ≠ [] := others (.plain id previous) (List.mem_append_right _ List.mem_cons_self)
    have positive := List.length_pos_iff.mpr filled
    have own_ : (DocumentSpan.plain own text).length = text.length := rfl
    have last : (DocumentSpan.plain id previous).length = previous.length := rfl
    have longer : (DocumentSpan.plain id (previous ++ text)).length = previous.length + text.length := by
      simp [DocumentSpan.length, DocumentSpan.text]
    refine ⟨(.plain id (previous ++ text), textLength earlier,
        textLength earlier + (DocumentSpan.plain id (previous ++ text)).length), ?_, ?_, ?_, rfl, ?_, ?_, ?_⟩
    · rw [placedSpans_concat]
      exact List.mem_append_right _ List.mem_cons_self
    · rw [textLength_append, textLength_cons, textLength_nil]
      dsimp only
      omega
    · rw [textLength_append, textLength_cons, textLength_nil]
      dsimp only
      omega
    · rw [textLength_append, textLength_cons, textLength_nil, last, own_]
      dsimp only
      show slice (previous ++ text) _ _ = text
      unfold slice
      rw [List.take_of_length_le (by rw [List.length_append]; omega), List.drop_append_of_le_length (by omega),
        List.drop_of_length_le (by omega), List.nil_append]
    · rw [textLength_append, textLength_cons, textLength_nil]
      dsimp only
      omega
    · intro isAnnotated
      cases isAnnotated
  · rw [same]
    refine ⟨(span, textLength merged, textLength merged + span.length), ?_, le_rfl, le_rfl, rfl, ?_, fun _ _ => rfl,
      fun _ => rfl⟩
    · rw [placedSpans_concat]
      exact List.mem_append_right _ List.mem_cons_self
    · dsimp only
      unfold slice
      have whole : span.length = span.text.length := rfl
      rw [List.take_of_length_le (by omega), Int.sub_self]
      rfl

theorem Merged.mergeSpan {spans merged : List DocumentSpan} (sound : Merged spans merged) (span : DocumentSpan) :
    Merged (spans ++ [span]) (mergeSpan merged span) := by
  have kept : ∀ before other after, spans ++ [span] = before ++ other :: after → other.text ≠ [] →
      Kept other (textLength before) (PinyinComposer.mergeSpan merged span) := by
    intro before other after split visible
    rcases List.eq_nil_or_concat' after with rfl | ⟨after, last, rfl⟩
    · rcases List.append_inj' split rfl with ⟨rfl, same⟩
      cases same
      have length : textLength merged = textLength spans := by
        unfold textLength
        rw [sound.text]
      rw [← length]
      exact kept_mergeSpan visible sound.visible
    · rw [← List.cons_append, ← List.append_assoc] at split
      rcases List.append_inj' split rfl with ⟨whole, _⟩
      exact (sound.kept before other after whole visible).mergeSpan
  rcases mergeSpan_cases merged span with ⟨empty, same⟩ | ⟨earlier, id, previous, own, text, rfl, rfl, more, same⟩ |
    ⟨visible, apart, same⟩
  · rw [same] at kept ⊢
    refine ⟨?_, sound.visible, sound.apart, ?_, ?_, kept⟩
    · rw [sound.text, documentText_append, documentText_cons, empty]
      simp
    · rw [List.map_append]
      exact sound.ids.trans (List.sublist_append_left _ _)
    · intro other member isAnnotated
      exact List.mem_append_left _ (sound.annotated other member isAnnotated)
  · rw [same] at kept ⊢
    refine ⟨?_, ?_, ?_, ?_, ?_, kept⟩
    · rw [documentText_append, documentText_append, ← sound.text, documentText_append]
      simp [DocumentSpan.text]
    · intro other member
      rcases List.mem_append.mp member with before | last
      · exact sound.visible other (List.mem_append_left _ before)
      · rw [List.mem_singleton.mp last]
        show previous ++ text ≠ []
        simp [more]
    · have chain := List.isChain_append.mp sound.apart
      refine List.isChain_append.mpr ⟨chain.1, List.isChain_singleton _, ?_⟩
      intro first isFirst second isSecond
      have plain := chain.2.2 first isFirst (.plain id previous) rfl
      cases isSecond
      exact plain
    · have ids := sound.ids
      rw [List.map_append] at ids ⊢
      rw [List.map_append]
      exact ids.trans (List.sublist_append_left _ _)
    · intro other member isAnnotated
      rcases List.mem_append.mp member with before | last
      · exact List.mem_append_left _ (sound.annotated other (List.mem_append_left _ before) isAnnotated)
      · rw [List.mem_singleton.mp last] at isAnnotated
        cases isAnnotated
  · rw [same] at kept ⊢
    refine ⟨?_, ?_, ?_, ?_, ?_, kept⟩
    · rw [documentText_append, documentText_append, sound.text]
    · intro other member
      rcases List.mem_append.mp member with before | last
      · exact sound.visible other before
      · rw [List.mem_singleton.mp last]
        exact visible
    · refine List.isChain_append.mpr ⟨sound.apart, List.isChain_singleton _, ?_⟩
      intro first isFirst second isSecond
      cases isSecond
      exact apart first isFirst
    · rw [List.map_append, List.map_append]
      exact List.Sublist.append_right sound.ids _
    · intro other member isAnnotated
      rcases List.mem_append.mp member with before | last
      · exact List.mem_append_left _ (sound.annotated other before isAnnotated)
      · exact List.mem_append_right _ last

theorem merged_mergeAdjacentPlainSpans (spans : List DocumentSpan) : Merged spans (mergeAdjacentPlainSpans spans) := by
  induction spans using List.reverseRecOn with
  | nil =>
    refine ⟨rfl, ?_, List.isChain_nil, List.Sublist.refl _, ?_, ?_⟩
    · intro span member
      cases member
    · intro span member
      cases member
    · intro before span after split
      simp at split
  | append_singleton spans span ih =>
    unfold mergeAdjacentPlainSpans
    rw [List.foldl_append]
    exact ih.mergeSpan span

end PinyinComposer

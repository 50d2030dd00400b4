import BazelRepo.Library.Text
import BazelRepo.PinyinComposer.Candidates
import BazelRepo.PinyinComposer.Splice

namespace PinyinComposer

@[simp]
theorem trunc_intCast (offset : Int) : trunc (offset : ℚ) = offset := by
  unfold trunc
  rw [Rat.num_intCast, Rat.den_intCast]
  exact Int.tdiv_one offset

theorem normalizeRange_eq {editor : EditorState} {startOffset endOffset : Int} (starts : 0 ≤ startOffset)
    (ordered : startOffset ≤ endOffset) (inside : startOffset ≤ textLength editor.spans) :
    editor.normalizeRange startOffset endOffset = ⟨startOffset, min endOffset (textLength editor.spans)⟩ := by
  have clamped : ∀ offset : Int, 0 ≤ offset →
      clampOffset offset (textLength editor.spans) = min offset (textLength editor.spans) := by
    intro offset low
    show min (max (trunc (offset : ℚ)) 0) _ = _
    rw [trunc_intCast, max_eq_left low]
  have first := clamped startOffset starts
  have second := clamped endOffset (starts.trans ordered)
  rw [min_eq_left inside] at first
  unfold EditorState.normalizeRange
  unfold textLength at first second inside ⊢
  dsimp only
  rw [first, second, min_eq_left (le_min ordered inside), max_eq_right (le_min ordered inside)]

def EditorState.replacedRange (editor : EditorState) (replacement : DocumentTextReplacement) : DocumentRange :=
  expandRangeForAtomicAnnotations editor.spans
    (editor.normalizeRange replacement.startOffset replacement.endOffset)

/-- How much more is replaced of what is pending or before it than the replacement says it deletes. -/
def DocumentRange.surplus (previous replaced : DocumentRange) (replacement : DocumentTextReplacement) : Int :=
  min previous.endOffset replaced.endOffset - replaced.startOffset - (replacement.endOffset - replacement.startOffset)

/-- A replacement that touches what is pending is as long as what it replaces up to the end of the pending range; or the
surplus does not show, since all around is blank or since the document ends there. -/
def EditorState.Follows (editor : EditorState) (replacement : DocumentTextReplacement) : Prop :=
  let replaced := editor.replacedRange replacement
  let text := documentText editor.spans
  ∀ previous, touchedRange editor.pendingRange replacement = some previous →
    previous.surplus replaced replacement = 0 ∨
    trim (slice text (min previous.startOffset replaced.startOffset) replaced.startOffset ++ replacement.text ++
      slice text replaced.endOffset
        (max previous.endOffset replaced.endOffset + max (previous.surplus replaced replacement) 0)) = [] ∨
    (0 < previous.surplus replaced replacement ∧
      max previous.endOffset replaced.endOffset = textLength editor.spans)

section

variable [RandomUuid]

end

end PinyinComposer

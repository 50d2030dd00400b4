import BazelRepo.PinyinComposer.PendingRun

namespace PinyinComposer

def deleteBackwardReplacement (range : DocumentRange) : DocumentTextReplacement :=
  if range.startOffset ≠ range.endOffset then ⟨range.startOffset, range.endOffset, []⟩
  else ⟨max 0 (range.startOffset - 1), range.endOffset, []⟩

def deleteForwardReplacement (spans : List DocumentSpan) (range : DocumentRange) : DocumentTextReplacement :=
  if range.startOffset ≠ range.endOffset then ⟨range.startOffset, range.endOffset, []⟩
  else ⟨range.startOffset, min (textLength spans) (range.endOffset + 1), []⟩

/-- What is done to a document; the deletions are those of the keys, at a selection. -/
inductive Edit where
  | replaceRange (startOffset endOffset : Number) (text : Text)
  | deleteBackward (range : DocumentRange)
  | deleteForward (range : DocumentRange)
  | commitCandidateToRange (startOffset endOffset : Number) (candidate : Candidate)
  | commitCandidate (candidate : Candidate)
  | replaceToken (tokenId : Text) (candidate : Candidate)
  | clear

def EditorState.replaceText [RandomUuid] (editor : EditorState) (replacement : DocumentTextReplacement) : EditorState :=
  (editor.replaceRange replacement.startOffset replacement.endOffset replacement.text).1

def EditorState.apply [RandomUuid] [HanScript] (editor : EditorState) : Edit → EditorState
  | .replaceRange startOffset endOffset text => (editor.replaceRange startOffset endOffset text).1
  | .deleteBackward range => editor.replaceText (deleteBackwardReplacement range)
  | .deleteForward range => editor.replaceText (deleteForwardReplacement editor.spans range)
  | .commitCandidateToRange startOffset endOffset candidate =>
    editor.commitCandidateToRange startOffset endOffset candidate
  | .commitCandidate candidate => editor.commitCandidate candidate
  | .replaceToken tokenId candidate => editor.replaceToken tokenId candidate
  | .clear => editor.clear

def EditorState.applyAll [RandomUuid] [HanScript] (editor : EditorState) (edits : List Edit) : EditorState :=
  edits.foldl EditorState.apply editor

def Edit.candidate : Edit → Option Candidate
  | .commitCandidateToRange _ _ candidate | .commitCandidate candidate | .replaceToken _ candidate => some candidate
  | .replaceRange _ _ _ | .deleteBackward _ | .deleteForward _ | .clear => none

/-- The span is the whole of a candidate, or one Han character of it with the syllables of that character. -/
def DocumentSpan.Stands [HanScript] (candidate : Candidate) : DocumentSpan → Prop
  | .plain _ _ => True
  | .annotated _ source text display _ =>
    (text = candidate.hanzi ∧ source = candidate.sourcePinyin ∧ display = candidate.displayPinyin) ∨
      ∃ index : Nat, (characters candidate.hanzi)[index]? = some text ∧ HanScript.isHanzi text = true ∧
        candidate.sourcePinyinSyllables[index]? = some source ∧
        candidate.displayPinyinSyllables[index]? = some display

def KeepsCharacters (spans : List DocumentSpan) (range : DocumentRange) : Prop :=
  ∀ placed ∈ placedSpans 0 spans, placed.1.isPlain = false → placed.1.isAtomic = false →
    ¬ Cuts range.startOffset placed ∧ ¬ Cuts range.endOffset placed

/-- The offsets of an edit cut no annotated character of the document it is made in. -/
def Edit.Careful (editor : EditorState) : Edit → Prop
  | .replaceRange startOffset endOffset _ | .commitCandidateToRange startOffset endOffset _ =>
    KeepsCharacters editor.spans (editor.normalizeRange startOffset endOffset)
  | .deleteBackward range =>
    let replacement := deleteBackwardReplacement range
    KeepsCharacters editor.spans (editor.normalizeRange replacement.startOffset replacement.endOffset)
  | .deleteForward range =>
    let replacement := deleteForwardReplacement editor.spans range
    KeepsCharacters editor.spans (editor.normalizeRange replacement.startOffset replacement.endOffset)
  | .commitCandidate _ | .replaceToken _ _ | .clear => True

def EditorState.Careful [RandomUuid] [HanScript] (editor : EditorState) : List Edit → Prop
  | [] => True
  | edit :: rest => edit.Careful editor ∧ (editor.apply edit).Careful rest

theorem cuts_of_cuts_expanded {spans : List DocumentSpan} {inner : DocumentRange}
    (ordered : inner.startOffset ≤ inner.endOffset) {placed : DocumentSpan × Int × Int}
    (member : placed ∈ placedSpans 0 spans)
    (cut : Cuts (expandRangeForAtomicAnnotations spans inner).startOffset placed ∨
      Cuts (expandRangeForAtomicAnnotations spans inner).endOffset placed) :
    placed.1.isAtomic = false ∧ (Cuts inner.startOffset placed ∨ Cuts inner.endOffset placed) := by
  have covering := leastCovering spans inner ordered
  have justified := justified_expandRange spans ordered
  generalize expandRangeForAtomicAnnotations spans inner = range at cut covering justified
  have contains := justified.contains
  have between := contains.1.trans (ordered.trans contains.2)
  unfold Cuts at cut ⊢
  have single : placed.1.isAtomic = false := by
    rw [← Bool.not_eq_true]
    intro atomic
    have reached : rangeIntersectsSpan range placed.2.1 placed.2.2 = true := by
      rw [rangeIntersectsSpan_iff]
      omega
    have covered := covering.covers placed member atomic reached
    simp only [DocumentRange.covers, Bool.and_eq_true, decide_eq_true_eq] at covered
    omega
  have apart : ∀ other ∈ placedSpans 0 spans, other.1.isAtomic = true → Apart placed other := by
    intro other listed atomic
    rcases placedSpans_disjoint member listed with rfl | apart
    · rw [single] at atomic
      cases atomic
    · exact apart
  refine ⟨single, ?_⟩
  rcases cut with start | finish
  · rcases justified.start with same | ⟨other, listed, atomic, _, same⟩
    · exact .inl (by omega)
    · have own := (placedSpans_bounds listed).2.1
      rcases apart other listed atomic with before | after
      · omega
      · omega
  · rcases justified.finish with same | ⟨other, listed, atomic, _, same⟩
    · exact .inr (by omega)
    · have own := (placedSpans_bounds listed).2.1
      rcases apart other listed atomic with before | after
      · omega
      · omega

section

variable [RandomUuid]

/-- An edit that keeps characters leaves annotated spans whole: what is annotated was there or is put there. -/
theorem annotated_replaceSpans {editor : EditorState} {inner : DocumentRange}
    (ordered : inner.startOffset ≤ inner.endOffset) (keeps : KeepsCharacters editor.spans inner)
    {made : List DocumentSpan × SpanIds} {span : DocumentSpan} (annotated : span.isPlain = false)
    (member : span ∈ (editor.replaceSpans (expandRangeForAtomicAnnotations editor.spans inner) made).spans) :
    span ∈ editor.spans ∨ span ∈ made.1 := by
  have listed := (merged_mergeAdjacentPlainSpans _).annotated span member annotated
  rw [List.append_assoc, List.mem_append, List.mem_append] at listed
  have old : LeftOf editor.spans (expandRangeForAtomicAnnotations editor.spans inner) 0 span → span ∈ editor.spans := by
    rintro (⟨placed, present, rfl, _⟩ | ⟨placed, present, cut, start, finish, id, rfl⟩)
    · rcases mem_placedSpans.mp present with ⟨before, after, whole, _⟩
      rw [whole]
      exact List.mem_append_right _ List.mem_cons_self
    · rw [isPlain_sliceSpan] at annotated
      rcases cuts_of_cuts_expanded ordered present cut with ⟨single, cuts⟩
      rcases keeps placed present annotated single with ⟨start, finish⟩
      exact absurd cuts (not_or.mpr ⟨start, finish⟩)
  rcases listed with before | own | after
  · exact .inl (old (mem_splitSpansForRange (.inl before)))
  · exact .inr own
  · exact .inl (old (mem_splitSpansForRange (.inr after)))

variable [HanScript]

theorem stands_spansForCandidate {candidate : Candidate} {ids : SpanIds} {span : DocumentSpan}
    (member : span ∈ (spansForCandidate candidate ids).1) : span.Stands candidate := by
  have characterSpan : ∀ (rows : List (Text × Text × Text)) (ids : SpanIds) (span : DocumentSpan),
      span ∈ (characterSpans ids rows).1 → ∃ id, ∃ index : Nat, ∃ row, rows[index]? = some row ∧
        span = .annotated id row.2.1 row.1 row.2.2 .character := by
    intro rows
    induction rows with
    | nil =>
      intro ids span member
      cases member
    | cons row rest ih =>
      intro ids span member
      rcases List.mem_cons.mp member with rfl | later
      · exact ⟨_, 0, row, rfl, rfl⟩
      · rcases ih _ span later with ⟨id, index, other, found, same⟩
        exact ⟨id, index + 1, other, found, same⟩
  unfold spansForCandidate alignedSpansForCandidate at member
  dsimp only at member
  split at member
  · rename_i aligned found
    split at found
    · cases found
    · rename_i counts
      simp only [not_or, not_not] at counts
      cases found
      rcases characterSpan _ _ span member with ⟨id, index, ⟨character, source, display⟩, found, rfl⟩
      rw [List.getElem?_zip_eq_some, List.getElem?_zip_eq_some] at found
      refine .inr ⟨index, found.1, ?_, found.2.1, found.2.2⟩
      exact List.all_eq_true.mp counts.2.1 character (List.mem_of_getElem? found.1)
  · rw [List.mem_singleton.mp member]
    exact .inl ⟨rfl, rfl, rfl⟩

def Annotated (candidates : List Candidate) (editor : EditorState) : Prop :=
  ∀ span ∈ editor.spans, span.isPlain = false → ∃ candidate ∈ candidates, span.Stands candidate

theorem Annotated.commit {candidates : List Candidate} {editor : EditorState} (sound : Annotated candidates editor)
    {candidate : Candidate} (committed : candidate ∈ candidates) {startOffset endOffset : Number}
    (keeps : KeepsCharacters editor.spans (editor.normalizeRange startOffset endOffset)) :
    Annotated candidates (editor.commitCandidateToRange startOffset endOffset candidate) := by
  intro span member annotated
  have ordered := (normalizeRange_bounds editor startOffset endOffset).2.1
  rcases annotated_replaceSpans ordered keeps annotated member with old | new
  · exact sound span old annotated
  · exact ⟨candidate, committed, stands_spansForCandidate new⟩

theorem Annotated.replace {candidates : List Candidate} {editor : EditorState} (sound : Annotated candidates editor)
    {startOffset endOffset : Number} (text : Text)
    (keeps : KeepsCharacters editor.spans (editor.normalizeRange startOffset endOffset)) :
    Annotated candidates (editor.replaceRange startOffset endOffset text).1 := by
  intro span member annotated
  have ordered := (normalizeRange_bounds editor startOffset endOffset).2.1
  rcases annotated_replaceSpans ordered keeps annotated member with old | new
  · exact sound span old annotated
  · rw [isPlain_spansForText new] at annotated
    cases annotated

omit [RandomUuid] [HanScript] in
theorem keepsCharacters_of_ends {spans : List DocumentSpan} {range : DocumentRange}
    (ends : ∀ placed ∈ placedSpans 0 spans, ¬ Cuts range.startOffset placed ∧ ¬ Cuts range.endOffset placed) :
    KeepsCharacters spans range := fun placed member _ _ => ends placed member

omit [RandomUuid] [HanScript] in
theorem keepsCharacters_end (editor : EditorState) :
    KeepsCharacters editor.spans (editor.normalizeRange (textLength editor.spans) (textLength editor.spans)) := by
  rw [normalizeRange_eq (textLength_nonneg _) le_rfl le_rfl, min_self]
  apply keepsCharacters_of_ends
  intro placed member
  have bounds := placedSpans_bounds member
  unfold Cuts
  dsimp only
  omega

omit [RandomUuid] [HanScript] in
theorem keepsCharacters_span {editor : EditorState} {range : DocumentRange} {tokenId : Text}
    (found : findSpanRange editor.spans tokenId = some range) :
    KeepsCharacters editor.spans (editor.normalizeRange range.startOffset range.endOffset) := by
  unfold findSpanRange at found
  rw [Option.map_eq_some_iff] at found
  rcases found with ⟨own, listed, rfl⟩
  have present := List.mem_of_find?_eq_some listed
  have bounds := placedSpans_bounds present
  rw [normalizeRange_eq bounds.1 bounds.2.1 (by omega), min_eq_left (by omega)]
  apply keepsCharacters_of_ends
  intro placed member
  unfold Cuts
  dsimp only
  rcases placedSpans_disjoint member present with rfl | before | after
  · omega
  · omega
  · omega

theorem Annotated.apply {candidates : List Candidate} {editor : EditorState} (sound : Annotated candidates editor)
    {edit : Edit} (committed : ∀ candidate, edit.candidate = some candidate → candidate ∈ candidates)
    (careful : edit.Careful editor) : Annotated candidates (editor.apply edit) := by
  cases edit with
  | replaceRange startOffset endOffset text => exact sound.replace text careful
  | deleteBackward range => exact sound.replace _ careful
  | deleteForward range => exact sound.replace _ careful
  | commitCandidateToRange startOffset endOffset candidate => exact sound.commit (committed candidate rfl) careful
  | commitCandidate candidate => exact sound.commit (committed candidate rfl) (keepsCharacters_end editor)
  | replaceToken tokenId candidate =>
    unfold EditorState.apply EditorState.replaceToken
    dsimp only
    split
    · exact sound
    · rename_i range found
      exact sound.commit (committed candidate rfl) (keepsCharacters_span found)
  | clear =>
    intro span member
    cases member

theorem Annotated.applyAll {candidates : List Candidate} (edits : List Edit) : ∀ {editor : EditorState},
    Annotated candidates editor → (∀ candidate ∈ edits.filterMap Edit.candidate, candidate ∈ candidates) →
      editor.Careful edits → Annotated candidates (editor.applyAll edits) := by
  induction edits with
  | nil => exact fun sound _ _ => sound
  | cons edit rest ih =>
    intro editor sound committed careful
    apply ih ?_ ?_ careful.2
    · apply sound.apply ?_ careful.1
      intro candidate own
      exact committed candidate (List.mem_filterMap.mpr ⟨edit, List.mem_cons_self, own⟩)
    · intro candidate later
      rcases List.mem_filterMap.mp later with ⟨other, member, own⟩
      exact committed candidate (List.mem_filterMap.mpr ⟨other, List.mem_cons_of_mem _ member, own⟩)

/-- In a document made from the empty one by edits that cut no annotated character, every annotated span is the whole of
a committed candidate or one character of it with its syllables. -/
theorem annotations_stay_whole (edits : List Edit) (careful : EditorState.Careful {} edits) :
    ∀ span ∈ (EditorState.applyAll {} edits).spans, span.isPlain = false →
      ∃ candidate ∈ edits.filterMap Edit.candidate, span.Stands candidate := by
  apply Annotated.applyAll edits ?_ (fun _ member => member) careful
  intro span member
  cases member

end

def rareCharacter : Candidate :=
  { id := typed "candidate-ji"
    sourcePinyin := typed "ji"
    sourcePinyinSyllables := [typed "ji"]
    hanzi := [0xD842, 0xDFB7]
    displayPinyin := typed "Ji"
    displayPinyinSyllables := [typed "Ji"] }

theorem annotations_stay_whole_commit :
    let edits : List Edit := [.commitCandidate beijing, .commitCandidate rareCharacter]
    (@EditorState.applyAll lengthening hanzi {} edits).spans.length = 3 ∧
      ∀ span ∈ (@EditorState.applyAll lengthening hanzi {} edits).spans, span.isPlain = false →
        ∃ candidate ∈ edits.filterMap Edit.candidate, @DocumentSpan.Stands hanzi candidate span :=
  ⟨by decide +kernel, @annotations_stay_whole lengthening hanzi [.commitCandidate beijing, .commitCandidate rareCharacter]
    ⟨trivial, trivial, trivial⟩⟩

/-- Deleting backward behind the character takes one of its two units, and the other keeps the annotation. -/
theorem deletion_splits_a_rare_character :
    let edits : List Edit := [.commitCandidate rareCharacter, .deleteBackward ⟨2, 2⟩]
    let rare : HanScript := ⟨fun character => character == [0xD842, 0xDFB7]⟩
    ∃ span ∈ (@EditorState.applyAll lengthening rare {} edits).spans, span.isPlain = false ∧
      span.text = [0xD842] ∧ ∀ candidate ∈ edits.filterMap Edit.candidate,
        span.text ≠ candidate.hanzi ∧ span.text ∉ characters candidate.hanzi := by
  decide +kernel

end PinyinComposer

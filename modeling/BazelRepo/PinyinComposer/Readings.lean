import BazelRepo.PinyinComposer.Converter

namespace PinyinComposer.Wasm

open Library

/-- A text that is read from one of the splits, with the syllable that each of its characters comes from: as the
decoder reads the split, or around a word that the decoder has in no text. -/
inductive Reading {σ : Type} [One σ] [Mul σ] (libraries : Libraries σ) (words : List MistakableWord)
    (variants : List (List String)) (limit : Nat) : DecodedCandidate σ → List (Char × String) → Prop where
  | decoded {variantOrder : Nat} {syllables : List String} {path : List Char} {score : σ}
      (variant : variants[variantOrder]? = some syllables) (found : (path, score) ∈ libraries.viterbi syllables limit) :
      Reading libraries words variants limit { hanzi := String.ofList path, score, variantOrder } (path.zip syllables)
  | mistakable {variantOrder : Nat} {entry : MistakableWord} {leading trailing : List String} {before after : String × σ}
      (listed : entry ∈ words)
      (missing : ∀ syllables ∈ variants, ∀ found ∈ libraries.viterbi syllables limit,
        ¬ entry.hanzi.toList <:+: found.1)
      (variant : variants[variantOrder]? = some (leading ++ entry.syllables ++ trailing))
      (leads : decodeBestHanzi libraries leading = some before)
      (trails : decodeBestHanzi libraries trailing = some after) :
      Reading libraries words variants limit (splice entry variantOrder before after)
        (before.1.toList.zip leading ++ entry.hanzi.toList.zip entry.syllables ++ after.1.toList.zip trailing)

section

variable {σ : Type} {libraries : Libraries σ} {limit : Nat}

theorem mem_decodeSyllableCandidates {syllables : List String} {variantOrder : Nat} {decoded : DecodedCandidate σ} :
    decoded ∈ decodeSyllableCandidates libraries syllables limit variantOrder ↔
      ∃ path score, (path, score) ∈ libraries.viterbi syllables limit ∧
        decoded = { hanzi := String.ofList path, score, variantOrder } := by
  unfold decodeSyllableCandidates
  rw [List.mem_map]
  constructor
  · rintro ⟨⟨path, score⟩, found, rfl⟩
    exact ⟨path, score, found, rfl⟩
  · rintro ⟨path, score, found, rfl⟩
    exact ⟨(path, score), found, rfl⟩

theorem mem_windows {size index : Nat} {syllables window : List String} :
    (index, window) ∈ windows size syllables ↔
      ∃ leading trailing, syllables = leading ++ window ++ trailing ∧ index = leading.length ∧ window.length = size := by
  unfold windows
  rw [List.mem_map]
  constructor
  · rintro ⟨start, inside, same⟩
    rw [Prod.mk.injEq] at same
    rcases same with ⟨rfl, rfl⟩
    rw [List.mem_range] at inside
    refine ⟨syllables.take start, (syllables.drop start).drop size, ?_, ?_, ?_⟩
    · rw [List.append_assoc, List.take_append_drop, List.take_append_drop]
    · rw [List.length_take]
      omega
    · rw [List.length_take, List.length_drop]
      omega
  · rintro ⟨leading, trailing, rfl, rfl, rfl⟩
    refine ⟨leading.length, ?_, ?_⟩
    · rw [List.mem_range]
      simp only [List.length_append]
      omega
    · rw [List.append_assoc, List.drop_left, List.take_left]

theorem candidatesContain_iff {variants : List (List String)} {entry : MistakableWord} :
    candidatesContainMistakableWord (variants.zipIdx.flatMap fun variant =>
        decodeSyllableCandidates libraries variant.1 limit variant.2) entry = false ↔
      ∀ syllables ∈ variants, ∀ found ∈ libraries.viterbi syllables limit, ¬ entry.hanzi.toList <:+: found.1 := by
  unfold candidatesContainMistakableWord
  rw [List.any_eq_false]
  constructor
  · intro none syllables member found listed
    rcases List.getElem?_of_mem member with ⟨k, place⟩
    have decoded : (⟨String.ofList found.1, found.2, k⟩ : DecodedCandidate σ) ∈
        variants.zipIdx.flatMap fun variant => decodeSyllableCandidates libraries variant.1 limit variant.2 := by
      rw [List.mem_flatMap]
      exact ⟨(syllables, k), List.mk_mem_zipIdx_iff_getElem?.mpr place,
        mem_decodeSyllableCandidates.mpr ⟨found.1, found.2, listed, rfl⟩⟩
    have absent := none _ decoded
    rw [String.toList_ofList, decide_eq_true_eq] at absent
    exact absent
  · intro none candidate member
    rcases List.mem_flatMap.mp member with ⟨⟨syllables, k⟩, place, decoded⟩
    rcases mem_decodeSyllableCandidates.mp decoded with ⟨path, score, listed, rfl⟩
    rw [String.toList_ofList, decide_eq_true_eq]
    have variant := List.mk_mem_zipIdx_iff_getElem?.mp place
    exact none syllables (List.mem_of_getElem? variant) _ listed

variable [One σ]

theorem length_decodeBestHanzi {syllables : List String} {best : String × σ}
    (found : decodeBestHanzi libraries syllables = some best) : best.1.toList.length = syllables.length := by
  unfold decodeBestHanzi at found
  split at found
  · rename_i empty
    cases found
    rw [empty]
    rfl
  · rcases Option.map_eq_some_iff.mp found with ⟨decoded, first, rfl⟩
    rcases mem_decodeSyllableCandidates.mp (List.mem_of_head? first) with ⟨path, score, listed, rfl⟩
    rw [String.toList_ofList]
    exact libraries.path_length syllables 1 _ listed

variable [Mul σ]

theorem mem_mistakableWordCandidates {entry : MistakableWord} {syllables : List String} {variantOrder : Nat}
    {decoded : DecodedCandidate σ} :
    decoded ∈ mistakableWordCandidates libraries entry syllables variantOrder ↔
      ∃ leading trailing before after, syllables = leading ++ entry.syllables ++ trailing ∧
        decodeBestHanzi libraries leading = some before ∧ decodeBestHanzi libraries trailing = some after ∧
        decoded = splice entry variantOrder before after := by
  unfold mistakableWordCandidates
  rw [List.mem_filterMap]
  constructor
  · rintro ⟨⟨index, window⟩, kept, spliced⟩
    rcases List.mem_filter.mp kept with ⟨listed, equal⟩
    have same : window = entry.syllables := of_decide_eq_true equal
    rcases mem_windows.mp listed with ⟨leading, trailing, rfl, rfl, -⟩
    simp only [Option.bind_eq_bind, Option.bind_eq_some_iff] at spliced
    rcases spliced with ⟨before, leads, after, trails, made⟩
    rw [List.append_assoc, List.take_left] at leads
    rw [same, ← List.length_append, List.drop_left] at trails
    cases made
    exact ⟨leading, trailing, before, after, by rw [same], leads, trails, rfl⟩
  · rintro ⟨leading, trailing, before, after, rfl, leads, trails, rfl⟩
    refine ⟨(leading.length, entry.syllables), ?_, ?_⟩
    · rw [List.mem_filter]
      exact ⟨mem_windows.mpr ⟨leading, trailing, rfl, rfl, rfl⟩, decide_eq_true rfl⟩
    · have first : (leading ++ entry.syllables ++ trailing).take leading.length = leading := by
        rw [List.append_assoc, List.take_left]
      have last : (leading ++ entry.syllables ++ trailing).drop (leading.length + entry.syllables.length) =
          trailing := by
        rw [← List.length_append, List.drop_left]
      simp only [first, last, leads, trails]
      rfl

theorem mem_exhaustiveSplitCandidates {normalized : String} {decoded : DecodedCandidate σ} :
    decoded ∈ exhaustiveSplitCandidates libraries normalized limit ↔
      ∃ pairs, Reading libraries mistakableWords (splitVariants libraries normalized) limit decoded pairs := by
  unfold exhaustiveSplitCandidates
  dsimp only
  rw [List.mem_append, List.mem_flatMap, List.mem_flatMap]
  constructor
  · rintro (⟨⟨syllables, k⟩, place, found⟩ | ⟨entry, kept, found⟩)
    · rcases mem_decodeSyllableCandidates.mp found with ⟨path, score, listed, rfl⟩
      exact ⟨_, .decoded (List.mk_mem_zipIdx_iff_getElem?.mp place) listed⟩
    · rcases List.mem_filter.mp kept with ⟨listed, absent⟩
      rw [Bool.not_eq_true'] at absent
      rcases List.mem_flatMap.mp found with ⟨⟨syllables, k⟩, place, spliced⟩
      rcases mem_mistakableWordCandidates.mp spliced with ⟨leading, trailing, before, after, rfl, leads, trails, rfl⟩
      exact ⟨_, .mistakable listed (candidatesContain_iff.mp absent) (List.mk_mem_zipIdx_iff_getElem?.mp place)
        leads trails⟩
  · rintro ⟨pairs, reading⟩
    cases reading with
    | @decoded k syllables path score variant found =>
      left
      exact ⟨(syllables, k), List.mk_mem_zipIdx_iff_getElem?.mpr variant,
        mem_decodeSyllableCandidates.mpr ⟨path, score, found, rfl⟩⟩
    | @mistakable k entry leading trailing before after listed missing variant leads trails =>
      right
      refine ⟨entry, ?_, ?_⟩
      · rw [List.mem_filter, Bool.not_eq_true']
        exact ⟨listed, candidatesContain_iff.mpr missing⟩
      · rw [List.mem_flatMap]
        exact ⟨(_, k), List.mk_mem_zipIdx_iff_getElem?.mpr variant,
          mem_mistakableWordCandidates.mpr ⟨leading, trailing, before, after, rfl, leads, trails, rfl⟩⟩

/-- The words and splits that a conversion reads: the first split alone if the decoder has a text for it. -/
def readSplits (libraries : Libraries σ) (normalized : String) (syllables : List String) (limit : Nat) :
    List MistakableWord × List (List String) :=
  if libraries.viterbi syllables limit = [] then (mistakableWords, splitVariants libraries normalized)
  else ([], [syllables])

theorem mem_decodedCandidates {normalized : String} {syllables : List String} {decoded : DecodedCandidate σ} :
    decoded ∈ decodedCandidates libraries normalized syllables limit ↔
      ∃ pairs, Reading libraries (readSplits libraries normalized syllables limit).1
        (readSplits libraries normalized syllables limit).2 limit decoded pairs := by
  unfold decodedCandidates readSplits
  dsimp only
  have fast : decodeSyllableCandidates libraries syllables limit 0 = [] ↔ libraries.viterbi syllables limit = [] :=
    List.map_eq_nil_iff
  by_cases empty : libraries.viterbi syllables limit = []
  · rw [if_pos (fast.mpr empty), if_pos empty]
    exact mem_exhaustiveSplitCandidates
  · rw [if_neg fun none => empty (fast.mp none), if_neg empty, mem_decodeSyllableCandidates]
    constructor
    · rintro ⟨path, score, found, rfl⟩
      exact ⟨_, .decoded rfl found⟩
    · rintro ⟨pairs, reading⟩
      cases reading with
      | @decoded k split path score variant found =>
        cases k with
        | zero =>
          cases variant
          exact ⟨path, score, found, rfl⟩
        | succ k => cases variant
      | mistakable listed => cases listed

theorem length_mistakableWord : ∀ entry ∈ mistakableWords, entry.hanzi.toList.length = entry.syllables.length := by
  intro entry listed
  rw [List.mem_singleton.mp listed]
  decide

variable {words : List MistakableWord} {variants : List (List String)} {decoded : DecodedCandidate σ}
  {pairs : List (Char × String)}

theorem Reading.pairs_eq (reading : Reading libraries words variants limit decoded pairs)
    (words_length : ∀ entry ∈ words, entry.hanzi.toList.length = entry.syllables.length) :
    ∃ syllables, variants[decoded.variantOrder]? = some syllables ∧
      decoded.hanzi.toList.length = syllables.length ∧ pairs = decoded.hanzi.toList.zip syllables := by
  cases reading with
  | @decoded variantOrder syllables path score variant found =>
    refine ⟨syllables, variant, ?_, ?_⟩
    · rw [String.toList_ofList]
      exact libraries.path_length syllables limit _ found
    · rw [String.toList_ofList]
  | @mistakable variantOrder entry leading trailing before after listed missing variant leads trails =>
    have first := length_decodeBestHanzi leads
    have word := words_length entry listed
    have last := length_decodeBestHanzi trails
    refine ⟨leading ++ entry.syllables ++ trailing, variant, ?_, ?_⟩
    · simp only [splice, String.toList_append, List.length_append]
      omega
    · have inner : (before.1.toList ++ entry.hanzi.toList).length = (leading ++ entry.syllables).length := by
        rw [List.length_append, List.length_append, first, word]
      simp only [splice, String.toList_append]
      rw [List.zip_append inner, List.zip_append first]

end

end PinyinComposer.Wasm

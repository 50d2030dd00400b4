import BazelRepo.Library.Listing
import BazelRepo.PinyinComposer.Editor
import BazelRepo.PinyinComposer.Readings
import Mathlib.Data.Prod.Lex

namespace PinyinComposer.Wasm

open Library

section

variable {σ : Type} [LinearOrder σ]

/-- The three keys of a candidate: the highest score, the first variant, the first text. -/
def DecodedCandidate.rank (decoded : DecodedCandidate σ) : σᵒᵈ ×ₗ ℕ ×ₗ String :=
  toLex (OrderDual.toDual decoded.score, toLex (decoded.variantOrder, decoded.hanzi))

omit [LinearOrder σ] in
theorem rank_injective : Function.Injective (DecodedCandidate.rank (σ := σ)) := by
  intro left right same
  have keys := Prod.mk.inj (toLex_inj.mp same)
  have others := Prod.mk.inj (toLex_inj.mp keys.2)
  cases left
  cases right
  rw [DecodedCandidate.mk.injEq]
  exact ⟨others.2, OrderDual.toDual_inj.mp keys.1, others.1⟩

theorem rank_lt_iff {left right : DecodedCandidate σ} : left.rank < right.rank ↔ right.score < left.score ∨
    (left.score = right.score ∧ (left.variantOrder < right.variantOrder ∨
      (left.variantOrder = right.variantOrder ∧ left.hanzi < right.hanzi))) := by
  unfold DecodedCandidate.rank
  rw [Prod.Lex.toLex_lt_toLex, Prod.Lex.toLex_lt_toLex]
  rfl

theorem compareCandidates_eq_lt {left right : DecodedCandidate σ} :
    compareCandidates left right = .lt ↔ left.rank < right.rank := by
  unfold compareCandidates
  rw [Ordering.then_eq_lt, Ordering.then_eq_lt, rank_lt_iff, compare_lt_iff_lt, compare_lt_iff_lt, compare_lt_iff_lt,
    compare_eq_iff_eq, compare_eq_iff_eq]
  simp only [eq_comm]

theorem isLE_compareCandidates {left right : DecodedCandidate σ} :
    (compareCandidates left right).isLE = true ↔ left.rank ≤ right.rank := by
  have flipped : compareCandidates left right = .gt ↔ right.rank < left.rank := by
    unfold compareCandidates
    rw [Ordering.then_eq_gt, Ordering.then_eq_gt, rank_lt_iff, compare_gt_iff_gt, compare_gt_iff_gt, compare_gt_iff_gt,
      compare_eq_iff_eq, compare_eq_iff_eq]
    simp only [eq_comm]
  rw [← not_lt, ← flipped]
  cases compareCandidates left right <;> simp

theorem enterCandidate_eq (entered : List (DecodedCandidate σ)) (candidate : DecodedCandidate σ) :
    enterCandidate entered candidate = insertBest DecodedCandidate.hanzi DecodedCandidate.rank entered candidate := by
  induction entered with
  | nil => rfl
  | cons current rest ih =>
    unfold enterCandidate insertBest isBetterCandidate
    rw [ih]
    simp only [Ordering.isLT_iff_eq_lt, compareCandidates_eq_lt]

theorem dedupeAndRankCandidates_eq (order : IterationOrder (DecodedCandidate σ)) (candidates : List (DecodedCandidate σ))
    (limit : Nat) : dedupeAndRankCandidates order candidates limit =
      ranked DecodedCandidate.hanzi DecodedCandidate.rank limit candidates := by
  have entered : candidates.foldl enterCandidate [] =
      bestOfEach DecodedCandidate.hanzi DecodedCandidate.rank candidates := by
    unfold bestOfEach
    congr
    funext best candidate
    exact enterCandidate_eq best candidate
  have distinct : ((bestOfEach DecodedCandidate.hanzi DecodedCandidate.rank candidates).map
      DecodedCandidate.rank).Nodup :=
    ((bestOf_bestOfEach _ _ candidates).distinct.of_map _).map rank_injective
  unfold dedupeAndRankCandidates ranked
  rw [entered, insertionSort_eq_sortByKey fun left right => isLE_compareCandidates,
    ← sortByKey_congr (order.perm _).symm distinct]

end

def codeUnits (c : Char) : Text :=
  if c.toNat < 0x10000 then [UInt16.ofNat c.toNat]
  else [UInt16.ofNat (0xD800 + (c.toNat - 0x10000) / 0x400), UInt16.ofNat (0xDC00 + (c.toNat - 0x10000) % 0x400)]

def encode (text : String) : Text := text.toList.flatMap codeUnits

theorem characters_codeUnits (c : Char) (rest : Text) :
    characters (codeUnits c ++ rest) = codeUnits c :: characters rest := by
  unfold codeUnits
  have valid := c.valid
  have scalar : c.toNat < 0xD800 ∨ 0xDFFF < c.toNat ∧ c.toNat < 0x110000 := by
    rcases valid with below | above
    · exact .inl below
    · exact .inr above
  by_cases small : c.toNat < 0x10000
  · rw [if_pos small]
    cases rest with
    | nil => rfl
    | cons low rest =>
      change characters (UInt16.ofNat c.toNat :: low :: rest) = _
      rw [characters, if_neg]
      simp only [Bool.and_eq_true, decide_eq_true_eq, UInt16.le_iff_toNat_le, UInt16.toNat_ofNat']
      have same : c.toNat % 2 ^ 16 = c.toNat := Nat.mod_eq_of_lt small
      rw [same]
      intro surrogates
      have lower : 0xD800 ≤ c.toNat := surrogates.1.1.1
      have upper : c.toNat ≤ 0xDBFF := surrogates.1.1.2
      omega
  · rw [if_neg small]
    change characters (UInt16.ofNat _ :: UInt16.ofNat _ :: rest) = _
    rw [characters, if_pos]
    simp only [Bool.and_eq_true, decide_eq_true_eq, UInt16.le_iff_toNat_le, UInt16.toNat_ofNat']
    have high : 0xD800 + (c.toNat - 0x10000) / 0x400 ≤ 0xDBFF := by omega
    have low : 0xDC00 + (c.toNat - 0x10000) % 0x400 ≤ 0xDFFF := by omega
    have highSame : (0xD800 + (c.toNat - 0x10000) / 0x400) % 2 ^ 16 = 0xD800 + (c.toNat - 0x10000) / 0x400 :=
      Nat.mod_eq_of_lt (by omega)
    have lowSame : (0xDC00 + (c.toNat - 0x10000) % 0x400) % 2 ^ 16 = 0xDC00 + (c.toNat - 0x10000) % 0x400 :=
      Nat.mod_eq_of_lt (by omega)
    rw [highSame, lowSame]
    refine ⟨⟨⟨?_, high⟩, ?_⟩, low⟩
    · exact Nat.le_add_right _ _
    · exact Nat.le_add_right _ _

theorem characters_encode (text : String) : characters (encode text) = text.toList.map codeUnits := by
  unfold encode
  induction text.toList with
  | nil => rfl
  | cons c rest ih => rw [List.flatMap_cons, characters_codeUnits, ih, List.map_cons]

def sourcePair : DocumentSpan → Text × Text
  | .annotated _ source text _ _ => (text, source)
  | .plain _ text => (text, [])

theorem sourcePair_characterSpans [RandomUuid] (pieces : List (Text × Text × Text)) :
    ∀ ids : SpanIds, (characterSpans ids pieces).1.map sourcePair = pieces.map fun piece => (piece.1, piece.2.1) := by
  induction pieces with
  | nil => exact fun ids => rfl
  | cons piece rest ih =>
    intro ids
    rw [List.map_cons, ← ih (createUniqueSpanId ids).2]
    rfl

theorem sourcePair_aligned [HanScript] [RandomUuid] {candidate : PinyinComposer.Candidate} {ids : SpanIds}
    {made : List DocumentSpan × SpanIds} (aligned : alignedSpansForCandidate candidate ids = some made) :
    made.1.map sourcePair = (characters candidate.hanzi).zip candidate.sourcePinyinSyllables := by
  unfold alignedSpansForCandidate at aligned
  dsimp only at aligned
  split at aligned
  · cases aligned
  · rename_i counts
    simp only [not_or, not_not] at counts
    rcases counts with ⟨-, -, sources, displays, -⟩
    cases aligned
    rw [sourcePair_characterSpans]
    have shown : (candidate.sourcePinyinSyllables.zip candidate.displayPinyinSyllables).map Prod.fst =
        candidate.sourcePinyinSyllables := List.map_fst_zip (by omega)
    have zipped : (characters candidate.hanzi).zip candidate.sourcePinyinSyllables =
        ((characters candidate.hanzi).zip
          (candidate.sourcePinyinSyllables.zip candidate.displayPinyinSyllables)).map (Prod.map id Prod.fst) := by
      rw [← List.zip_map_right, shown]
    rw [zipped]
    rfl

section

variable {σ : Type}

def Candidate.page (candidate : Candidate σ) : PinyinComposer.Candidate where
  id := encode candidate.id
  sourcePinyin := encode candidate.sourcePinyin
  sourcePinyinSyllables := candidate.sourcePinyinSyllables.map encode
  hanzi := encode candidate.hanzi
  displayPinyin := encode candidate.displayPinyin
  displayPinyinSyllables := candidate.displayPinyinSyllables.map encode

theorem candidateOf_eq_ok {libraries : Libraries σ} {normalized : String} {syllables : List String} {decoded : DecodedCandidate σ × Nat}
    {candidate : Candidate σ} (made : candidateOf libraries normalized syllables decoded = .ok candidate) :
    candidate.hanzi = decoded.1.hanzi ∧ candidate.score = decoded.1.score ∧
      candidate.sourcePinyinSyllables = syllables := by
  rcases bind_eq_ok.mp made with ⟨annotated, -, rest⟩
  cases rest
  exact ⟨rfl, rfl, rfl⟩

variable [One σ] [Mul σ] [Lowercase] (libraries : Libraries σ) (sourcePinyin : String) (limit : Nat)

def sourceSyllables : List String := splitWhitespace (libraries.pinyinSplitByTrieTokenizer (normalizedPinyin sourcePinyin))

def cappedLimit : Nat := min limit maxCandidateLimit

def conversionReads : List MistakableWord × List (List String) :=
  readSplits libraries (normalizedPinyin sourcePinyin) (sourceSyllables libraries sourcePinyin) (cappedLimit limit)

/-- What the conversion of an input decodes, with the syllables of the characters. -/
def Occurs (decoded : DecodedCandidate σ) (pairs : List (Char × String)) : Prop :=
  Reading libraries (conversionReads libraries sourcePinyin limit).1 (conversionReads libraries sourcePinyin limit).2
    (cappedLimit limit) decoded pairs

variable [LinearOrder σ]

/-- Candidates in the order of the three keys, one for each text, with what is best for the text. -/
structure RankedBest (candidates : List (Candidate σ)) (ranking : List (DecodedCandidate σ)) : Prop where
  carried : candidates.map (fun candidate => (candidate.hanzi, candidate.score)) =
    ranking.map fun decoded => (decoded.hanzi, decoded.score)
  distinct : (candidates.map Candidate.hanzi).Nodup
  bounded : candidates.length ≤ min limit 20
  sorted : ranking.Pairwise fun left right => right.score < left.score ∨ (left.score = right.score ∧
    (left.variantOrder < right.variantOrder ∨ (left.variantOrder = right.variantOrder ∧ left.hanzi < right.hanzi)))
  best : ∀ decoded ∈ ranking, (∃ pairs, Occurs libraries sourcePinyin limit decoded pairs) ∧
    ∀ other pairs, Occurs libraries sourcePinyin limit other pairs → other.hanzi = decoded.hanzi →
      other.score < decoded.score ∨ (other.score = decoded.score ∧ decoded.variantOrder ≤ other.variantOrder)

/-- The syllables of each candidate are the split it was decoded from, and its annotation pairs every character with the
syllable it comes from. -/
def Aligned [HanScript] [RandomUuid] (candidates : List (Candidate σ)) (ranking : List (DecodedCandidate σ)) : Prop :=
  ∀ (i : Nat) (candidate : Candidate σ) (decoded : DecodedCandidate σ), candidates[i]? = some candidate →
    ranking[i]? = some decoded →
      (conversionReads libraries sourcePinyin limit).2[decoded.variantOrder]? = some candidate.sourcePinyinSyllables ∧
        ∀ ids made pairs, alignedSpansForCandidate candidate.page ids = some made →
          Occurs libraries sourcePinyin limit decoded pairs →
            made.1.map sourcePair = pairs.map fun pair => (codeUnits pair.1, encode pair.2)

/-- The decoder has a text for the first split, or what is read from another split comes after what is better. -/
def SplitStands : Prop :=
  libraries.viterbi (sourceSyllables libraries sourcePinyin) (cappedLimit limit) ≠ [] ∨
    ∀ decoded pairs, Reading libraries mistakableWords (splitVariants libraries (normalizedPinyin sourcePinyin))
        (cappedLimit limit) decoded pairs →
      (splitVariants libraries (normalizedPinyin sourcePinyin))[decoded.variantOrder]? ≠
          some (sourceSyllables libraries sourcePinyin) →
        Outranked DecodedCandidate.hanzi DecodedCandidate.rank
          (fun other => ∃ pairs, Reading libraries mistakableWords
            (splitVariants libraries (normalizedPinyin sourcePinyin)) (cappedLimit limit) other pairs)
          (cappedLimit limit) decoded

variable {libraries sourcePinyin limit}

def conversionRanking (libraries : Libraries σ) (order : IterationOrder (DecodedCandidate σ)) (sourcePinyin : String)
    (limit : Nat) : List (DecodedCandidate σ) :=
  dedupeAndRankCandidates order (decodedCandidates libraries (normalizedPinyin sourcePinyin)
    (sourceSyllables libraries sourcePinyin) (cappedLimit limit)) (cappedLimit limit)

theorem convertPinyin_eq_ok {order : IterationOrder (DecodedCandidate σ)} {result : ConversionResult σ}
    (converted : convertPinyin libraries order sourcePinyin limit = .ok result) :
    (conversionRanking libraries order sourcePinyin limit).zipIdx.mapM
      (candidateOf libraries (normalizedPinyin sourcePinyin) (sourceSyllables libraries sourcePinyin)) =
        .ok result.candidates := by
  rcases bind_eq_ok.mp converted with ⟨normalized, read, rest⟩
  unfold normalizePinyinInput at read
  split at read
  · cases read
  · cases read
    dsimp only at rest
    by_cases zero : limit = 0
    · rw [if_pos zero] at rest
      cases rest
    · rw [if_neg zero] at rest
      rcases bind_eq_ok.mp rest with ⟨syllables, split, rest⟩
      have same : syllables = sourceSyllables libraries sourcePinyin := by
        unfold syllablesFromNormalizedPinyin at split
        dsimp only at split
        split at split
        · cases split
        · cases split
          rfl
      subst same
      rcases bind_eq_ok.mp rest with ⟨decoded, ranked, rest⟩
      have list : decoded = conversionRanking libraries order sourcePinyin limit := by
        unfold decodeRankedCandidates at ranked
        dsimp only at ranked
        split at ranked
        · cases ranked
        · cases ranked
          rfl
      subst list
      rcases bind_eq_ok.mp rest with ⟨candidates, made, rest⟩
      cases rest
      exact made

theorem mem_conversionRanking {order : IterationOrder (DecodedCandidate σ)} {decoded : DecodedCandidate σ} :
    decoded ∈ conversionRanking libraries order sourcePinyin limit ↔
      (∃ pairs, Occurs libraries sourcePinyin limit decoded pairs) ∧
        ¬ Outranked DecodedCandidate.hanzi DecodedCandidate.rank
          (fun other => ∃ pairs, Occurs libraries sourcePinyin limit other pairs) (cappedLimit limit) decoded := by
  have occurring : (· ∈ decodedCandidates libraries (normalizedPinyin sourcePinyin)
      (sourceSyllables libraries sourcePinyin) (cappedLimit limit)) =
      fun other => ∃ pairs, Occurs libraries sourcePinyin limit other pairs := by
    funext other
    exact propext mem_decodedCandidates
  unfold conversionRanking
  rw [dedupeAndRankCandidates_eq, mem_ranked_iff rank_injective, occurring]
  exact Iff.and mem_decodedCandidates Iff.rfl

theorem conversionRanking_eq (order other : IterationOrder (DecodedCandidate σ)) {candidates : List (DecodedCandidate σ)}
    (perm : candidates.Perm (decodedCandidates libraries (normalizedPinyin sourcePinyin)
      (sourceSyllables libraries sourcePinyin) (cappedLimit limit))) :
    dedupeAndRankCandidates other candidates (cappedLimit limit) =
      conversionRanking libraries order sourcePinyin limit := by
  unfold conversionRanking
  rw [dedupeAndRankCandidates_eq, dedupeAndRankCandidates_eq]
  exact ranked_perm _ (fun decoded => perm.mem_iff) rank_injective

theorem carried_of_convertPinyin {order : IterationOrder (DecodedCandidate σ)} {result : ConversionResult σ}
    (converted : convertPinyin libraries order sourcePinyin limit = .ok result) :
    result.candidates.map (fun candidate => (candidate.hanzi, candidate.score)) =
      (conversionRanking libraries order sourcePinyin limit).map fun decoded => (decoded.hanzi, decoded.score) := by
  have same := map_eq_of_mapM (g := fun candidate : Candidate σ => (candidate.hanzi, candidate.score))
    (h := fun decoded : DecodedCandidate σ × Nat => (decoded.1.hanzi, decoded.1.score)) (by
      intro decoded _ candidate made
      rcases candidateOf_eq_ok made with ⟨text, score, -⟩
      rw [text, score]) (convertPinyin_eq_ok converted)
  rw [same]
  have firsts : (conversionRanking libraries order sourcePinyin limit).zipIdx.map Prod.fst =
    conversionRanking libraries order sourcePinyin limit := List.zipIdx_map_fst 0 _
  nth_rewrite 2 [← firsts]
  rw [List.map_map]
  rfl

theorem syllables_of_convertPinyin {order : IterationOrder (DecodedCandidate σ)} {result : ConversionResult σ}
    (converted : convertPinyin libraries order sourcePinyin limit = .ok result) :
    ∀ candidate ∈ result.candidates, candidate.sourcePinyinSyllables = sourceSyllables libraries sourcePinyin := by
  intro candidate member
  rcases (mem_of_mapM (convertPinyin_eq_ok converted) candidate).mp member with ⟨decoded, _, made⟩
  exact (candidateOf_eq_ok made).2.2

theorem rankedBest {order : IterationOrder (DecodedCandidate σ)} {result : ConversionResult σ}
    (converted : convertPinyin libraries order sourcePinyin limit = .ok result) :
    RankedBest libraries sourcePinyin limit result.candidates
      (conversionRanking libraries order sourcePinyin limit) := by
  have carried := carried_of_convertPinyin converted
  have ranking : conversionRanking libraries order sourcePinyin limit = ranked DecodedCandidate.hanzi
      DecodedCandidate.rank (cappedLimit limit) (decodedCandidates libraries (normalizedPinyin sourcePinyin)
        (sourceSyllables libraries sourcePinyin) (cappedLimit limit)) := dedupeAndRankCandidates_eq _ _ _
  have texts : result.candidates.map Candidate.hanzi =
      (conversionRanking libraries order sourcePinyin limit).map DecodedCandidate.hanzi := by
    have firsts := congrArg (List.map Prod.fst) carried
    rw [List.map_map, List.map_map] at firsts
    exact firsts
  have lengths := congrArg List.length texts
  rw [List.length_map, List.length_map] at lengths
  refine ⟨carried, ?_, ?_, ?_, ?_⟩
  · rw [texts, ranking]
    exact distinct_ranked
  · rw [lengths, ranking]
    exact length_ranked
  · rw [ranking]
    apply (sorted_ranked rank_injective).imp
    intro left right before
    exact rank_lt_iff.mp before
  · intro decoded member
    rcases mem_conversionRanking.mp member with ⟨occurs, best⟩
    refine ⟨occurs, ?_⟩
    intro other pairs found same
    have after : ¬ other.rank < decoded.rank := fun before => best (.inl ⟨other, ⟨pairs, found⟩, same, before⟩)
    rw [rank_lt_iff] at after
    rcases lt_trichotomy other.score decoded.score with lower | equal | higher
    · exact .inl lower
    · refine .inr ⟨equal, ?_⟩
      exact not_lt.mp fun first => after (.inr ⟨equal, .inl first⟩)
    · exact absurd (.inl higher) after

omit [LinearOrder σ] in
theorem annotated_of_syllables [HanScript] [RandomUuid] {candidate : Candidate σ} {decoded : DecodedCandidate σ}
    (text : candidate.hanzi = decoded.hanzi)
    (split : (conversionReads libraries sourcePinyin limit).2[decoded.variantOrder]? =
      some candidate.sourcePinyinSyllables) {ids : SpanIds} {made : List DocumentSpan × SpanIds}
    {pairs : List (Char × String)} (aligned : alignedSpansForCandidate candidate.page ids = some made)
    (occurs : Occurs libraries sourcePinyin limit decoded pairs) :
    made.1.map sourcePair = pairs.map fun pair => (codeUnits pair.1, encode pair.2) := by
  have lengths : ∀ entry ∈ (conversionReads libraries sourcePinyin limit).1,
      entry.hanzi.toList.length = entry.syllables.length := by
    intro entry listed
    unfold conversionReads readSplits at listed
    split at listed
    · exact length_mistakableWord entry listed
    · cases listed
  rcases occurs.pairs_eq lengths with ⟨syllables, variant, -, paired⟩
  rw [split, Option.some_inj] at variant
  rw [sourcePair_aligned aligned, paired, ← text, ← variant]
  change (characters (encode candidate.hanzi)).zip (candidate.sourcePinyinSyllables.map encode) = _
  rw [characters_encode, List.zip_map]
  rfl

theorem aligned_iff_splitStands [HanScript] [RandomUuid] {order : IterationOrder (DecodedCandidate σ)}
    {result : ConversionResult σ} (converted : convertPinyin libraries order sourcePinyin limit = .ok result) :
    Aligned libraries sourcePinyin limit result.candidates (conversionRanking libraries order sourcePinyin limit) ↔
      SplitStands libraries sourcePinyin limit := by
  have carried := carried_of_convertPinyin converted
  have returned := syllables_of_convertPinyin converted
  constructor
  · intro aligned
    by_cases fast : libraries.viterbi (sourceSyllables libraries sourcePinyin) (cappedLimit limit) = []
    · right
      have reads : conversionReads libraries sourcePinyin limit =
          (mistakableWords, splitVariants libraries (normalizedPinyin sourcePinyin)) := if_pos fast
      intro decoded pairs reading other
      by_contra kept
      have member : decoded ∈ conversionRanking libraries order sourcePinyin limit := by
        rw [mem_conversionRanking]
        unfold Occurs
        rw [reads]
        exact ⟨⟨pairs, reading⟩, kept⟩
      rcases List.getElem?_of_mem member with ⟨i, place⟩
      have entry := congrArg (fun entries => entries[i]?) carried
      simp only [List.getElem?_map, place, Option.map_some, Option.map_eq_some_iff] at entry
      rcases entry with ⟨candidate, found, -⟩
      have split := (aligned i candidate decoded found place).1
      rw [reads, returned candidate (List.mem_of_getElem? found)] at split
      exact other split
    · exact .inl fast
  · intro stands i candidate decoded found place
    have entry := congrArg (fun entries => entries[i]?) carried
    simp only [List.getElem?_map, place, found, Option.map_some, Option.some_inj, Prod.mk.injEq] at entry
    rcases mem_conversionRanking.mp (List.mem_of_getElem? place) with ⟨⟨pairs, occurs⟩, kept⟩
    have split : (conversionReads libraries sourcePinyin limit).2[decoded.variantOrder]? =
        some candidate.sourcePinyinSyllables := by
      rw [returned candidate (List.mem_of_getElem? found)]
      by_cases fast : libraries.viterbi (sourceSyllables libraries sourcePinyin) (cappedLimit limit) = []
      · have reads : conversionReads libraries sourcePinyin limit =
            (mistakableWords, splitVariants libraries (normalizedPinyin sourcePinyin)) := if_pos fast
        unfold Occurs at occurs kept
        rw [reads] at occurs kept ⊢
        rcases stands with decodes | outranked
        · exact absurd fast decodes
        · by_contra other
          exact kept (outranked decoded pairs occurs other)
      · have reads : conversionReads libraries sourcePinyin limit =
            ([], [sourceSyllables libraries sourcePinyin]) := if_neg fast
        unfold Occurs at occurs
        rw [reads] at occurs ⊢
        cases occurs with
        | @decoded k syllables path score variant listed =>
          cases k with
          | zero => rfl
          | succ k => cases variant
        | mistakable listed => cases listed
    refine ⟨split, ?_⟩
    intro ids made pairs aligned occurring
    exact annotated_of_syllables entry.1 split aligned occurring

/-- Whatever the libraries answer, a successful conversion is ranked by the three keys with the best of each text,
whichever order the hash map lists its values in and the candidates were decoded in; and the syllables of every candidate
are those it was decoded from exactly where the first split stands. -/
theorem candidates_are_ranked_and_aligned [HanScript] [RandomUuid] (order : IterationOrder (DecodedCandidate σ))
    {result : ConversionResult σ} (converted : convertPinyin libraries order sourcePinyin limit = .ok result) :
    ∃ ranking : List (DecodedCandidate σ), RankedBest libraries sourcePinyin limit result.candidates ranking ∧
      (∀ other : IterationOrder (DecodedCandidate σ),
        convertPinyin libraries other sourcePinyin limit = .ok result) ∧
      (∀ (other : IterationOrder (DecodedCandidate σ)) (candidates : List (DecodedCandidate σ)),
        candidates.Perm (decodedCandidates libraries (normalizedPinyin sourcePinyin)
            (sourceSyllables libraries sourcePinyin) (cappedLimit limit)) →
          dedupeAndRankCandidates other candidates (cappedLimit limit) = ranking) ∧
      (Aligned libraries sourcePinyin limit result.candidates ranking ↔
        SplitStands libraries sourcePinyin limit) := by
  refine ⟨conversionRanking libraries order sourcePinyin limit, rankedBest converted, ?_, ?_,
    aligned_iff_splitStands converted⟩
  · intro other
    have same : convertPinyin libraries other sourcePinyin limit = convertPinyin libraries order sourcePinyin limit := by
      unfold convertPinyin decodeRankedCandidates
      simp only [dedupeAndRankCandidates_eq]
    rw [same]
    exact converted
  · intro other candidates perm
    exact conversionRanking_eq order other perm

end

def fewWords (tokenized : String) (splits : List String) (syllables : List String) (path : List Char)
    (lengths : path.length = syllables.length) (toPinyin : Char → Option String) : Libraries ℕ where
  pinyinSplitByTrieTokenizer := fun _ => tokenized
  pinyinSplit := fun _ => splits
  viterbi := fun asked _ => if asked = syllables then [(path, 1)] else []
  toPinyin
  toUppercase := fun c => [c.toUpper]
  path_length := by
    intro asked limit found member
    by_cases same : asked = syllables
    · rw [if_pos same, List.mem_singleton] at member
      rw [member, same]
      exact lengths
    · rw [if_neg same] at member
      cases member

def asEntered : IterationOrder (DecodedCandidate ℕ) where
  intoValues := id
  perm := fun values => .refl values

def beijingLibraries : Libraries ℕ :=
  fewWords "bei jing" ["bei jing"] ["bei", "jing"] ['北', '京'] rfl fun c =>
    if c = '北' then some "běi" else if c = '京' then some "jīng" else none

def beijingResult : ConversionResult ℕ where
  sourcePinyin := "bei jing"
  candidates := [{
    id := "candidate-0"
    sourcePinyin := "bei jing"
    sourcePinyinSyllables := ["bei", "jing"]
    hanzi := "北京"
    displayPinyin := "Běijīng"
    displayPinyinSyllables := ["Běi", "jīng"]
    score := 1 }]

abbrev anyScript : HanScript := ⟨fun _ => true⟩

theorem candidates_are_ranked_and_aligned_beijing :
    ∃ ranking, @RankedBest ℕ _ _ asciiLowercase beijingLibraries "  BEI   JING  " 3 _ beijingResult.candidates ranking ∧
      (@Aligned ℕ _ _ asciiLowercase beijingLibraries "  BEI   JING  " 3 anyScript lengthening beijingResult.candidates
        ranking ↔ @SplitStands ℕ _ _ asciiLowercase beijingLibraries "  BEI   JING  " 3 _) := by
  have converted : @convertPinyin ℕ _ _ _ beijingLibraries asEntered asciiLowercase "  BEI   JING  " 3 =
      .ok beijingResult := by
    decide +kernel
  rcases @candidates_are_ranked_and_aligned ℕ _ _ asciiLowercase beijingLibraries "  BEI   JING  " 3 _ anyScript
    lengthening asEntered beijingResult converted with ⟨ranking, best, -, -, aligned⟩
  exact ⟨ranking, best, aligned⟩

/-- The decoder has no text for the first split of the input, and one for the second. -/
def fanganLibraries : Libraries ℕ :=
  fewWords "fang an" ["fang an", "fan gan"] ["fan", "gan"] ['反', '感'] rfl fun c =>
    if c = '反' then some "fǎn" else if c = '感' then some "gǎn" else none

def fanganCandidate : Candidate ℕ where
  id := "candidate-0"
  sourcePinyin := "fangan"
  sourcePinyinSyllables := ["fang", "an"]
  hanzi := "反感"
  displayPinyin := "Fǎngǎn"
  displayPinyinSyllables := ["Fǎn", "gǎn"]
  score := 1

/-- The text of the second split is returned with the syllables of the first, and the page annotates it with them. -/
theorem another_split_annotates_wrongly :
    @convertPinyin ℕ _ _ _ fanganLibraries asEntered asciiLowercase "fangan" 5 =
        .ok { sourcePinyin := "fangan", candidates := [fanganCandidate] } ∧
      ¬ @Aligned ℕ _ _ asciiLowercase fanganLibraries "fangan" 5 anyScript lengthening [fanganCandidate]
        (@conversionRanking ℕ _ _ asciiLowercase _ fanganLibraries asEntered "fangan" 5) ∧
      (@spansForCandidate lengthening anyScript fanganCandidate.page { used := [], drawn := 0 }).1.map sourcePair =
        [(encode "反", encode "fang"), (encode "感", encode "an")] := by
  refine ⟨by decide +kernel, ?_, by decide +kernel⟩
  intro aligned
  have ranking : @conversionRanking ℕ _ _ asciiLowercase _ fanganLibraries asEntered "fangan" 5 =
      [{ hanzi := "反感", score := 1, variantOrder := 1 }] := by
    decide +kernel
  rw [ranking] at aligned
  have split := (aligned 0 _ _ rfl rfl).1
  have second : (@conversionReads ℕ asciiLowercase fanganLibraries "fangan" 5).2[1]? = some ["fan", "gan"] := by
    decide +kernel
  rw [second] at split
  revert split
  decide

end PinyinComposer.Wasm

import BazelRepo.Library.Ranking
import BazelRepo.Library.Text
import Mathlib.Data.List.Infix

namespace PinyinComposer.Wasm

open Library

/-- What the libraries answer that segment, decode and pronounce. A decoded path has one character for each syllable. -/
structure Libraries (σ : Type) where
  pinyinSplitByTrieTokenizer : String → String
  pinyinSplit : String → List String
  viterbi : List String → Nat → List (List Char × σ)
  toPinyin : Char → Option String
  toUppercase : Char → List Char
  path_length : ∀ syllables limit, ∀ found ∈ viterbi syllables limit, found.1.length = syllables.length

structure IterationOrder (α : Type) where
  intoValues : List α → List α
  perm : ∀ values, (intoValues values).Perm values

inductive EngineError where
  | blankPinyinInput
  | blankHanziInput
  | candidateLimitMustBePositive
  | conversionUnavailable (message : String)
  deriving DecidableEq

def EngineError.display : EngineError → String
  | .blankPinyinInput => "pinyin input must contain at least one syllable"
  | .blankHanziInput => "hanzi input must contain at least one character"
  | .candidateLimitMustBePositive => "candidate limit must be greater than zero"
  | .conversionUnavailable message => s!"conversion unavailable: {message}"

structure AnnotationResult where
  hanzi : String
  pinyin : String
  pinyinSyllables : List String
  deriving DecidableEq

structure Candidate (σ : Type) where
  id : String
  sourcePinyin : String
  sourcePinyinSyllables : List String
  hanzi : String
  displayPinyin : String
  displayPinyinSyllables : List String
  score : σ
  deriving DecidableEq

structure ConversionResult (σ : Type) where
  sourcePinyin : String
  candidates : List (Candidate σ)
  deriving DecidableEq

structure DecodedCandidate (σ : Type) where
  hanzi : String
  score : σ
  variantOrder : Nat
  deriving DecidableEq

structure MistakableWord where
  syllables : List String
  hanzi : String

def maxCandidateLimit : Nat := 20

def maxExhaustiveSplitInputLen : Nat := 32

def maxExhaustiveSplitVariants : Nat := 64

def mistakableWords : List MistakableWord := [{ syllables := ["jue", "de"], hanzi := "觉得" }]

def splitWhitespace (text : String) : List String :=
  ((text.toList.splitOnP isWhiteSpace).filter fun piece => !piece.isEmpty).map String.ofList

section

variable {σ : Type} (libraries : Libraries σ)

def titleCaseFirst (value : String) : String :=
  match value.toList with
  | [] => ""
  | first :: rest => String.ofList (libraries.toUppercase first ++ rest)

def titleCaseFirstSyllable : List String → List String
  | [] => []
  | first :: rest => titleCaseFirst libraries first :: rest

def annotatePhrase (hanzi : String) : Except EngineError AnnotationResult := do
  let trimmed := trim hanzi
  if trimmed = "" then
    throw .blankHanziInput
  let pinyinSyllables := trimmed.toList.filterMap libraries.toPinyin
  if pinyinSyllables = [] then
    throw (.conversionUnavailable s!"no pinyin annotation found for `{trimmed}`")
  let displayPinyinSyllables := titleCaseFirstSyllable libraries pinyinSyllables
  return { hanzi := trimmed, pinyin := String.join displayPinyinSyllables, pinyinSyllables := displayPinyinSyllables }

/-- The words of an input, in lower case and with one blank between them. -/
def normalizedPinyin [Lowercase] (sourcePinyin : String) : String :=
  Lowercase.toLowercase (" ".intercalate (splitWhitespace sourcePinyin))

def normalizePinyinInput [Lowercase] (sourcePinyin : String) : Except EngineError String :=
  if normalizedPinyin sourcePinyin = "" then .error .blankPinyinInput else .ok (normalizedPinyin sourcePinyin)

def syllablesFromNormalizedPinyin (normalized : String) : Except EngineError (List String) :=
  let syllables := splitWhitespace (libraries.pinyinSplitByTrieTokenizer normalized)
  if syllables = [] then .error .blankPinyinInput else .ok syllables

def decodeSyllableCandidates (syllables : List String) (limit variantOrder : Nat) : List (DecodedCandidate σ) :=
  (libraries.viterbi syllables limit).map fun found =>
    { hanzi := String.ofList found.1, score := found.2, variantOrder }

def candidatesContainMistakableWord (candidates : List (DecodedCandidate σ)) (entry : MistakableWord) : Bool :=
  candidates.any fun candidate => entry.hanzi.toList <:+: candidate.hanzi.toList

def splitVariants (normalized : String) : List (List String) :=
  let compact := String.join (splitWhitespace normalized)
  if maxExhaustiveSplitInputLen < compact.utf8ByteSize then []
  else ((libraries.pinyinSplit compact).take maxExhaustiveSplitVariants).map splitWhitespace

def windows (size : Nat) (syllables : List String) : List (Nat × List String) :=
  (List.range (syllables.length + 1 - size)).map fun index => (index, (syllables.drop index).take size)

variable [One σ]

def decodeBestHanzi (syllables : List String) : Option (String × σ) :=
  if syllables = [] then some ("", 1)
  else (decodeSyllableCandidates libraries syllables 1 0).head?.map fun candidate => (candidate.hanzi, candidate.score)

variable [Mul σ]

/-- A word in its place between what comes before it and what comes after it. -/
def splice (entry : MistakableWord) (variantOrder : Nat) (before after : String × σ) : DecodedCandidate σ :=
  { hanzi := before.1 ++ entry.hanzi ++ after.1
    score := if before.1 = "" ∧ after.1 = "" then 1 else before.2 * after.2
    variantOrder }

def mistakableWordCandidates (entry : MistakableWord) (syllables : List String) (variantOrder : Nat) :
    List (DecodedCandidate σ) :=
  ((windows entry.syllables.length syllables).filter fun window => window.2 = entry.syllables).filterMap fun window => do
    let before ← decodeBestHanzi libraries (syllables.take window.1)
    let after ← decodeBestHanzi libraries (syllables.drop (window.1 + entry.syllables.length))
    return splice entry variantOrder before after

def exhaustiveSplitCandidates (normalized : String) (limit : Nat) : List (DecodedCandidate σ) :=
  let variants := (splitVariants libraries normalized).zipIdx
  let candidates := variants.flatMap fun variant => decodeSyllableCandidates libraries variant.1 limit variant.2
  let mistakableCandidates :=
    (mistakableWords.filter fun entry => !candidatesContainMistakableWord candidates entry).flatMap fun entry =>
      variants.flatMap fun variant => mistakableWordCandidates libraries entry variant.1 variant.2
  candidates ++ mistakableCandidates

/-- What the first split decodes to; if that is nothing, what the other splits do. -/
def decodedCandidates (normalized : String) (syllables : List String) (limit : Nat) : List (DecodedCandidate σ) :=
  let fastCandidates := decodeSyllableCandidates libraries syllables limit 0
  if fastCandidates = [] then exhaustiveSplitCandidates libraries normalized limit else fastCandidates

end

section

variable {σ : Type} [LinearOrder σ]

def compareCandidates (left right : DecodedCandidate σ) : Ordering :=
  (compare right.score left.score).then
    ((compare left.variantOrder right.variantOrder).then (compare left.hanzi right.hanzi))

def isBetterCandidate (candidate current : DecodedCandidate σ) : Bool := (compareCandidates candidate current).isLT

def enterCandidate : List (DecodedCandidate σ) → DecodedCandidate σ → List (DecodedCandidate σ)
  | [], candidate => [candidate]
  | current :: rest, candidate =>
    if current.hanzi = candidate.hanzi then (if isBetterCandidate candidate current then candidate else current) :: rest
    else current :: enterCandidate rest candidate

def dedupeAndRankCandidates (order : IterationOrder (DecodedCandidate σ)) (candidates : List (DecodedCandidate σ))
    (limit : Nat) : List (DecodedCandidate σ) :=
  ((order.intoValues (candidates.foldl enterCandidate [])).insertionSort fun left right =>
    (compareCandidates left right).isLE).take limit

variable [One σ] [Mul σ] (libraries : Libraries σ) (order : IterationOrder (DecodedCandidate σ))

def decodeRankedCandidates (normalized : String) (syllables : List String) (limit : Nat) :
    Except EngineError (List (DecodedCandidate σ)) :=
  let candidates := dedupeAndRankCandidates order (decodedCandidates libraries normalized syllables limit) limit
  if candidates = [] then .error (.conversionUnavailable s!"no candidate found for `{normalized}`")
  else .ok candidates

def candidateOf (normalized : String) (sourcePinyinSyllables : List String) (decoded : DecodedCandidate σ × Nat) :
    Except EngineError (Candidate σ) := do
  let annotation ← annotatePhrase libraries decoded.1.hanzi
  return {
    id := s!"candidate-{decoded.2}"
    sourcePinyin := normalized
    sourcePinyinSyllables
    hanzi := decoded.1.hanzi
    displayPinyin := annotation.pinyin
    displayPinyinSyllables := annotation.pinyinSyllables
    score := decoded.1.score }

def convertPinyin [Lowercase] (sourcePinyin : String) (limit : Nat) : Except EngineError (ConversionResult σ) := do
  let normalized ← normalizePinyinInput sourcePinyin
  if limit = 0 then
    throw .candidateLimitMustBePositive
  let sourcePinyinSyllables ← syllablesFromNormalizedPinyin libraries normalized
  let cappedLimit := min limit maxCandidateLimit
  let decoded ← decodeRankedCandidates libraries order normalized sourcePinyinSyllables cappedLimit
  let candidates ← decoded.zipIdx.mapM (candidateOf libraries normalized sourcePinyinSyllables)
  return { sourcePinyin := normalized, candidates }

end

end PinyinComposer.Wasm

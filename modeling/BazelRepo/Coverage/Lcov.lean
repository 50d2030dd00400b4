import BazelRepo.Coverage.BuildEvent
import BazelRepo.Library.Splitting

namespace Coverage

open Library

structure Natural where
  text : String
  deriving DecidableEq

namespace Natural

/-- Whether a text is digits, with an underscore only between two of them. -/
def validDigits (digits : List Char) : Bool :=
  digits ≠ [] && digits.zipIdx.all fun (c, index) =>
    isAsciiDigit c || (c = '_' && 0 < index && index + 1 < digits.length &&
      (digits[index - 1]?.any isAsciiDigit) && (digits[index + 1]?.any isAsciiDigit))

def parse (text : String) : Result Natural :=
  let text := trim text
  let (negative, digits) := match text.toList with
    | '-' :: digits => (true, digits)
    | '+' :: digits => (false, digits)
    | digits => (false, digits)
  let stripped := (digits.filter (· ≠ '_')).dropWhile (· = '0')
  if validDigits digits = false ∨ (negative = true ∧ stripped ≠ []) then
    invalid s!"invalid literal for nonnegative int: '{text}'"
  else
    .ok ⟨if stripped = [] then "0" else String.ofList stripped⟩

def count (value : Nat) : Natural := ⟨toString value⟩

def isZero (value : Natural) : Bool := value.text = "0"

/-- Numbers by their lengths, those of one length by their digits. -/
instance : Ord Natural := ⟨compareLex (compareOn fun value => value.text.utf8ByteSize) (compareOn Natural.text)⟩

instance : Std.TransOrd Natural :=
  inferInstanceAs (Std.TransCmp (compareLex (compareOn fun value : Natural => value.text.utf8ByteSize) (compareOn Natural.text)))

instance : Std.LawfulEqOrd Natural where
  compare_self := Std.ReflCmp.compare_self
  eq_of_compare := by
    intro a b equal
    have texts : compareOn Natural.text a b = .eq := (Ordering.then_eq_eq.mp equal).2
    cases a
    cases b
    exact congrArg Natural.mk (Std.LawfulEqOrd.eq_of_compare texts)

end Natural

def stripPrefix (start : String) (line : List Char) : Option (List Char) :=
  if start.toList <+: line then some (line.drop start.toList.length) else none

def endOfRecord : List Char := "end_of_record".toList

def sourcesOf (record : List Char) : List String :=
  (lines record).filterMap fun line => (stripPrefix "SF:" line).map String.ofList

/-- What the lines of a record have stated so far. -/
structure RecordLines where
  counts : BTreeMap Natural Natural := ∅
  found : List Natural := []
  hit : List Natural := []

/-- The number and the count of a line, which may be followed by one more field. -/
def lineEntry (fields : List Char) : Result (Natural × Natural) :=
  match fields.splitOn ',' with
  | [number, count] | [number, count, _] => do
    let number ← Natural.parse (String.ofList number)
    let count ← Natural.parse (String.ofList count)
    .ok (number, count)
  | _ => invalid ""

def readLine (name family : String) (state : RecordLines) (line : List Char) : Result RecordLines :=
  let wrong : ReportError := .invalid s!"Invalid {family} line record: {name}"
  match stripPrefix "DA:" line with
  | some fields => do
    let (number, count) ← (lineEntry fields).mapError fun _ => wrong
    if number.isZero = true ∨ state.counts[number]?.isSome = true then .error wrong
    else .ok { state with counts := state.counts.insert number count }
  | none =>
    match stripPrefix "LF:" line with
    | some number => do
      let number ← Natural.parse (String.ofList number)
      .ok { state with found := state.found ++ [number] }
    | none =>
      match stripPrefix "LH:" line with
      | some number => do
        let number ← Natural.parse (String.ofList number)
        .ok { state with hit := state.hit ++ [number] }
      | none => .ok state

def lcovLines (lines : List (List Char)) (name family : String) (checkSummary : Bool) : Result (Finset Natural) := do
  let state ← lines.foldlM (readLine name family) {}
  let count := Natural.count state.counts.size
  let hitCount := Natural.count (state.counts.toList.filter fun entry => !entry.2.isZero).length
  match state.found, state.hit with
  | [found], [hit] =>
    if compare found count = .lt ∨ compare hit found = .gt ∨ (checkSummary = true ∧ (found ≠ count ∨ hit ≠ hitCount)) then
      invalid s!"Incomplete {family} coverage record: {name}"
    else
      .ok (state.counts.toList.map Prod.fst).toFinset
  | _, _ => invalid s!"Incomplete {family} coverage record: {name}"

def entries (lines : List (List Char)) : List (Natural × Natural) :=
  lines.filterMap fun line => (stripPrefix "DA:" line).bind fun fields => (lineEntry fields).toOption

/-- A record whose lines are numbered from one, each once, and whose summary, where it is checked, agrees with them. -/
structure CleanRecord (lines : List (List Char)) (checkSummary : Bool) : Prop where
  readable : ∀ line ∈ lines, ∀ fields, stripPrefix "DA:" line = some fields → ∃ entry, lineEntry fields = .ok entry
  distinct : ((entries lines).map Prod.fst).Nodup
  positive : ∀ entry ∈ entries lines, entry.1.isZero = false
  found : ∃ text number, lines.filterMap (stripPrefix "LF:") = [text] ∧ Natural.parse (String.ofList text) = .ok number ∧
    (checkSummary = true → number = Natural.count (entries lines).length)
  hit : ∃ text number, lines.filterMap (stripPrefix "LH:") = [text] ∧ Natural.parse (String.ofList text) = .ok number ∧
    (checkSummary = true → number = Natural.count ((entries lines).filter fun entry => !entry.2.isZero).length)

def lineNumbers (lines : List (List Char)) : Finset Natural := ((entries lines).map Prod.fst).toFinset

theorem stripPrefix_other {start other : String} (apart : start.toList ≠ other.toList)
    (length : start.toList.length = other.toList.length) {line rest : List Char} (found : stripPrefix start line = some rest) :
    stripPrefix other line = none := by
  unfold stripPrefix at found ⊢
  split at found
  · rename_i first
    rw [if_neg]
    intro second
    exact apart ((List.prefix_of_prefix_length_le first second length.le).eq_of_length length)
  · cases found

structure Reads (lines : List (List Char)) (state : RecordLines) : Prop where
  readable : ∀ line ∈ lines, ∀ fields, stripPrefix "DA:" line = some fields → ∃ entry, lineEntry fields = .ok entry
  counted : state.counts.toList.Perm (entries lines)
  positive : ∀ entry ∈ entries lines, entry.1.isZero = false
  found : List.Forall₂ (fun text number => Natural.parse (String.ofList text) = .ok number)
    (lines.filterMap (stripPrefix "LF:")) state.found
  hit : List.Forall₂ (fun text number => Natural.parse (String.ofList text) = .ok number)
    (lines.filterMap (stripPrefix "LH:")) state.hit

theorem reads_empty : Reads [] {} :=
  ⟨nofun, by simp [entries], nofun, .nil, .nil⟩

theorem filterMap_snoc {α β : Type} (f : α → Option β) (xs : List α) (x : α) :
    (xs ++ [x]).filterMap f = xs.filterMap f ++ (f x).toList := by
  rw [List.filterMap_append]
  cases found : f x <;> simp [found]

theorem entries_snoc (lines : List (List Char)) (line : List Char) : entries (lines ++ [line]) =
    entries lines ++ ((stripPrefix "DA:" line).bind fun fields => (lineEntry fields).toOption).toList :=
  filterMap_snoc _ lines line

theorem Reads.readLine {lines : List (List Char)} {state next : RecordLines} {name family : String} {line : List Char}
    (reads : Reads lines state) (read : Coverage.readLine name family state line = .ok next) : Reads (lines ++ [line]) next := by
  have keeps : stripPrefix "DA:" line = none → ∀ other ∈ lines ++ [line], ∀ fields, stripPrefix "DA:" other = some fields →
      ∃ entry, lineEntry fields = .ok entry := by
    intro none_here other member fields found
    rcases List.mem_append.mp member with earlier | latest
    · exact reads.readable other earlier fields found
    · cases List.mem_singleton.mp latest
      rw [none_here] at found
      cases found
  unfold Coverage.readLine at read
  cases da : stripPrefix "DA:" line with
  | some fields =>
    have lf := stripPrefix_other (by decide : "DA:".toList ≠ "LF:".toList) rfl da
    have lh := stripPrefix_other (by decide : "DA:".toList ≠ "LH:".toList) rfl da
    rw [da] at read
    rcases bind_eq_ok.mp read with ⟨⟨number, count⟩, parsed, read⟩
    have entry := mapError_eq_ok.mp parsed
    dsimp only at read
    split at read
    · cases read
    · rename_i fresh
      cases read
      rw [not_or] at fresh
      rcases fresh with ⟨zero, seen⟩
      have absent : state.counts[number]? = none := by simpa using seen
      have added : entries (lines ++ [line]) = entries lines ++ [(number, count)] := by
        rw [entries_snoc, da, Option.bind_some, entry]
        rfl
      refine ⟨?_, ?_, ?_, ?_, ?_⟩
      · intro other member other_fields found
        rcases List.mem_append.mp member with earlier | latest
        · exact reads.readable other earlier other_fields found
        · cases List.mem_singleton.mp latest
          rw [da] at found
          cases found
          exact ⟨_, entry⟩
      · rw [added]
        apply (BTreeMap.toList_insert_perm state.counts number count).trans
        have others : state.counts.toList.filter (fun entry => entry.1 ≠ number) = state.counts.toList := by
          rw [List.filter_eq_self]
          rintro ⟨other, value⟩ member
          have stored := BTreeMap.mem_toList.mp member
          have apart : other ≠ number := by
            rintro rfl
            rw [absent] at stored
            cases stored
          exact decide_eq_true apart
        rw [others]
        exact (List.perm_append_singleton _ _).symm.trans (reads.counted.append_right _)
      · rw [added]
        intro other member
        rcases List.mem_append.mp member with earlier | latest
        · exact reads.positive other earlier
        · cases List.mem_singleton.mp latest
          simpa using zero
      · rw [filterMap_snoc, lf]
        simpa using reads.found
      · rw [filterMap_snoc, lh]
        simpa using reads.hit
  | none =>
    have same : entries (lines ++ [line]) = entries lines := by
      rw [entries_snoc, da]
      simp
    rw [da] at read
    dsimp only at read
    cases lf : stripPrefix "LF:" line with
    | some text =>
      have lh := stripPrefix_other (by decide : "LF:".toList ≠ "LH:".toList) rfl lf
      rw [lf] at read
      rcases bind_eq_ok.mp read with ⟨number, parsed, stored⟩
      cases stored
      refine ⟨keeps da, by rw [same]; exact reads.counted, by rw [same]; exact reads.positive, ?_, ?_⟩
      · rw [filterMap_snoc, lf]
        exact List.rel_append reads.found (.cons parsed .nil)
      · rw [filterMap_snoc, lh]
        simpa using reads.hit
    | none =>
      rw [lf] at read
      dsimp only at read
      cases lh : stripPrefix "LH:" line with
      | some text =>
        rw [lh] at read
        rcases bind_eq_ok.mp read with ⟨number, parsed, stored⟩
        cases stored
        refine ⟨keeps da, by rw [same]; exact reads.counted, by rw [same]; exact reads.positive, ?_, ?_⟩
        · rw [filterMap_snoc, lf]
          simpa using reads.found
        · rw [filterMap_snoc, lh]
          exact List.rel_append reads.hit (.cons parsed .nil)
      | none =>
        rw [lh] at read
        cases read
        refine ⟨keeps da, by rw [same]; exact reads.counted, by rw [same]; exact reads.positive, ?_, ?_⟩
        · rw [filterMap_snoc, lf]
          simpa using reads.found
        · rw [filterMap_snoc, lh]
          simpa using reads.hit

theorem foldlM_readLine {name family : String} {lines : List (List Char)} {state : RecordLines}
    (read : lines.foldlM (readLine name family) {} = .ok state) : Reads lines state := by
  rcases foldlM_prefix reads_empty fun _ _ _ _ _ _ reads step => reads.readLine step with ⟨passes, _⟩
  exact passes state read

theorem one_read {texts : List (List Char)} {number : Natural}
    (read : List.Forall₂ (fun text number => Natural.parse (String.ofList text) = .ok number) texts [number]) :
    ∃ text, texts = [text] ∧ Natural.parse (String.ofList text) = .ok number := by
  cases read with
  | cons parsed rest =>
    cases rest
    exact ⟨_, rfl, parsed⟩

theorem lcovLines_clean {lines : List (List Char)} {name family : String} {checkSummary : Bool} {numbers : Finset Natural}
    (accepted : lcovLines lines name family checkSummary = .ok numbers) :
    CleanRecord lines checkSummary ∧ numbers = lineNumbers lines := by
  unfold lcovLines at accepted
  rcases bind_eq_ok.mp accepted with ⟨state, run, accepted⟩
  have reads := foldlM_readLine run
  have count : state.counts.size = (entries lines).length := by
    rw [← reads.counted.length_eq]
    simp
  have hits : (state.counts.toList.filter fun entry => !entry.2.isZero).length =
      ((entries lines).filter fun entry => !entry.2.isZero).length := (reads.counted.filter _).length_eq
  have keys := reads.counted.map Prod.fst
  have distinct : ((entries lines).map Prod.fst).Nodup := keys.nodup_iff.mp (BTreeMap.nodup_keys _)
  dsimp only at accepted
  split at accepted
  · rename_i found hit one_found one_hit
    have lf := reads.found
    have lh := reads.hit
    rw [one_found] at lf
    rw [one_hit] at lh
    split at accepted
    · cases accepted
    · rename_i agrees
      simp only [not_or, not_and] at agrees
      rcases agrees with ⟨_, _, summary⟩
      cases accepted
      refine ⟨⟨reads.readable, distinct, reads.positive, ?_, ?_⟩, List.toFinset_eq_of_perm _ _ keys⟩
      · rcases one_read lf with ⟨text, only, parsed⟩
        refine ⟨text, found, only, parsed, fun check => ?_⟩
        rw [← count]
        exact not_not.mp (summary check).1
      · rcases one_read lh with ⟨text, only, parsed⟩
        refine ⟨text, hit, only, parsed, fun check => ?_⟩
        rw [← hits]
        exact not_not.mp (summary check).2
  · cases accepted

end Coverage

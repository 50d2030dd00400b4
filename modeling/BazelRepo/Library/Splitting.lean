import Mathlib.Data.List.Infix

namespace Library

variable {α : Type*} [DecidableEq α]

/-- A text cut at each occurrence of a separator, from the left; the count is of elements of an occurrence still to skip. -/
def splitFrom (separator : List α) : Nat → List α → List (List α)
  | _, [] => [[]]
  | 0, c :: rest =>
    if separator <+: c :: rest then [] :: splitFrom separator (separator.length - 1) rest
    else match splitFrom separator 0 rest with
      | [] => [[c]]
      | piece :: others => (c :: piece) :: others
  | skip + 1, _ :: rest => splitFrom separator skip rest

def splitText (separator text : List α) : List (List α) := splitFrom separator 0 text

/-- No beginning of the separator is also an end of it, so two occurrences never overlap. -/
def Borderless (separator : List α) : Prop :=
  ∀ k < separator.length, 0 < k → separator.take k ≠ separator.drop (separator.length - k)

instance (separator : List α) : Decidable (Borderless separator) :=
  inferInstanceAs (Decidable (∀ k < separator.length, 0 < k → separator.take k ≠ separator.drop (separator.length - k)))

variable {separator : List α}

theorem splitFrom_ne_nil : ∀ {text : List α} {skip : Nat}, splitFrom separator skip text ≠ [] := by
  intro text
  induction text with
  | nil =>
    intro skip
    cases skip <;> simp [splitFrom]
  | cons c rest ih =>
    intro skip
    cases skip with
    | zero =>
      unfold splitFrom
      split
      · exact List.cons_ne_nil _ _
      · split <;> exact List.cons_ne_nil _ _
    | succ skip =>
      unfold splitFrom
      exact ih

theorem splitText_ne_nil {text : List α} : splitText separator text ≠ [] := splitFrom_ne_nil

theorem splitFrom_drop : ∀ {skip : Nat} {text : List α}, skip ≤ text.length →
    splitFrom separator skip text = splitText separator (text.drop skip) := by
  intro skip
  induction skip with
  | zero =>
    intro text _
    rfl
  | succ skip ih =>
    intro text within
    cases text with
    | nil => simp at within
    | cons c rest =>
      rw [List.drop_succ_cons, ← ih (by simpa using within)]
      rfl

/-- A text that starts with the separator: an empty piece, then the rest of it. -/
theorem splitText_separator (nonempty : separator ≠ []) (rest : List α) :
    splitText separator (separator ++ rest) = [] :: splitText separator rest := by
  cases separator with
  | nil => exact absurd rfl nonempty
  | cons c others =>
    have start : c :: others <+: c :: (others ++ rest) := ⟨rest, rfl⟩
    unfold splitText
    rw [List.cons_append]
    conv_lhs => unfold splitFrom
    rw [if_pos start, List.length_cons, Nat.add_sub_cancel, splitFrom_drop (by simp), List.drop_left]
    rfl

theorem splitText_cons {c : α} {rest piece : List α} {others : List (List α)} (outside : ¬ separator <+: c :: rest)
    (later : splitText separator rest = piece :: others) :
    splitText separator (c :: rest) = (c :: piece) :: others := by
  unfold splitText at later ⊢
  conv_lhs => unfold splitFrom
  rw [if_neg outside, later]

theorem splitText_eq_singleton {piece : List α} (free : ¬ separator <:+: piece) :
    splitText separator piece = [piece] := by
  induction piece with
  | nil => rfl
  | cons c rest ih =>
    apply splitText_cons
    · intro start
      exact free start.isInfix
    · exact ih fun inside => free (inside.trans (List.suffix_cons c rest).isInfix)

omit [DecidableEq α] in
theorem not_prefix_append (borderless : Borderless separator) {c : α} {piece rest : List α}
    (free : ¬ separator <:+: c :: piece) : ¬ separator <+: (c :: piece) ++ (separator ++ rest) := by
  intro start
  by_cases long : separator.length ≤ (c :: piece).length
  · exact free (List.prefix_of_prefix_length_le start (List.prefix_append _ _) long).isInfix
  · -- the piece is a beginning of the separator, and what follows it in the separator is one again
    have part : (c :: piece) <+: separator :=
      List.prefix_of_prefix_length_le (List.prefix_append _ _) start (Nat.le_of_not_le long)
    rcases part with ⟨remaining, same⟩
    have lengths := congrArg List.length same
    rw [List.length_append] at lengths
    have again : remaining <+: separator := by
      have following : (c :: piece) ++ remaining <+: (c :: piece) ++ (separator ++ rest) := by rwa [same]
      rw [List.prefix_append_right_inj] at following
      exact List.prefix_of_prefix_length_le following (List.prefix_append _ _) (by omega)
    apply borderless remaining.length
    · rw [List.length_cons] at lengths
      omega
    · omega
    · rw [List.prefix_iff_eq_take.mp again |>.symm]
      have cut : separator.length - remaining.length = (c :: piece).length := by omega
      rw [cut]
      conv_rhs => rw [← same]
      rw [List.drop_left]

/-- What a text free of the separator adds to what follows it: one piece. -/
theorem splitText_append (nonempty : separator ≠ []) (borderless : Borderless separator) {piece : List α} (rest : List α)
    (free : ¬ separator <:+: piece) :
    splitText separator (piece ++ (separator ++ rest)) = piece :: splitText separator rest := by
  induction piece with
  | nil => exact splitText_separator nonempty rest
  | cons c others ih =>
    rw [List.cons_append]
    apply splitText_cons
    · exact not_prefix_append borderless free
    · exact ih fun inside => free (inside.trans (List.suffix_cons c others).isInfix)

/-- A text of records, each ended by the separator, and what follows the last one. -/
def joinRecords (separator : List α) (records : List (List α)) (trailer : List α) : List α :=
  records.flatMap (fun record => record ++ separator) ++ trailer

theorem splitText_joinRecords (nonempty : separator ≠ []) (borderless : Borderless separator) {records : List (List α)}
    {trailer : List α} (free : ∀ record ∈ records, ¬ separator <:+: record) (rest : ¬ separator <:+: trailer) :
    splitText separator (joinRecords separator records trailer) = records ++ [trailer] := by
  unfold joinRecords
  induction records with
  | nil => exact splitText_eq_singleton rest
  | cons record others ih =>
    rw [List.flatMap_cons, List.append_assoc, List.append_assoc,
      splitText_append nonempty borderless _ (free record List.mem_cons_self),
      ih fun other member => free other (List.mem_cons_of_mem _ member)]
    rfl

omit [DecidableEq α] in
theorem not_infix_cons {c : α} {piece : List α} (outside : ¬ separator <+: c :: piece) (free : ¬ separator <:+: piece) :
    ¬ separator <:+: c :: piece := by
  intro inside
  rcases List.infix_cons_iff.mp inside with start | later
  · exact outside start
  · exact free later

theorem splitText_spec (nonempty : separator ≠ []) (text : List α) : ∃ records trailer,
    splitText separator text = records ++ [trailer] ∧ text = joinRecords separator records trailer ∧
      (∀ record ∈ records, ¬ separator <:+: record) ∧ ¬ separator <:+: trailer := by
  have empty : ¬ separator <:+: ([] : List α) := by
    intro inside
    exact nonempty (List.infix_nil.mp inside)
  induction known : text.length using Nat.strong_induction_on generalizing text with
  | _ size ih =>
    cases text with
    | nil => exact ⟨[], [], rfl, rfl, nofun, empty⟩
    | cons c rest =>
      by_cases start : separator <+: c :: rest
      · rcases start with ⟨tail, same⟩
        have shorter : tail.length < size := by
          have lengths := congrArg List.length same
          have positive := List.length_pos_iff.mpr nonempty
          rw [List.length_append] at lengths
          omega
        rcases ih tail.length shorter tail rfl with ⟨records, trailer, cut, joined, free, last⟩
        refine ⟨[] :: records, trailer, ?_, ?_, ?_, last⟩
        · rw [← same, splitText_separator nonempty, cut]
          rfl
        · rw [← same, joined]
          simp [joinRecords]
        · intro record member
          rcases List.mem_cons.mp member with rfl | member
          · exact empty
          · exact free record member
      · have shorter : rest.length < size := by
          rw [List.length_cons] at known
          omega
        rcases ih rest.length shorter rest rfl with ⟨records, trailer, cut, joined, free, last⟩
        cases records with
        | nil =>
          refine ⟨[], c :: trailer, splitText_cons start cut, by rw [joined]; rfl, nofun, ?_⟩
          apply not_infix_cons _ last
          rwa [joined] at start
        | cons record others =>
          refine ⟨(c :: record) :: others, trailer, splitText_cons start cut, by rw [joined]; simp [joinRecords], ?_, last⟩
          intro other member
          rcases List.mem_cons.mp member with rfl | member
          · apply not_infix_cons _ (free record List.mem_cons_self)
            intro early
            apply start
            rw [joined]
            apply early.trans
            simp only [joinRecords, List.flatMap_cons, List.append_assoc]
            exact List.prefix_append (c :: record) _
          · exact free other (List.mem_cons_of_mem _ member)

end Library

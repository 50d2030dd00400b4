import Mathlib.Data.List.Induction
import Mathlib.Data.List.Perm.Subperm
import Mathlib.Data.List.Sort
import Mathlib.Data.Prod.Lex

namespace Library

section Sorting

variable {α κ : Type*} [LinearOrder κ] {key : α → κ} {xs ys : List α}

/-- The elements of a list by their keys; those of one key stay in their order. -/
def sortByKey (key : α → κ) (xs : List α) : List α :=
  xs.insertionSort fun a b => key a ≤ key b

theorem perm_sortByKey (key : α → κ) (xs : List α) : (sortByKey key xs).Perm xs :=
  List.perm_insertionSort _ xs

theorem mem_sortByKey {x : α} : x ∈ sortByKey key xs ↔ x ∈ xs :=
  (perm_sortByKey key xs).mem_iff

theorem pairwise_sortByKey (key : α → κ) (xs : List α) : (sortByKey key xs).Pairwise fun a b => key a ≤ key b := by
  have total : Std.Total fun a b : α => key a ≤ key b := ⟨fun a b => le_total (key a) (key b)⟩
  have transitive : IsTrans α fun a b => key a ≤ key b := ⟨fun a b c => le_trans⟩
  exact List.pairwise_insertionSort _ xs

theorem insertionSort_eq_sortByKey {r : α → α → Prop} [DecidableRel r] (same : ∀ a b, r a b ↔ key a ≤ key b) :
    xs.insertionSort r = sortByKey key xs := by
  have equal : r = fun a b => key a ≤ key b := by
    funext a b
    exact propext (same a b)
  subst equal
  unfold sortByKey
  congr

theorem strict_sortByKey (distinct : (xs.map key).Nodup) :
    (sortByKey key xs).Pairwise fun a b => key a < key b := by
  have keys : ((sortByKey key xs).map key).Nodup := ((perm_sortByKey key xs).map key).nodup_iff.mpr distinct
  rw [List.nodup_iff_pairwise_ne, List.pairwise_map] at keys
  apply ((pairwise_sortByKey key xs).and keys).imp
  intro a b both
  exact lt_of_le_of_ne both.1 both.2

theorem sortByKey_congr (perm : xs.Perm ys) (distinct : (xs.map key).Nodup) : sortByKey key xs = sortByKey key ys := by
  have same : (sortByKey key xs).Perm (sortByKey key ys) :=
    ((perm_sortByKey key xs).trans perm).trans (perm_sortByKey key ys).symm
  apply @List.Perm.eq_of_pairwise α (fun a b => key a < key b) _ _ _ _ _ same
  · intro a b _ _ below above
    exact (lt_asymm below above).elim
  · exact strict_sortByKey distinct
  · exact strict_sortByKey ((perm.map key).nodup_iff.mp distinct)

end Sorting

section Ranking

variable {α κ ρ : Type*} [DecidableEq κ] [LinearOrder ρ] {key : α → κ} {rank : α → ρ} {xs ys best : List α}
  {x z : α} {limit : ℕ}

/-- An element joins the ones with other keys, or takes the place of the one with its key if it ranks before it. -/
def insertBest (key : α → κ) (rank : α → ρ) : List α → α → List α
  | [], x => [x]
  | y :: rest, x =>
    if key y = key x then (if rank x < rank y then x else y) :: rest
    else y :: insertBest key rank rest x

def bestOfEach (key : α → κ) (rank : α → ρ) (xs : List α) : List α := xs.foldl (insertBest key rank) []

theorem mem_insertBest (member : z ∈ insertBest key rank best x) : z = x ∨ z ∈ best := by
  induction best with
  | nil => exact .inl (List.mem_singleton.mp member)
  | cons y rest ih =>
    unfold insertBest at member
    split at member
    · rcases List.mem_cons.mp member with rfl | later
      · split
        · exact .inl rfl
        · exact .inr List.mem_cons_self
      · exact .inr (List.mem_cons_of_mem _ later)
    · rcases List.mem_cons.mp member with rfl | later
      · exact .inr List.mem_cons_self
      · rcases ih later with same | before
        · exact .inl same
        · exact .inr (List.mem_cons_of_mem _ before)

theorem keys_insertBest : (insertBest key rank best x).map key =
    if key x ∈ best.map key then best.map key else best.map key ++ [key x] := by
  induction best with
  | nil => rfl
  | cons y rest ih =>
    unfold insertBest
    by_cases same : key y = key x
    · have listed : key x ∈ (y :: rest).map key := by
        rw [List.map_cons, same]
        exact List.mem_cons_self
      rw [if_pos same, if_pos listed]
      by_cases before : rank x < rank y
      · rw [if_pos before, List.map_cons, List.map_cons, same]
      · rw [if_neg before]
    · rw [if_neg same, List.map_cons, ih]
      have iff : key x ∈ (y :: rest).map key ↔ key x ∈ rest.map key := by
        rw [List.map_cons, List.mem_cons]
        exact or_iff_right fun equal => same equal.symm
      by_cases listed : key x ∈ rest.map key
      · rw [if_pos listed, if_pos (iff.mpr listed), List.map_cons]
      · rw [if_neg listed, if_neg fun found => listed (iff.mp found), List.map_cons, List.cons_append]

theorem reached_insertBest (member : z = x ∨ z ∈ best) :
    ∃ y ∈ insertBest key rank best x, key y = key z ∧ rank y ≤ rank z := by
  induction best with
  | nil =>
    rcases member with rfl | absent
    · exact ⟨z, List.mem_singleton_self z, rfl, le_refl _⟩
    · cases absent
  | cons y rest ih =>
    unfold insertBest
    by_cases same : key y = key x
    · rw [if_pos same]
      by_cases before : rank x < rank y
      · rw [if_pos before]
        rcases member with rfl | listed
        · exact ⟨z, List.mem_cons_self, rfl, le_refl _⟩
        · rcases List.mem_cons.mp listed with rfl | later
          · exact ⟨x, List.mem_cons_self, same.symm, before.le⟩
          · exact ⟨z, List.mem_cons_of_mem _ later, rfl, le_refl _⟩
      · rw [if_neg before]
        rcases member with rfl | listed
        · exact ⟨y, List.mem_cons_self, same, not_lt.mp before⟩
        · exact ⟨z, listed, rfl, le_refl _⟩
    · rw [if_neg same]
      have later : z = x ∨ z ∈ rest → ∃ w ∈ y :: insertBest key rank rest x, key w = key z ∧ rank w ≤ rank z := by
        intro inside
        rcases ih inside with ⟨w, found, reached⟩
        exact ⟨w, List.mem_cons_of_mem _ found, reached⟩
      rcases member with same | listed
      · exact later (.inl same)
      · rcases List.mem_cons.mp listed with rfl | behind
        · exact ⟨z, List.mem_cons_self, rfl, le_refl _⟩
        · exact later (.inr behind)

structure BestOf (key : α → κ) (rank : α → ρ) (xs best : List α) : Prop where
  distinct : (best.map key).Nodup
  present : ∀ y ∈ best, y ∈ xs
  reached : ∀ x ∈ xs, ∃ y ∈ best, key y = key x ∧ rank y ≤ rank x

theorem BestOf.insert (sound : BestOf key rank xs best) (x : α) :
    BestOf key rank (xs ++ [x]) (insertBest key rank best x) := by
  refine ⟨?_, ?_, ?_⟩
  · rw [keys_insertBest]
    split
    · exact sound.distinct
    · rename_i fresh
      rw [List.nodup_append]
      refine ⟨sound.distinct, List.nodup_singleton _, ?_⟩
      intro k listed k' single same
      rw [List.mem_singleton.mp single] at same
      exact fresh (same ▸ listed)
  · intro y member
    rcases mem_insertBest member with rfl | before
    · exact List.mem_append_right _ (List.mem_singleton_self y)
    · exact List.mem_append_left _ (sound.present y before)
  · intro z member
    rcases List.mem_append.mp member with earlier | last
    · rcases sound.reached z earlier with ⟨y, found, same, below⟩
      have still : ∃ w ∈ insertBest key rank best x, key w = key y ∧ rank w ≤ rank y := reached_insertBest (.inr found)
      rcases still with ⟨w, kept, again, lower⟩
      exact ⟨w, kept, again.trans same, lower.trans below⟩
    · exact reached_insertBest (.inl (List.mem_singleton.mp last))

theorem bestOf_bestOfEach (key : α → κ) (rank : α → ρ) (xs : List α) :
    BestOf key rank xs (bestOfEach key rank xs) := by
  induction xs using List.reverseRecOn with
  | nil => exact ⟨List.nodup_nil, fun y member => member, fun x member => nomatch member⟩
  | append_singleton earlier x ih =>
    unfold bestOfEach
    rw [List.foldl_append]
    exact ih.insert x

omit [DecidableEq κ] in
theorem BestOf.mem_iff (sound : BestOf key rank xs best) (injective : Function.Injective rank) :
    x ∈ best ↔ x ∈ xs ∧ ∀ y ∈ xs, key y = key x → rank x ≤ rank y := by
  constructor
  · intro member
    refine ⟨sound.present x member, ?_⟩
    intro y listed same
    rcases sound.reached y listed with ⟨w, found, equal, below⟩
    have single : w = x := List.inj_on_of_nodup_map sound.distinct found member (equal.trans same)
    rw [← single]
    exact below
  · rintro ⟨listed, first⟩
    rcases sound.reached x listed with ⟨w, found, same, below⟩
    have equal : w = x := injective (le_antisymm below (first w (sound.present w found) same))
    rw [← equal]
    exact found

omit [DecidableEq κ] in
/-- Which elements there are decides which are first of their keys, in whatever order they come. -/
theorem BestOf.perm {others : List α} (sound : BestOf key rank xs best) (others_sound : BestOf key rank ys others)
    (same : ∀ x, x ∈ xs ↔ x ∈ ys) (injective : Function.Injective rank) : best.Perm others := by
  rw [List.perm_ext_iff_of_nodup (sound.distinct.of_map _) (others_sound.distinct.of_map _)]
  intro x
  rw [sound.mem_iff injective, others_sound.mem_iff injective]
  simp only [same]

omit [DecidableEq κ] in
theorem mem_take_iff (sorted : xs.Pairwise fun a b => rank a < rank b) :
    x ∈ xs.take limit ↔ x ∈ xs ∧ xs.countP (fun y => decide (rank y < rank x)) < limit := by
  induction xs generalizing limit with
  | nil => simp
  | cons y rest ih =>
    rcases List.pairwise_cons.mp sorted with ⟨first, later⟩
    cases limit with
    | zero => simp
    | succ limit =>
      rw [List.take_succ_cons, List.mem_cons, List.mem_cons, List.countP_cons, ih later]
      constructor
      · rintro (rfl | ⟨member, few⟩)
        · have none : rest.countP (fun y => decide (rank y < rank x)) = 0 := by
            rw [List.countP_eq_zero]
            intro z member
            simpa using (first z member).le
          refine ⟨.inl rfl, ?_⟩
          simp [none]
        · refine ⟨.inr member, ?_⟩
          rw [decide_eq_true (first x member), if_pos rfl]
          omega
      · rintro ⟨rfl | member, few⟩
        · exact .inl rfl
        · right
          rw [decide_eq_true (first x member), if_pos rfl] at few
          exact ⟨member, by omega⟩

def ranked (key : α → κ) (rank : α → ρ) (limit : ℕ) (xs : List α) : List α :=
  (sortByKey rank (bestOfEach key rank xs)).take limit

theorem ranked_perm (limit : ℕ) (same : ∀ x, x ∈ xs ↔ x ∈ ys) (injective : Function.Injective rank) :
    ranked key rank limit xs = ranked key rank limit ys := by
  have sound := bestOf_bestOfEach key rank xs
  have perm := sound.perm (bestOf_bestOfEach key rank ys) same injective
  unfold ranked
  rw [sortByKey_congr perm ((sound.distinct.of_map _).map injective)]

theorem sorted_ranked (injective : Function.Injective rank) :
    (ranked key rank limit xs).Pairwise fun a b => rank a < rank b :=
  (strict_sortByKey (((bestOf_bestOfEach key rank xs).distinct.of_map _).map injective)).sublist (List.take_sublist _ _)

theorem distinct_ranked : ((ranked key rank limit xs).map key).Nodup := by
  have sorted : ((sortByKey rank (bestOfEach key rank xs)).map key).Nodup :=
    ((perm_sortByKey rank _).map key).nodup_iff.mpr (bestOf_bestOfEach key rank xs).distinct
  exact List.Nodup.sublist ((List.take_sublist _ _).map key) sorted

theorem length_ranked : (ranked key rank limit xs).length ≤ limit := List.length_take_le _ _

/-- An element comes after one with its key, or after as many keys as the limit allows. -/
def Outranked (key : α → κ) (rank : α → ρ) (present : α → Prop) (limit : ℕ) (x : α) : Prop :=
  (∃ y, present y ∧ key y = key x ∧ rank y < rank x) ∨
    ∃ keys : List κ, keys.Nodup ∧ keys.length = limit ∧ ∀ k ∈ keys, ∃ y, present y ∧ key y = k ∧ rank y < rank x

omit [DecidableEq κ] in
theorem BestOf.limit_le_iff (sound : BestOf key rank xs best) :
    limit ≤ best.countP (fun y => decide (rank y < rank x)) ↔
      ∃ keys : List κ, keys.Nodup ∧ keys.length = limit ∧ ∀ k ∈ keys, ∃ y, y ∈ xs ∧ key y = k ∧ rank y < rank x := by
  have before : best.countP (fun y => decide (rank y < rank x)) =
      ((best.filter fun y => decide (rank y < rank x)).map key).length := by
    rw [List.countP_eq_length_filter, List.length_map]
  have nodup : ((best.filter fun y => decide (rank y < rank x)).map key).Nodup :=
    List.Nodup.sublist (List.filter_sublist.map key) sound.distinct
  rw [before]
  constructor
  · intro enough
    refine ⟨((best.filter fun y => decide (rank y < rank x)).map key).take limit, ?_, ?_, ?_⟩
    · exact List.Nodup.sublist (List.take_sublist _ _) nodup
    · rw [List.length_take, min_eq_left enough]
    · intro k member
      rcases List.mem_map.mp (List.mem_of_mem_take member) with ⟨y, kept, same⟩
      rcases List.mem_filter.mp kept with ⟨found, below⟩
      exact ⟨y, sound.present y found, same, of_decide_eq_true below⟩
  · rintro ⟨keys, distinct, rfl, each⟩
    apply List.Subperm.length_le
    apply List.subperm_of_subset distinct
    intro k member
    rcases each k member with ⟨y, listed, same, below⟩
    rcases sound.reached y listed with ⟨w, found, equal, lower⟩
    rw [List.mem_map]
    refine ⟨w, ?_, equal.trans same⟩
    rw [List.mem_filter]
    exact ⟨found, decide_eq_true (lower.trans_lt below)⟩

theorem mem_ranked_iff (injective : Function.Injective rank) :
    x ∈ ranked key rank limit xs ↔ x ∈ xs ∧ ¬ Outranked key rank (· ∈ xs) limit x := by
  have sound := bestOf_bestOfEach key rank xs
  unfold ranked Outranked
  rw [mem_take_iff (strict_sortByKey ((sound.distinct.of_map _).map injective)), mem_sortByKey,
    (perm_sortByKey rank _).countP_eq, ← not_le, sound.limit_le_iff, sound.mem_iff injective, not_or, and_assoc]
  have first : (∀ y ∈ xs, key y = key x → rank x ≤ rank y) ↔ ¬ ∃ y, y ∈ xs ∧ key y = key x ∧ rank y < rank x := by
    constructor
    · rintro first ⟨y, listed, same, below⟩
      exact absurd (first y listed same) (not_le.mpr below)
    · intro none y listed same
      exact not_lt.mp fun below => none ⟨y, listed, same, below⟩
  rw [first]

end Ranking

end Library

import Mathlib.Data.Finset.SDiff
import Mathlib.Data.Finset.Card
import Mathlib.Logic.Relation

namespace Library

open Relation

section Walks

variable {α : Type*} {r : α → α → Prop} {a b c : α}

/-- A walk that keeps off some places: none of its steps leaves from there. -/
def Avoiding (r : α → α → Prop) (avoided : Set α) (a b : α) : Prop := r a b ∧ a ∉ avoided

theorem avoiding_empty : Avoiding r ∅ = r := by
  funext a b
  simp [Avoiding]

theorem Avoiding.mono {fewer more : Set α} (subset : fewer ⊆ more) (walk : ReflTransGen (Avoiding r more) a b) :
    ReflTransGen (Avoiding r fewer) a b := by
  apply ReflTransGen.mono _ _ _ walk
  exact fun _ _ step => ⟨step.1, fun avoided => step.2 (subset avoided)⟩

theorem last_departure (walk : ReflTransGen r a b) :
    a = b ∨ ∃ next, r a next ∧ ReflTransGen (Avoiding r {a}) next b := by
  induction walk with
  | refl => exact .inl rfl
  | @tail middle last walk step ih =>
    right
    by_cases same : middle = a
    · rw [same] at step
      exact ⟨last, step, .refl⟩
    · rcases ih with rfl | ⟨next, departs, rest⟩
      · exact absurd rfl same
      · exact ⟨next, departs, rest.tail ⟨step, same⟩⟩

/-- Where some places are avoided, a walk ends where it starts, or goes on from a place that is avoided from then on. -/
theorem avoiding_iff {avoided : Set α} (free : a ∉ avoided) : ReflTransGen (Avoiding r avoided) a b ↔
    a = b ∨ ∃ next, r a next ∧ ReflTransGen (Avoiding r (insert a avoided)) next b := by
  constructor
  · intro walk
    rcases last_departure walk with same | ⟨next, departs, rest⟩
    · exact .inl same
    · refine .inr ⟨next, departs.1, ?_⟩
      apply ReflTransGen.mono _ _ _ rest
      rintro x y ⟨⟨step, kept⟩, apart⟩
      exact ⟨step, fun avoids => avoids.elim apart kept⟩
  · rintro (rfl | ⟨next, departs, rest⟩)
    · exact .refl
    · exact .head ⟨departs, free⟩ (Avoiding.mono (Set.subset_insert a avoided) rest)

def AcyclicFrom (r : α → α → Prop) (a : α) : Prop := ∀ b, ReflTransGen r a b → ¬ TransGen r b b

theorem AcyclicFrom.step (acyclic : AcyclicFrom r a) (step : r a b) : AcyclicFrom r b :=
  fun c walk => acyclic c (.head step walk)

theorem AcyclicFrom.apart (acyclic : AcyclicFrom r a) (step : r a b) (walk : ReflTransGen r b c) : c ≠ a := by
  rintro rfl
  exact acyclic c .refl (TransGen.head' step walk)

theorem acyclicFrom_of_steps (apart : ∀ b, r a b → ¬ ReflTransGen r b a) (acyclic : ∀ b, r a b → AcyclicFrom r b) :
    AcyclicFrom r a := by
  intro b walk cycle
  rcases ReflTransGen.cases_head walk with rfl | ⟨next, step, rest⟩
  · rcases TransGen.head'_iff.mp cycle with ⟨next, step, back⟩
    exact apart next step back
  · exact acyclic next step b rest cycle

theorem card_sdiff_insert_lt [DecidableEq α] {places active : Finset α} (place : a ∈ places) (free : a ∉ active) :
    (places \ insert a active).card < (places \ active).card := by
  apply Finset.card_lt_card
  rw [Finset.ssubset_iff_of_subset (Finset.sdiff_subset_sdiff le_rfl (Finset.subset_insert a active))]
  exact ⟨a, Finset.mem_sdiff.mpr ⟨place, free⟩, fun member => (Finset.mem_sdiff.mp member).2 (Finset.mem_insert_self a active)⟩

end Walks

end Library

import Mathlib.Data.List.Basic
import Mathlib.Order.Basic

namespace Library

/-- A file that is replaced by renaming. The contents that took its name since the directory was synchronized are
pending, oldest first; each of them may become durable at any time. -/
structure Versions (α : Type) where
  durable : Option α := none
  pending : List α := []

/-- A save can be refused, take the name without being synchronized, or succeed. -/
inductive SaveOutcome where
  | refused
  | unsynced
  | saved
  deriving DecidableEq

namespace Versions

variable {α : Type} {versions later : Versions α} {a : α}

def all (versions : Versions α) : List α := versions.durable.toList ++ versions.pending

def visible (versions : Versions α) : Option α := versions.all.getLast?

def renamed (versions : Versions α) (a : α) : Versions α := { versions with pending := versions.pending ++ [a] }

def synchronized (versions : Versions α) : Versions α := ⟨versions.visible, []⟩

def after (versions : Versions α) (a : α) : SaveOutcome → Versions α
  | .refused => versions
  | .unsynced => versions.renamed a
  | .saved => (versions.renamed a).synchronized

def powerLoss (versions : Versions α) : Versions α := { versions with pending := [] }

inductive Writeback : Versions α → Versions α → Prop where
  | write (durable : Option α) (a : α) (rest : List α) : Writeback ⟨durable, a :: rest⟩ ⟨some a, rest⟩

theorem mem_of_visible (visible : versions.visible = some a) : a ∈ versions.all := List.mem_of_getLast? visible

theorem mem_of_durable (durable : versions.durable = some a) : a ∈ versions.all := by
  rw [all, durable]
  exact List.mem_cons_self

theorem all_of_visible_eq_none (nothing : versions.visible = none) : versions.all = [] := List.getLast?_eq_none_iff.mp nothing

theorem all_renamed (versions : Versions α) (a : α) : (versions.renamed a).all = versions.all ++ [a] :=
  (List.append_assoc ..).symm

theorem visible_renamed (versions : Versions α) (a : α) : (versions.renamed a).visible = some a := by
  rw [visible, all_renamed, List.getLast?_concat]

theorem after_saved (versions : Versions α) (a : α) : versions.after a .saved = ⟨some a, []⟩ := by
  show (⟨(versions.renamed a).visible, []⟩ : Versions α) = _
  rw [visible_renamed]

theorem sublist_after (versions : Versions α) (a : α) (outcome : SaveOutcome) :
    (versions.after a outcome).all.Sublist (versions.all ++ [a]) := by
  cases outcome with
  | refused => exact List.sublist_append_left _ _
  | unsynced =>
    show (versions.renamed a).all.Sublist _
    rw [all_renamed]
  | saved =>
    rw [after_saved]
    exact List.sublist_append_right _ _

theorem sublist_powerLoss (versions : Versions α) : versions.powerLoss.all.Sublist versions.all := by
  unfold powerLoss all
  rw [List.append_nil]
  exact List.sublist_append_left _ _

theorem Writeback.sublist (written : Writeback versions later) : later.all.Sublist versions.all := by
  cases written with
  | write durable a rest =>
    show (a :: rest).Sublist (durable.toList ++ a :: rest)
    exact List.sublist_append_right _ _

theorem Writeback.visible (written : Writeback versions later) : later.visible = versions.visible := by
  cases written with
  | write durable a rest =>
    show (a :: rest).getLast? = (durable.toList ++ a :: rest).getLast?
    rw [List.getLast?_append_of_ne_nil _ (List.cons_ne_nil a rest)]

theorem Writeback.not_settled (written : Writeback versions later) : versions.pending ≠ [] := by
  cases written
  exact List.cons_ne_nil _ _

theorem le_visible {R : α → α → Prop} (refl : ∀ a, R a a) (ordered : versions.all.Pairwise R)
    (visible : versions.visible = some a) : ∀ b ∈ versions.all, R b a := by
  intro b member
  rcases List.getLast?_eq_some_iff.mp visible with ⟨earlier, split⟩
  rw [split] at ordered member
  rcases List.mem_append.mp member with member | member
  · exact (List.pairwise_append.mp ordered).2.2 b member a List.mem_cons_self
  · rw [List.mem_singleton.mp member]
    exact refl a

theorem pairwise_after {R : α → α → Prop} (refl : ∀ a, R a a) (trans : ∀ {a b c}, R a b → R b c → R a c)
    (ordered : versions.all.Pairwise R) (follows : ∀ b, versions.visible = some b → R b a) (outcome : SaveOutcome) :
    (versions.after a outcome).all.Pairwise R := by
  apply List.Pairwise.sublist (sublist_after versions a outcome)
  rw [List.pairwise_append]
  refine ⟨ordered, List.pairwise_singleton _ _, ?_⟩
  intro b member c last
  rw [List.mem_singleton.mp last]
  cases visible : versions.visible with
  | none =>
    rw [all_of_visible_eq_none visible] at member
    cases member
  | some newest => exact trans (le_visible refl ordered visible b member) (follows newest visible)

end Versions

end Library

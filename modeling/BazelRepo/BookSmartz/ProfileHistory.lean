import BazelRepo.BookSmartz.ProfileSaves
import Mathlib.Data.List.Nodup

namespace BookSmartz.ProfileSaves

open Library

/-- What can become of a submission: only a pending one gets an outcome. -/
structure Submission.Becomes (before after : Submission) : Prop where
  id : after.id = before.id
  revision : after.revision = before.revision
  text : after.text = before.text
  outcome : before.outcome ≠ .pending → after.outcome = before.outcome

theorem Submission.Becomes.refl (row : Submission) : row.Becomes row := ⟨rfl, rfl, rfl, fun _ => rfl⟩

theorem Submission.Becomes.trans {first second third : Submission} (one : first.Becomes second)
    (two : second.Becomes third) : first.Becomes third where
  id := two.id.trans one.id
  revision := two.revision.trans one.revision
  text := two.text.trans one.text
  outcome := by
    intro decided
    have kept := one.outcome decided
    rw [two.outcome (kept ▸ decided), kept]

theorem accepted_of_constrained {tables after : Tables} (accepted : constrained tables = .ok after) :
    after = tables ∧ tables.Accepted := by
  unfold constrained at accepted
  split at accepted
  · rename_i holds
    cases accepted
    exact ⟨rfl, holds⟩
  · cases accepted

theorem id_of_find? {rows : List Submission} {id : SaveId} {row : Submission}
    (found : rows.find? (fun row => row.id = id) = some row) : row.id = id := by
  have named : decide (row.id = id) = true := List.find?_some (p := fun row : Submission => row.id = id) found
  simpa using named

theorem Tables.id_of_row {tables : Tables} {id : SaveId} {row : Submission} (found : tables.row id = some row) :
    row.id = id := id_of_find? found

theorem Tables.mem_of_row {tables : Tables} {id : SaveId} {row : Submission} (found : tables.row id = some row) :
    row ∈ tables.submissions := List.mem_of_find?_eq_some found

theorem Tables.insert_eq_ok {tables after : Tables} {row : Submission} (inserted : tables.insert row = .ok after)
    (absent : tables.row row.id = none) : after.Accepted ∧ after.profile = tables.profile ∧
      ∀ id, after.row id = if id = row.id then some row else tables.row id := by
  rcases accepted_of_constrained inserted with ⟨rfl, accepted⟩
  refine ⟨accepted, rfl, ?_⟩
  intro id
  unfold Tables.row at absent ⊢
  dsimp only
  rw [List.find?_append]
  by_cases same : id = row.id
  · subst same
    rw [absent]
    simp
  · rw [if_neg same]
    have other : row.id ≠ id := fun equal => same equal.symm
    cases tables.submissions.find? (fun row => row.id = id) <;> simp [other]

theorem Tables.update_eq_ok {tables after : Tables} {id : SaveId} {change : Submission → Submission}
    (updated : tables.update id change = .ok after) (named : ∀ row, (change row).id = row.id) :
    after.Accepted ∧ after.profile = tables.profile ∧
      ∀ other, after.row other = if other = id then (tables.row id).map change else tables.row other := by
  rcases accepted_of_constrained updated with ⟨rfl, accepted⟩
  refine ⟨accepted, rfl, ?_⟩
  intro other
  unfold Tables.row
  dsimp only
  rw [List.find?_map]
  have same : ((fun row : Submission => decide (row.id = other)) ∘ fun row => if row.id = id then change row else row) =
      fun row => decide (row.id = other) := by
    funext row
    by_cases changed : row.id = id <;> simp [changed, named]
  rw [same]
  by_cases equal : other = id
  · subst equal
    rw [if_pos rfl]
    cases found : tables.submissions.find? (fun row => row.id = other) with
    | none => rfl
    | some row =>
      have named := id_of_find? found
      simp [named]
  · rw [if_neg equal]
    cases found : tables.submissions.find? (fun row => row.id = other) with
    | none => rfl
    | some row =>
      have named := id_of_find? found
      simp [named, equal]

theorem Tables.setProfile_eq_ok {tables after : Tables} {profile : Profile} (set : tables.setProfile profile = .ok after) :
    after.Accepted ∧ after.submissions = tables.submissions ∧ after.profile = some profile := by
  rcases accepted_of_constrained set with ⟨rfl, accepted⟩
  exact ⟨accepted, rfl, rfl⟩

theorem find_eq_some {tables : Tables} {id : SaveId} {found : Attempt} (search : find tables id = some found) :
    ∃ row, tables.row id = some row ∧ attempt row = found := by
  simpa [find] using search

theorem find_eq_none {tables : Tables} {id : SaveId} (search : find tables id = none) : tables.row id = none := by
  simpa [find] using search

inductive Change (before after : Tables) : List Write → Prop where
  | same (same : after = before) : Change before after []
  | inserted {row : Submission} (absent : before.row row.id = none) (unsaved : row.outcome ≠ .saved)
    (rows : ∀ id, after.row id = if id = row.id then some row else before.row id)
    (profile : after.profile = before.profile) : Change before after []
  | decided {row new : Submission} (present : before.row row.id = some row) (becomes : row.Becomes new)
    (unsaved : new.outcome = .saved → row.outcome = .saved)
    (rows : ∀ id, after.row id = if id = row.id then some new else before.row id)
    (profile : after.profile = before.profile) : Change before after []
  | applied {row : Submission} {text : Text} (present : before.row row.id = some row) (pending : row.outcome = .pending)
    (submitted : row.text = some text) (current : revisionOf before = row.revision)
    (rows : ∀ id, after.row id = if id = row.id then some { row with outcome := .saved } else before.row id)
    (profile : after.profile = some ⟨text, row.revision + 1, true⟩) :
    Change before after [⟨row.id, text, row.revision, row.revision + 1⟩]
  | imported (rows : after.submissions = before.submissions) (kept : revisionOf after = revisionOf before)
    (first : ∀ profile ∈ before.profile, profile.importAttempted = false) : Change before after []

def Tables.Wrote (tables : Tables) (index : Nat) (write : Write) : Prop :=
  write.before = index ∧ write.after = index + 1 ∧ ∃ row, tables.row write.id = some row ∧ row.outcome = .saved ∧
    row.revision = write.before ∧ row.text = some write.text

structure History.Inv (history : History) : Prop where
  accepted : history.tables.Accepted
  written : ∀ (index : Nat) (write : Write), history.writes[index]? = some write → history.tables.Wrote index write
  saved : ∀ id row, history.tables.row id = some row → row.outcome = .saved → ∃ write ∈ history.writes, write.id = id
  revision : revisionOf history.tables = history.writes.length
  current : ∀ write, history.writes.getLast? = some write → ∃ profile, history.tables.profile = some profile ∧
    profile.text = write.text ∧ profile.importAttempted = true

structure History.May (before after : History) : Prop where
  writes : before.writes <+: after.writes
  rows : ∀ id row, before.tables.row id = some row → ∃ later, after.tables.row id = some later ∧ row.Becomes later

theorem History.May.refl (history : History) : history.May history :=
  ⟨List.prefix_refl _, fun _ row found => ⟨row, found, .refl row⟩⟩

theorem History.May.trans {first second third : History} (one : first.May second) (two : second.May third) :
    first.May third where
  writes := one.writes.trans two.writes
  rows := by
    intro id row found
    rcases one.rows id row found with ⟨middle, kept, becomes⟩
    rcases two.rows id middle kept with ⟨last, stays, more⟩
    exact ⟨last, stays, becomes.trans more⟩

theorem History.Inv.rewritten {before : History} (inv : before.Inv) {after : Tables}
    (rows : ∀ id row, before.tables.row id = some row → ∃ later, after.row id = some later ∧ row.Becomes later) :
    ∀ (index : Nat) (write : Write), before.writes[index]? = some write → after.Wrote index write := by
  intro index write listed
  rcases inv.written index write listed with ⟨position, raised, row, found, saved, revision, text⟩
  rcases rows write.id row found with ⟨later, kept, becomes⟩
  have decided : row.outcome ≠ .pending := by
    rw [saved]
    decide
  exact ⟨position, raised, later, kept, (becomes.outcome decided).trans saved, becomes.revision.trans revision,
    becomes.text.trans text⟩

theorem History.Inv.unwritten {before : History} (inv : before.Inv) {after : Tables} (accepted : after.Accepted)
    (rows : ∀ id row, before.tables.row id = some row → ∃ later, after.row id = some later ∧ row.Becomes later)
    (saved : ∀ id row, after.row id = some row → row.outcome = .saved →
      ∃ earlier, before.tables.row id = some earlier ∧ earlier.outcome = .saved)
    (profile : after.profile = before.tables.profile) :
    History.Inv ⟨after, before.writes ++ []⟩ ∧ before.May ⟨after, before.writes ++ []⟩ := by
  rw [List.append_nil]
  refine ⟨⟨accepted, inv.rewritten rows, ?_, ?_, ?_⟩, List.prefix_refl _, rows⟩
  · intro id row found decided
    rcases saved id row found decided with ⟨earlier, before, kept⟩
    exact inv.saved id earlier before kept
  · show revisionOf after = _
    rw [revisionOf, profile]
    exact inv.revision
  · show ∀ write, _ → ∃ stored, after.profile = some stored ∧ _
    rw [profile]
    exact inv.current

/-- One committed transaction keeps the invariant. -/
theorem Change.inv {before : History} (inv : before.Inv) {after : Tables} (accepted : after.Accepted)
    {new : List Write} (change : Change before.tables after new) :
    History.Inv ⟨after, before.writes ++ new⟩ ∧ before.May ⟨after, before.writes ++ new⟩ := by
  cases change with
  | same same =>
    subst same
    rw [List.append_nil]
    exact ⟨inv, .refl before⟩
  | inserted absent unsaved rows profile =>
    rename_i new
    apply inv.unwritten accepted _ _ profile
    · intro id row found
      refine ⟨row, ?_, .refl row⟩
      rw [rows, if_neg _, found]
      rintro rfl
      rw [absent] at found
      cases found
    · intro id row found saved
      rw [rows] at found
      split at found
      · cases found
        exact absurd saved unsaved
      · exact ⟨row, found, saved⟩
  | decided present becomes unsaved rows profile =>
    rename_i old new
    apply inv.unwritten accepted _ _ profile
    · intro id row found
      rw [rows]
      split
      · rename_i same
        subst same
        rw [present] at found
        cases found
        exact ⟨new, rfl, becomes⟩
      · exact ⟨row, found, .refl row⟩
    · intro id row found saved
      rw [rows] at found
      split at found
      · rename_i same
        subst same
        cases found
        exact ⟨old, present, unsaved saved⟩
      · exact ⟨row, found, saved⟩
  | applied present pending submitted current rows profile =>
    rename_i row text
    have keeps : ∀ id other, before.tables.row id = some other → ∃ later, after.row id = some later ∧ other.Becomes later := by
      intro id other found
      rw [rows]
      split
      · rename_i same
        subst same
        rw [present] at found
        cases found
        exact ⟨_, rfl, rfl, rfl, rfl, fun decided => absurd pending decided⟩
      · exact ⟨other, found, .refl other⟩
    have counted : row.revision = before.writes.length := current.symm.trans inv.revision
    refine ⟨⟨accepted, ?_, ?_, ?_, ?_⟩, List.prefix_append _ _, keeps⟩
    · intro index write listed
      dsimp only at listed
      by_cases earlier : index < before.writes.length
      · rw [List.getElem?_append_left earlier] at listed
        exact inv.rewritten keeps index write listed
      · rw [List.getElem?_append_right (Nat.le_of_not_lt earlier), List.getElem?_singleton] at listed
        split at listed
        · rename_i last
          cases listed
          have position : index = before.writes.length := by omega
          subst position
          refine ⟨counted, ?_, { row with outcome := .saved }, ?_, rfl, rfl, submitted⟩
          · show row.revision + 1 = _
            rw [counted]
          · dsimp only
            rw [rows, if_pos rfl]
        · cases listed
    · intro id other found saved
      dsimp only at found ⊢
      rw [rows] at found
      split at found
      · rename_i same
        subst same
        exact ⟨_, List.mem_append_right _ List.mem_cons_self, rfl⟩
      · rcases inv.saved id other found saved with ⟨write, member, named⟩
        exact ⟨write, List.mem_append_left _ member, named⟩
    · dsimp only
      rw [revisionOf, profile, List.length_append, Option.map_some, Option.getD_some, counted]
      rfl
    · intro write last
      dsimp only at last
      rw [List.getLast?_concat] at last
      cases last
      exact ⟨_, profile, rfl, rfl⟩
  | imported rows kept first =>
    rw [List.append_nil]
    have same : ∀ id, after.row id = before.tables.row id := by
      intro id
      rw [Tables.row, rows, Tables.row]
    have keeps : ∀ id row, before.tables.row id = some row → ∃ later, after.row id = some later ∧ row.Becomes later := by
      intro id row found
      rw [same]
      exact ⟨row, found, .refl row⟩
    refine ⟨⟨accepted, inv.rewritten keeps, ?_, kept.trans inv.revision, ?_⟩, List.prefix_refl _, keeps⟩
    · intro id row found
      dsimp only at found
      rw [same] at found
      exact inv.saved id row found
    · intro write last
      rcases inv.current write last with ⟨profile, stored, _, attempted⟩
      rw [first profile stored] at attempted
      cases attempted

/-- A submission that can only be applied with the text it was made with. -/
def Tables.Submitted (tables : Tables) (offer : Offer) (text : Text) : Prop :=
  ∃ row, tables.row offer.id = some row ∧ row.revision = offer.revision ∧ (row.text = some text ∨ row.outcome ≠ .pending)

def Tables.Reported (tables : Tables) (offer : Offer) : Outcome → Prop
  | .saved => ∃ row, tables.row offer.id = some row ∧ row.outcome = .saved
  | .failed => ∃ row, tables.row offer.id = some row ∧ row.outcome = .failed
  | .conflict => ∃ row, tables.row offer.id = some row ∧ row.outcome = .conflict
  | .unconfirmed | .blocked _ | .changedSubmission => True

theorem text_of_pending {tables : Tables} (accepted : tables.Accepted) {id : SaveId} {row : Submission}
    (found : tables.row id = some row) (pending : row.outcome = .pending) : ∃ text, row.text = some text := by
  rcases (accepted.checked row (Tables.mem_of_row found)).2 with failed | some
  · rw [pending] at failed
    cases failed
  · exact Option.isSome_iff_exists.mp some

section Transactions

variable {before after : Tables}

theorem prepareLocked_eq_ok {offer : Offer} {text : Text} {result : Prepared} (accepted : before.Accepted)
    (executed : prepareLocked offer text before = .ok (after, result)) :
    after.Accepted ∧ Change before after [] ∧ (result = .ready → after.Submitted offer text) ∧
      ∀ outcome, result = .answered outcome → after.Reported offer outcome := by
  unfold prepareLocked at executed
  cases search : find before offer.id with
  | some found =>
    rcases find_eq_some search with ⟨row, present, rfl⟩
    rw [search] at executed
    dsimp only at executed
    split at executed
    · cases executed
      refine ⟨accepted, .same rfl, by simp, ?_⟩
      rintro _ ⟨⟩
      trivial
    · rename_i unchanged
      rcases not_or.mp unchanged with ⟨revision, text_same⟩
      split at executed
      · cases executed
        exact ⟨accepted, .same rfl, by simp, by simp⟩
      · rename_i pending
        cases executed
        refine ⟨accepted, .same rfl, fun _ => ?_, by simp⟩
        rcases text_of_pending accepted present (not_not.mp pending) with ⟨submitted, stored⟩
        refine ⟨row, present, not_not.mp revision, .inl ?_⟩
        simp only [attempt, stored, Option.any_some, bne_iff_ne, ne_eq, not_not] at text_same
        rw [stored, text_same]
  | none =>
    have absent := find_eq_none search
    rw [search] at executed
    dsimp only at executed
    split at executed
    · cases executed
      refine ⟨accepted, .same rfl, by simp, ?_⟩
      rintro _ ⟨⟩
      trivial
    · simp only [bind_eq_ok, Except.ok.injEq, Prod.mk.injEq] at executed
      rcases executed with ⟨_, inserted, rfl, rfl⟩
      rcases Tables.insert_eq_ok inserted absent with ⟨kept, profile, rows⟩
      refine ⟨kept, .inserted absent (by simp) rows profile, fun _ => ?_, by simp⟩
      refine ⟨_, (rows offer.id).trans (if_pos rfl), rfl, .inl rfl⟩

theorem Change.of_update {id : SaveId} {row : Submission} {change : Submission → Submission}
    (present : before.row id = some row) (updated : before.update id change = .ok after)
    (named : ∀ row, (change row).id = row.id) (becomes : row.Becomes (change row))
    (unsaved : (change row).outcome = .saved → row.outcome = .saved) :
    after.Accepted ∧ Change before after [] ∧ after.row id = some (change row) := by
  rcases Tables.update_eq_ok updated named with ⟨accepted, profile, rows⟩
  have same := Tables.id_of_row present
  subst same
  rw [present] at rows
  exact ⟨accepted, .decided present becomes unsaved rows profile, (rows row.id).trans (if_pos rfl)⟩

theorem acknowledgeLocked_eq_ok {offer : Offer} {result : Outcome} (accepted : before.Accepted)
    (executed : acknowledgeLocked offer before = .ok (after, result)) :
    after.Accepted ∧ Change before after [] ∧ after.Reported offer result := by
  unfold acknowledgeLocked at executed
  cases search : find before offer.id with
  | none =>
    rw [search] at executed
    cases executed
    exact ⟨accepted, .same rfl, trivial⟩
  | some found =>
    rcases find_eq_some search with ⟨row, present, rfl⟩
    rw [search] at executed
    dsimp only at executed
    split at executed
    · cases executed
      exact ⟨accepted, .same rfl, trivial⟩
    · simp only [bind_eq_ok, Except.ok.injEq, Prod.mk.injEq] at executed
      rcases executed with ⟨_, updated, rfl, rfl⟩
      rcases Change.of_update present updated (fun _ => rfl) ⟨rfl, rfl, rfl, fun _ => rfl⟩ (fun saved => saved) with
        ⟨kept, change, shown⟩
      refine ⟨kept, change, ?_⟩
      have outcome : (attempt row).outcome = row.outcome := rfl
      rw [outcome]
      cases decided : row.outcome with
      | pending => trivial
      | saved => exact ⟨_, shown, decided⟩
      | failed => exact ⟨_, shown, decided⟩
      | conflict => exact ⟨_, shown, decided⟩

theorem checkLocked_eq_ok {offer : Offer} {result : Checking} (accepted : before.Accepted)
    (executed : checkLocked offer before = .ok (after, result)) :
    after.Accepted ∧ Change before after [] ∧ ∀ outcome, result = .answered outcome → after.Reported offer outcome := by
  unfold checkLocked at executed
  cases search : find before offer.id with
  | some found =>
    rcases find_eq_some search with ⟨row, present, rfl⟩
    rw [search] at executed
    dsimp only at executed
    split at executed
    · cases executed
      exact ⟨accepted, .same rfl, by simp⟩
    · rename_i pending
      simp only [bind_eq_ok, Except.ok.injEq, Prod.mk.injEq] at executed
      rcases executed with ⟨_, updated, rfl, rfl⟩
      have undecided : row.outcome = .pending := not_not.mp pending
      rcases Change.of_update present updated (fun _ => rfl) ⟨rfl, rfl, rfl, fun decided => absurd undecided decided⟩
        (by simp) with ⟨kept, change, shown⟩
      refine ⟨kept, change, ?_⟩
      rintro _ ⟨⟩
      exact ⟨_, shown, rfl⟩
  | none =>
    have absent := find_eq_none search
    rw [search] at executed
    dsimp only at executed
    split at executed
    · cases executed
      refine ⟨accepted, .same rfl, ?_⟩
      rintro _ ⟨⟩
      trivial
    · simp only [bind_eq_ok, Except.ok.injEq, Prod.mk.injEq] at executed
      rcases executed with ⟨_, inserted, rfl, rfl⟩
      rcases Tables.insert_eq_ok inserted absent with ⟨kept, profile, rows⟩
      refine ⟨kept, .inserted absent (by simp) rows profile, ?_⟩
      rintro _ ⟨⟩
      exact ⟨_, (rows offer.id).trans (if_pos rfl), rfl⟩

theorem recoveryRequiresCheck_eq_ok {offer : Offer} {result : Bool} (accepted : before.Accepted)
    (executed : recoveryRequiresCheck offer before = .ok (after, result)) :
    after.Accepted ∧ Change before after [] := by
  unfold recoveryRequiresCheck at executed
  cases search : find before offer.id with
  | some found =>
    rw [search] at executed
    cases executed
    exact ⟨accepted, .same rfl⟩
  | none =>
    rw [search] at executed
    simp only [bind_eq_ok, Except.ok.injEq, Prod.mk.injEq] at executed
    rcases executed with ⟨_, inserted, rfl, _⟩
    rcases Tables.insert_eq_ok inserted (find_eq_none search) with ⟨kept, profile, rows⟩
    exact ⟨kept, .inserted (find_eq_none search) (by simp) rows profile⟩

theorem restoreLocked_eq_ok {draft : Option Draft} {fresh : SaveId} {result : Option Editor}
    (accepted : before.Accepted) (executed : restoreLocked draft fresh before = .ok (after, result)) :
    after.Accepted ∧ Change before after [] := by
  unfold restoreLocked at executed
  have unchanged : ∀ {result'}, Except.ok (before, result') = (Except.ok (after, result) : Except SqlError _) →
      after.Accepted ∧ Change before after [] := by
    rintro _ ⟨⟩
    exact ⟨accepted, .same rfl⟩
  split at executed
  · exact unchanged executed
  · split at executed
    · exact unchanged executed
    · rw [bind_eq_ok] at executed
      rcases executed with ⟨checked, required, executed⟩
      have recovered := recoveryRequiresCheck_eq_ok accepted required
      split at executed
      · exact unchanged executed
      · cases executed
        exact recovered
      · cases executed
        exact recovered

theorem importName_eq_ok [Graphemes] {name : Option String} {result : Unit} (accepted : before.Accepted)
    (executed : importName name before = .ok (after, result)) : after.Accepted ∧ Change before after [] := by
  unfold importName at executed
  rw [bind_eq_ok] at executed
  rcases executed with ⟨imported, chosen, executed⟩
  cases executed
  unfold importProfile at chosen
  cases stored : before.profile with
  | none =>
    rw [stored] at chosen
    rcases Tables.setProfile_eq_ok chosen with ⟨kept, rows, profile⟩
    refine ⟨kept, .imported rows ?_ ?_⟩
    · rw [revisionOf, profile, revisionOf, stored]
      rfl
    · intro other member
      rw [stored] at member
      cases member
  | some profile =>
    rw [stored] at chosen
    dsimp only at chosen
    split at chosen
    · cases chosen
      exact ⟨accepted, .same rfl⟩
    · rename_i unattempted
      rcases Tables.setProfile_eq_ok chosen with ⟨kept, rows, replaced⟩
      refine ⟨kept, .imported rows ?_ ?_⟩
      · rw [revisionOf, replaced, revisionOf, stored]
        rfl
      · intro other member
        rw [stored] at member
        cases member
        simpa using unattempted

theorem applyLocked_eq_ok {offer : Offer} {text : Text} {result : Bool} (accepted : before.Accepted)
    (submitted : before.Submitted offer text) (executed : applyLocked offer text before = .ok (after, result)) :
    after.Accepted ∧ Change before after ((Transaction.apply offer text).written before after) := by
  rcases submitted with ⟨row, present, revision, texts⟩
  have search : find before offer.id = some (attempt row) := by rw [find, present, Option.map_some]
  have unwritten : after.profile = before.profile → (Transaction.apply offer text).written before after = [] := by
    intro same
    rw [Transaction.written, if_pos same]
  unfold applyLocked at executed
  rw [search] at executed
  dsimp only at executed
  split at executed
  · cases executed
    rw [unwritten rfl]
    exact ⟨accepted, .same rfl⟩
  · rename_i undecided
    have pending : row.outcome = .pending := not_not.mp undecided
    have named := Tables.id_of_row present
    split at executed
    · simp only [bind_eq_ok, Except.ok.injEq, Prod.mk.injEq] at executed
      rcases executed with ⟨_, updated, rfl, _⟩
      rcases Tables.update_eq_ok updated (fun _ => rfl) with ⟨_, profile, _⟩
      rcases Change.of_update present updated (fun _ => rfl) ⟨rfl, rfl, rfl, fun decided => absurd pending decided⟩
        (by simp) with ⟨kept, change, _⟩
      rw [unwritten profile]
      exact ⟨kept, change⟩
    · rename_i current
      have current : revisionOf before = offer.revision := not_not.mp current
      simp only [bind_eq_ok, Except.ok.injEq, Prod.mk.injEq, writeProfile, okOr_eq_ok, checkedSucc,
        Option.ite_none_right_eq_some, Option.some.injEq] at executed
      rcases executed with ⟨written, ⟨_, ⟨_, rfl⟩, set⟩, last, updated, rfl, _⟩
      rcases Tables.setProfile_eq_ok set with ⟨_, rows, profile⟩
      rcases Tables.update_eq_ok updated (fun _ => rfl) with ⟨kept, same, shown⟩
      have unchanged : ∀ id, written.row id = before.row id := by
        intro id
        rw [Tables.row, rows, Tables.row]
      have stored := same.trans profile
      have wrote : (Transaction.apply offer text).written before last =
          [⟨row.id, text, row.revision, row.revision + 1⟩] := by
        have changed : last.profile ≠ before.profile := by
          intro equal
          rw [revisionOf, ← equal, stored] at current
          simp at current
        rw [Transaction.written, if_neg changed, current, revisionOf, stored, named, revision]
        rfl
      rw [wrote]
      refine ⟨kept, ?_⟩
      rw [← named] at present shown
      apply Change.applied present pending (texts.resolve_right fun decided => decided pending)
        (current.trans revision.symm)
      · intro id
        rw [shown, unchanged, unchanged, present]
        rfl
      · rw [stored, revision]

end Transactions

end BookSmartz.ProfileSaves

import BazelRepo.BookSmartz.ProfileHistory

namespace BookSmartz.ProfileSaves

open Library

section Contract

variable [Graphemes]

def Transaction.Requires : Transaction → History → Prop
  | .apply offer text, history => history.tables.Submitted offer text
  | _, _ => True

def Transaction.Ensures : (transaction : Transaction) → transaction.Answer → History → Prop
  | .prepare offer text, .ok .ready, history => history.tables.Submitted offer text
  | .prepare offer _, .ok (.answered outcome), history => history.tables.Reported offer outcome
  | .acknowledge offer, .ok outcome, history => history.tables.Reported offer outcome
  | .check offer, .ok (.answered outcome), history => history.tables.Reported offer outcome
  | _, _, _ => True

omit [Graphemes] in
theorem Tables.Submitted.stays {before after : History} (may : before.May after) {offer : Offer} {text : Text}
    (submitted : before.tables.Submitted offer text) : after.tables.Submitted offer text := by
  rcases submitted with ⟨row, present, revision, texts⟩
  rcases may.rows offer.id row present with ⟨later, found, becomes⟩
  refine ⟨later, found, becomes.revision.trans revision, ?_⟩
  rcases texts with text | decided
  · exact .inl (becomes.text.trans text)
  · rw [becomes.outcome decided]
    exact .inr decided

omit [Graphemes] in
theorem Tables.Reported.stays {before after : History} (may : before.May after) {offer : Offer} {outcome : Outcome}
    (reported : before.tables.Reported offer outcome) : after.tables.Reported offer outcome := by
  have kept : ∀ recorded, recorded ≠ .pending → (∃ row, before.tables.row offer.id = some row ∧ row.outcome = recorded) →
      ∃ row, after.tables.row offer.id = some row ∧ row.outcome = recorded := by
    rintro recorded decided ⟨row, present, rfl⟩
    rcases may.rows offer.id row present with ⟨later, found, becomes⟩
    exact ⟨later, found, becomes.outcome decided⟩
  cases outcome with
  | saved => exact kept _ (by decide) reported
  | failed => exact kept _ (by decide) reported
  | conflict => exact kept _ (by decide) reported
  | unconfirmed | blocked | changedSubmission => trivial

omit [Graphemes] in
theorem Transaction.Ensures.stays {before after : History} (may : before.May after) {transaction : Transaction}
    {answer : transaction.Answer} (ensures : transaction.Ensures answer before) : transaction.Ensures answer after := by
  cases transaction with
  | prepare offer text =>
    rcases answer with _ | _ | _ | _
    · trivial
    · exact Tables.Reported.stays may ensures
    · trivial
    · exact Tables.Submitted.stays may ensures
  | acknowledge offer =>
    rcases answer with _ | _
    · trivial
    · exact Tables.Reported.stays may ensures
  | check offer =>
    rcases answer with _ | _ | _
    · trivial
    · exact Tables.Reported.stays may ensures
    · trivial
  | apply | restore | importName => trivial

theorem Transaction.execute_eq_ok {transaction : Transaction} {history : History} {after : Tables}
    {result : transaction.Result} (accepted : history.tables.Accepted) (requires : transaction.Requires history)
    (executed : transaction.execute history.tables = .ok (after, result)) :
    after.Accepted ∧ Change history.tables after (transaction.written history.tables after) ∧
      ∀ writes, transaction.Ensures (.ok result) ⟨after, writes⟩ := by
  cases transaction with
  | prepare offer text =>
    rcases prepareLocked_eq_ok accepted executed with ⟨kept, change, ready, answered⟩
    refine ⟨kept, change, ?_⟩
    intro writes
    cases result with
    | answered outcome => exact answered outcome rfl
    | settled => trivial
    | ready => exact ready rfl
  | apply offer text =>
    rcases applyLocked_eq_ok accepted requires executed with ⟨kept, change⟩
    exact ⟨kept, change, fun _ => trivial⟩
  | acknowledge offer =>
    rcases acknowledgeLocked_eq_ok accepted executed with ⟨kept, change, reported⟩
    exact ⟨kept, change, fun _ => reported⟩
  | check offer =>
    rcases checkLocked_eq_ok accepted executed with ⟨kept, change, answered⟩
    refine ⟨kept, change, ?_⟩
    intro writes
    cases result with
    | answered outcome => exact answered outcome rfl
    | settled => trivial
  | restore draft fresh =>
    rcases restoreLocked_eq_ok accepted executed with ⟨kept, change⟩
    exact ⟨kept, change, fun _ => trivial⟩
  | importName name =>
    rcases importName_eq_ok accepted executed with ⟨kept, change⟩
    exact ⟨kept, change, fun _ => trivial⟩

omit [Graphemes] in
theorem Transaction.ensures_error (transaction : Transaction) (interruption : Interruption) (history : History) :
    transaction.Ensures (.error interruption) history := by
  cases transaction <;> trivial

theorem Runs.keeps {before after : History} {transaction : Transaction} {answer : transaction.Answer}
    (inv : before.Inv) (requires : transaction.Requires before) (runs : Runs before transaction answer after) :
    after.Inv ∧ before.May after ∧ transaction.Ensures answer after := by
  cases runs with
  | committed executed =>
    rcases Transaction.execute_eq_ok inv.accepted requires executed with ⟨accepted, change, ensures⟩
    rcases change.inv inv accepted with ⟨later, may⟩
    exact ⟨later, may, ensures _⟩
  | unacknowledged executed =>
    rcases Transaction.execute_eq_ok inv.accepted requires executed with ⟨accepted, change, _⟩
    rcases change.inv inv accepted with ⟨later, may⟩
    exact ⟨later, may, transaction.ensures_error _ _⟩
  | interrupted => exact ⟨inv, .refl _, transaction.ensures_error _ _⟩

def saving : Contract History Transaction Transaction.Answer where
  runs := Runs
  inv := History.Inv
  may := History.May
  requires := Transaction.Requires
  ensures := Transaction.Ensures
  refl := History.May.refl
  trans := History.May.trans
  keeps := Runs.keeps
  stays := fun _ may told => told.stays may

def Response.Holds : Response → History → Prop
  | .outcome offer reported, history => history.tables.Reported offer reported
  | _, _ => True

abbrev Reports (offer : Offer) (known : History → Prop) (program : Saving Outcome) : Prop :=
  saving.Safe (fun outcome history => history.tables.Reported offer outcome) known program

theorem reports_acknowledged (offer : Offer) (known : History → Prop) :
    Reports offer known (return acknowledged (← acknowledge offer)) := by
  apply Contract.safe_ask (fun _ _ _ => trivial)
  intro answer
  apply Contract.safe_done
  rintro history _ ⟨_, told⟩
  cases answer with
  | error interruption => trivial
  | ok outcome => exact told

theorem reports_check (offer : Offer) (known : History → Prop) : Reports offer known (check offer) := by
  apply Contract.safe_ask (fun _ _ _ => trivial)
  intro answer
  rcases answer with _ | outcome | _
  · exact Contract.safe_done fun _ _ _ => trivial
  · exact Contract.safe_done fun _ _ told => told.2
  · exact reports_acknowledged offer _

theorem reports_applyText (offer : Offer) (text : Text) {known : History → Prop}
    (submitted : ∀ history, known history → history.tables.Submitted offer text) :
    Reports offer known (applyText offer text) := by
  apply Contract.safe_ask (fun history _ holds => submitted history holds)
  intro answer
  rcases answer with (_ | _ | _ | _) | _
  · exact Contract.safe_done fun _ _ _ => trivial
  · exact reports_check offer _
  · exact Contract.safe_done fun _ _ _ => trivial
  · exact Contract.safe_done fun _ _ _ => trivial
  · exact reports_acknowledged offer _

theorem reports_save (offer : Offer) (text : Text) (known : History → Prop) : Reports offer known (save offer text) := by
  apply Contract.safe_ask (fun _ _ _ => trivial)
  intro answer
  rcases answer with _ | outcome | _ | _
  · exact Contract.safe_done fun _ _ _ => trivial
  · exact Contract.safe_done fun _ _ told => told.2
  · apply Contract.safe_ask (fun _ _ _ => trivial)
    intro answer
    rcases answer with _ | outcome
    · exact Contract.safe_done fun _ _ _ => trivial
    · exact Contract.safe_done fun _ _ told => told.2
  · exact reports_applyText offer text fun _ holds => holds.2

theorem safe_request (request : Request) : saving.Safe Response.Holds (fun _ => True) request.program := by
  cases request with
  | save offer text =>
    apply Contract.Safe.bind (reports_save offer text _)
    intro outcome later told
    exact Contract.safe_done told
  | check offer =>
    apply Contract.Safe.bind (reports_check offer _)
    intro outcome later told
    exact Contract.safe_done told
  | restore draft fresh | importName name =>
    apply Contract.safe_ask (fun _ _ _ => trivial)
    intro answer
    cases answer <;> exact Contract.safe_done fun _ _ _ => trivial

omit [Graphemes] in
/-- A submission is written at the revision it was based on, so never at two. -/
theorem History.Inv.distinct {history : History} (inv : history.Inv) : (history.writes.map Write.id).Nodup := by
  rw [List.nodup_iff_getElem?_ne_getElem?]
  intro i j before inside same
  rw [List.length_map] at inside
  have listedI := List.getElem?_eq_getElem (Nat.lt_trans before inside)
  have listedJ := List.getElem?_eq_getElem inside
  rcases inv.written i _ listedI with ⟨positionI, _, rowI, foundI, _, revisionI, _⟩
  rcases inv.written j _ listedJ with ⟨positionJ, _, rowJ, foundJ, _, revisionJ, _⟩
  simp only [List.getElem?_map, listedI, listedJ, Option.map_some, Option.some.injEq] at same
  rw [same, foundJ, Option.some.injEq] at foundI
  subst foundI
  rw [positionI] at revisionI
  rw [positionJ, revisionI] at revisionJ
  omega

omit [Graphemes] in
theorem History.Inv.unwritten_of_outcome {history : History} (inv : history.Inv) {id : SaveId} {row : Submission}
    (present : history.tables.row id = some row) (unsaved : row.outcome ≠ .saved) :
    ∀ write ∈ history.writes, write.id ≠ id := by
  rintro write member rfl
  rcases List.mem_iff_getElem?.mp member with ⟨index, listed⟩
  rcases inv.written index write listed with ⟨_, _, other, found, saved, _⟩
  rw [present] at found
  cases found
  exact unsaved saved

omit [Graphemes] in
theorem History.inv_initial (stored : Option (Text × Bool)) : (History.initial stored).Inv where
  accepted := by
    refine ⟨List.nodup_nil, ?_, Nat.zero_le 1, ?_⟩
    · intro row member
      cases member
    · intro profile member
      rcases Option.map_eq_some_iff.mp member with ⟨_, _, rfl⟩
      exact Int.le_refl 0
  written := by
    intro index write listed
    cases listed
  saved := by
    intro id row found
    cases found
  revision := by
    cases stored <;> rfl
  current := by
    intro write last
    cases last

def Requested (program : Saving Response) : Prop := ∃ request : Request, program = request.program

theorem response_stable (response : Response) : saving.Stable response.Holds := by
  intro before after _ may holds
  cases response with
  | outcome offer reported => exact Tables.Reported.stays may holds
  | editor | imported => trivial

theorem requested_safe (program : Saving Response) (requested : Requested program) :
    saving.Safe Response.Holds (fun _ => True) program := by
  rcases requested with ⟨request, rfl⟩
  exact safe_request request

theorem reached_good {stored : Option (Text × Bool)} {pool : Pool History Transaction Transaction.Answer Response}
    (reached : Pool.Steps Runs Requested ⟨History.initial stored, [], []⟩ pool) : saving.Good Response.Holds pool := by
  apply (Contract.Good.steps response_stable requested_safe (Contract.good_initial (History.inv_initial stored)) reached).1

theorem later_good {pool later : Pool History Transaction Transaction.Answer Response}
    (good : saving.Good Response.Holds pool) (steps : Pool.Steps Runs Requested pool later) :
    saving.Good Response.Holds later ∧ pool.state.May later.state :=
  Contract.Good.steps response_stable requested_safe good steps

/-- Each submission writes its own text at most once, at the revision it was based on and raising it by one;
outcomes are final, what is reported as refused is never written, and one submission at most is open. -/
theorem profile_saves_are_exactly_once {stored : Option (Text × Bool)}
    {pool : Pool History Transaction Transaction.Answer Response}
    (reached : Pool.Steps Runs Requested ⟨History.initial stored, [], []⟩ pool) :
    (pool.state.writes.map Write.id).Nodup ∧
    (∀ (index : Nat) (write : Write), pool.state.writes[index]? = some write → pool.state.tables.Wrote index write) ∧
    revisionOf pool.state.tables = pool.state.writes.length ∧
    (∀ write, pool.state.writes.getLast? = some write →
      ∃ profile, pool.state.tables.profile = some profile ∧ profile.text = write.text) ∧
    (∀ later, Pool.Steps Runs Requested pool later → ∀ id row, pool.state.tables.row id = some row →
      row.outcome ≠ .pending → ∃ kept, later.state.tables.row id = some kept ∧ kept.outcome = row.outcome) ∧
    (∀ offer, Response.outcome offer .saved ∈ pool.finished → ∃ write ∈ pool.state.writes, write.id = offer.id) ∧
    (∀ offer, Response.outcome offer .failed ∈ pool.finished ∨ Response.outcome offer .conflict ∈ pool.finished →
      ∀ later, Pool.Steps Runs Requested pool later → ∀ write ∈ later.state.writes, write.id ≠ offer.id) ∧
    pool.state.tables.submissions.countP (fun row => !row.acknowledged) ≤ 1 := by
  have good := reached_good reached
  refine ⟨good.inv.distinct, good.inv.written, good.inv.revision, ?_, ?_, ?_, ?_, good.inv.accepted.unconfirmed⟩
  · intro write last
    rcases good.inv.current write last with ⟨profile, current, text, _⟩
    exact ⟨profile, current, text⟩
  · intro later steps id row present decided
    rcases (later_good good steps).2.rows id row present with ⟨kept, found, becomes⟩
    exact ⟨kept, found, becomes.outcome decided⟩
  · intro offer reported
    rcases good.returned _ reported with ⟨row, present, saved⟩
    exact good.inv.saved offer.id row present saved
  · intro offer reported later steps
    rcases later_good good steps with ⟨kept, may⟩
    rcases reported with reported | reported
    · have told : pool.state.tables.Reported offer .failed := good.returned _ reported
      rcases told.stays may with ⟨row, present, failed⟩
      exact kept.inv.unwritten_of_outcome present (by rw [failed]; decide)
    · have told : pool.state.tables.Reported offer .conflict := good.returned _ reported
      rcases told.stays may with ⟨row, present, conflict⟩
      exact kept.inv.unwritten_of_outcome present (by rw [conflict]; decide)

end Contract

section Example

local instance characters : Graphemes := ⟨String.length⟩

def sampleOffer : Offer := ⟨⟨⟨1⟩⟩, 0⟩

def sampleText : Text := ⟨"Reader", ""⟩

def sampleTables (outcome : Recorded) (acknowledged : Bool) (profile : Option Profile) : Tables :=
  ⟨[⟨sampleOffer.id, 0, some sampleText, outcome, acknowledged⟩], profile⟩

def samplePool : Pool History Transaction Transaction.Answer Response :=
  { state := ⟨sampleTables .saved true (some ⟨sampleText, 1, true⟩), [⟨sampleOffer.id, sampleText, 0, 1⟩]⟩
    finished := [.outcome sampleOffer .saved] }

theorem samplePool_reached : Pool.Steps Runs Requested ⟨History.initial none, [], []⟩ samplePool := by
  have started : Pool.Step Runs Requested ⟨History.initial none, [], []⟩
      ⟨History.initial none, [(Request.save sampleOffer sampleText).program], []⟩ := .start ⟨_, rfl⟩
  have prepared : Runs (History.initial none) (.prepare sampleOffer sampleText) (.ok .ready)
      ⟨sampleTables .pending false none, []⟩ := .committed rfl
  have applied : Runs ⟨sampleTables .pending false none, []⟩ (.apply sampleOffer sampleText) (.ok true)
      ⟨sampleTables .saved false (some ⟨sampleText, 1, true⟩), [⟨sampleOffer.id, sampleText, 0, 1⟩]⟩ := .committed rfl
  have acknowledged : Runs ⟨sampleTables .saved false (some ⟨sampleText, 1, true⟩), [⟨sampleOffer.id, sampleText, 0, 1⟩]⟩
      (.acknowledge sampleOffer) (.ok .saved) samplePool.state := .committed rfl
  exact .head started (Pool.Steps.ask prepared (Pool.Steps.ask applied (Pool.Steps.ask acknowledged (Pool.Steps.done _))))

theorem profile_saves_are_exactly_once_sample :
    ∃ write ∈ samplePool.state.writes, write.id = sampleOffer.id :=
  (profile_saves_are_exactly_once samplePool_reached).2.2.2.2.2.1 sampleOffer List.mem_cons_self

end Example

end BookSmartz.ProfileSaves

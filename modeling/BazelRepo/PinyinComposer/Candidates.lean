import BazelRepo.PinyinComposer.Page
import Mathlib.Data.List.Nodup

namespace PinyinComposer

theorem nonEmptyDocumentRange_eq_some {editor : EditorState} {startOffset endOffset : Int} {range : DocumentRange}
    (found : nonEmptyDocumentRange editor startOffset endOffset = some range) :
    trim (bufferOf editor (some range)) ≠ [] := by
  unfold nonEmptyDocumentRange at found
  split at found
  · cases found
    assumption
  · cases found

theorem trim_bufferOf {editor : EditorState} {previousRange : Option DocumentRange}
    {replacement : DocumentTextReplacement} {replacementRange range : DocumentRange}
    (found : pendingRangeAfterReplacement editor previousRange replacement replacementRange = some range) :
    trim (bufferOf editor (some range)) ≠ [] := by
  unfold pendingRangeAfterReplacement at found
  split at found
  · cases found
  · split at found
    · exact nonEmptyDocumentRange_eq_some found
    · split at found
      · cases found
      · exact nonEmptyDocumentRange_eq_some found

def EditorState.Filled (editor : EditorState) : Prop :=
  (editor.pendingRange = none → editor.inputBuffer = []) ∧ (editor.pendingRange ≠ none → trim editor.inputBuffer ≠ [])

theorem replaceDocumentText_cases [RandomUuid] (page : Page) (replacement : DocumentTextReplacement) :
    ∃ editor : EditorState, editor.Filled ∧
      ((editor.pendingRange = none ∧ replaceDocumentText page replacement = { page with editor, candidates := [] }) ∨
        (editor.pendingRange ≠ none ∧ page.editor.pendingRange ≠ none ∧
          trim editor.inputBuffer = trim page.editor.inputBuffer ∧
          replaceDocumentText page replacement = { page with editor }) ∨
        (editor.pendingRange ≠ none ∧ replaceDocumentText page replacement =
          convertPinyin { page with
            editor
            conversionError := ""
            conversionRequestId := page.conversionRequestId + 1 } (trim editor.inputBuffer) 5
              (page.conversionRequestId + 1))) := by
  unfold replaceDocumentText
  generalize page.editor.replaceRange replacement.startOffset replacement.endOffset replacement.text = replaced
  rcases replaced with ⟨replaced, replacementRange⟩
  dsimp only
  cases pending : pendingRangeAfterReplacement replaced page.editor.pendingRange replacement replacementRange with
  | none =>
    refine ⟨(replaced.setPendingRange none).updateInputBuffer [], ⟨fun _ => rfl, fun some => absurd rfl some⟩,
      .inl ⟨rfl, ?_⟩⟩
    exact if_pos rfl
  | some range =>
    have filled : trim (bufferOf replaced (some range)) ≠ [] := trim_bufferOf pending
    have present : ((replaced.setPendingRange (some range)).updateInputBuffer
        (bufferOf replaced (some range))).pendingRange ≠ none := Option.some_ne_none _
    refine ⟨(replaced.setPendingRange (some range)).updateInputBuffer (bufferOf replaced (some range)),
      ⟨fun none => absurd none present, fun _ => filled⟩, .inr ?_⟩
    rw [if_neg filled]
    split
    · rename_i kept
      refine .inl ⟨present, ?_, kept.2.2, rfl⟩
      rw [Option.ne_none_iff_isSome]
      exact kept.1
    · exact .inr ⟨present, rfl⟩

variable [RandomUuid] [HanScript] {convert : Text → Nat → List Candidate}

structure Session.Sound (convert : Text → Nat → List Candidate) (session : Session) : Prop where
  ids : ∀ conversion ∈ session.page.pending, conversion.id < session.page.posted
  distinct : (session.page.pending.map PendingConversion.id).Nodup
  numbers : ∀ conversion ∈ session.page.pending, conversion.requestId ≤ session.page.conversionRequestId
  single : (session.page.pending.map PendingConversion.requestId).Nodup
  filled : session.page.editor.Filled
  blank : session.page.editor.pendingRange = none → session.page.candidates = []
  awaited : session.page.editor.pendingRange ≠ none → ∀ conversion ∈ session.page.pending,
    conversion.requestId = session.page.conversionRequestId →
      conversion.sourcePinyin = trim session.page.editor.inputBuffer ∧ conversion.limit = 5
  settled : session.page.editor.pendingRange ≠ none →
    (∀ conversion ∈ session.page.pending, conversion.requestId ≠ session.page.conversionRequestId) →
      (session.failed = none ∧ session.page.candidates = convert (trim session.page.editor.inputBuffer) 5) ∨
        ∃ message, session.failed = some message ∧ session.page.candidates = [] ∧
          session.page.conversionError = message

theorem Session.Sound.replaceDocumentText {session : Session} (sound : session.Sound convert)
    (replacement : DocumentTextReplacement) :
    (session.step convert (.replaceDocumentText replacement)).Sound convert := by
  rcases replaceDocumentText_cases session.page replacement with ⟨editor, filled, ⟨none, result⟩ |
    ⟨present, before, same, result⟩ | ⟨present, result⟩⟩
  · have step : session.step convert (.replaceDocumentText replacement) =
        { session with page := { session.page with editor, candidates := [] } } := by
      unfold Session.step Page.step
      dsimp only
      rw [result]
      unfold Session.failedAfter
      rw [if_neg (not_not.mpr rfl)]
    rw [step]
    exact ⟨sound.ids, sound.distinct, sound.numbers, sound.single, filled, fun _ => rfl,
      fun some => absurd none some, fun some => absurd none some⟩
  · have step : session.step convert (.replaceDocumentText replacement) =
        { session with page := { session.page with editor } } := by
      unfold Session.step Page.step
      dsimp only
      rw [result]
      unfold Session.failedAfter
      rw [if_neg (not_not.mpr rfl)]
    rw [step]
    refine ⟨sound.ids, sound.distinct, sound.numbers, sound.single, filled, fun none => absurd none present, ?_, ?_⟩
    · intro _ conversion member newest
      dsimp only
      rw [same]
      exact sound.awaited before conversion member newest
    · intro _ answered
      dsimp only
      rw [same]
      exact sound.settled before answered
  · have step : session.step convert (.replaceDocumentText replacement) =
        { page := convertPinyin { session.page with
            editor
            conversionError := ""
            conversionRequestId := session.page.conversionRequestId + 1 } (trim editor.inputBuffer) 5
              (session.page.conversionRequestId + 1)
          failed := none } := by
      unfold Session.step Page.step
      dsimp only
      rw [result]
      unfold Session.failedAfter
      rw [if_pos (by simp [convertPinyin])]
    rw [step]
    have later : ∀ conversion ∈ session.page.pending,
        conversion.requestId ≠ session.page.conversionRequestId + 1 := by
      intro conversion member
      have bound := sound.numbers conversion member
      omega
    refine ⟨?_, ?_, ?_, ?_, filled, fun none => absurd none present, ?_, ?_⟩
    · intro conversion member
      change conversion.id < session.page.posted + 1
      rcases List.mem_append.mp member with earlier | latest
      · exact Nat.lt_succ_of_lt (sound.ids conversion earlier)
      · rw [List.mem_singleton.mp latest]
        exact Nat.lt_succ_self _
    · change ((session.page.pending ++ [_]).map PendingConversion.id).Nodup
      rw [List.map_append, List.nodup_append]
      refine ⟨sound.distinct, List.pairwise_singleton _ _, ?_⟩
      intro id member other single
      rcases List.mem_map.mp member with ⟨conversion, listed, rfl⟩
      rw [List.mem_singleton.mp single]
      exact Nat.ne_of_lt (sound.ids conversion listed)
    · intro conversion member
      change conversion.requestId ≤ session.page.conversionRequestId + 1
      rcases List.mem_append.mp member with earlier | latest
      · exact Nat.le_succ_of_le (sound.numbers conversion earlier)
      · rw [List.mem_singleton.mp latest]
    · change ((session.page.pending ++ [_]).map PendingConversion.requestId).Nodup
      rw [List.map_append, List.nodup_append]
      refine ⟨sound.single, List.pairwise_singleton _ _, ?_⟩
      intro number member other single
      rcases List.mem_map.mp member with ⟨conversion, listed, rfl⟩
      rw [List.mem_singleton.mp single]
      exact later conversion listed
    · intro _ conversion member newest
      rcases List.mem_append.mp member with earlier | latest
      · exact absurd newest (later conversion earlier)
      · rw [List.mem_singleton.mp latest]
        exact ⟨rfl, rfl⟩
    · intro _ answered
      refine absurd rfl (answered _ (List.mem_append_right _ List.mem_cons_self))

theorem step_commitCandidate (session : Session) (candidate : Candidate) :
    session.step convert (.commitCandidate candidate) =
      { session with page := commitCandidate session.page candidate } := by
  have number : (commitCandidate session.page candidate).conversionRequestId = session.page.conversionRequestId := by
    unfold commitCandidate
    split <;> rfl
  unfold Session.step Page.step Session.failedAfter
  dsimp only
  rw [number, if_neg (not_not.mpr rfl)]

theorem Session.Sound.commitCandidate {session : Session} (sound : session.Sound convert) (candidate : Candidate) :
    Session.Sound convert { session with page := PinyinComposer.commitCandidate session.page candidate } := by
  unfold PinyinComposer.commitCandidate
  cases pending : session.page.editor.pendingRange with
  | none =>
    refine ⟨sound.ids, sound.distinct, sound.numbers, sound.single, sound.filled, fun _ => rfl, ?_, ?_⟩
    · exact fun some => absurd pending some
    · exact fun some => absurd pending some
  | some range =>
    refine ⟨sound.ids, sound.distinct, sound.numbers, sound.single, ?_, fun _ => rfl, ?_, ?_⟩
    · exact ⟨fun _ => rfl, fun some => absurd rfl some⟩
    · exact fun some => absurd rfl some
    · exact fun some => absurd rfl some

variable (convert) in
omit [RandomUuid] [HanScript] in
theorem reply_cases (page : Page) (id : Nat) (failure : Option String) :
    (page.reply convert id failure = page ∧ (Action.reply id failure).answersNewest page = false) ∨
      ∃ conversion ∈ page.pending, conversion.id = id ∧
        ((conversion.requestId ≠ page.conversionRequestId ∧ page.reply convert id failure =
            { page with pending := page.pending.filter fun other => other.id != id }) ∨
          (conversion.requestId = page.conversionRequestId ∧
            (Action.reply id failure).answersNewest page = true ∧
            ((failure = none ∧ page.reply convert id failure = { page with
                pending := page.pending.filter fun other => other.id != id
                candidates := convert conversion.sourcePinyin conversion.limit }) ∨
              ∃ message, failure = some message ∧ page.reply convert id failure = { page with
                pending := page.pending.filter fun other => other.id != id
                candidates := []
                conversionError := message }))) := by
  unfold Page.reply handleMessage
  cases found : page.pending.find? fun conversion => conversion.id == id with
  | none =>
    refine .inl ⟨rfl, ?_⟩
    rw [List.find?_eq_none] at found
    unfold Action.answersNewest
    rw [List.any_eq_false]
    intro conversion member both
    rw [Bool.and_eq_true] at both
    exact found conversion member both.1
  | some conversion =>
    right
    have member := List.mem_of_find?_eq_some found
    have same : conversion.id = id := by
      have matched := List.find?_some found
      exact beq_iff_eq.mp matched
    refine ⟨conversion, member, same, ?_⟩
    dsimp only
    unfold conversionSettled
    by_cases newest : conversion.requestId = page.conversionRequestId
    · right
      rw [if_neg (not_not.mpr newest)]
      refine ⟨newest, ?_, ?_⟩
      · exact List.any_eq_true.mpr ⟨conversion, member, by simp [same, newest]⟩
      · cases failure with
        | none => exact .inl ⟨rfl, rfl⟩
        | some message => exact .inr ⟨message, rfl, rfl⟩
    · exact .inl ⟨newest, if_pos newest⟩

omit [RandomUuid] [HanScript] in
theorem Session.Sound.forget {session : Session} (sound : session.Sound convert) (id : Nat) :
    (∀ conversion ∈ session.page.pending.filter fun other => other.id != id, conversion ∈ session.page.pending) ∧
      ((session.page.pending.filter fun other => other.id != id).map PendingConversion.id).Nodup ∧
      ((session.page.pending.filter fun other => other.id != id).map PendingConversion.requestId).Nodup := by
  have fewer := List.filter_sublist (p := fun other : PendingConversion => other.id != id) (l := session.page.pending)
  exact ⟨fun conversion member => fewer.subset member, sound.distinct.sublist (fewer.map _),
    sound.single.sublist (fewer.map _)⟩

theorem Session.Sound.reply {session : Session} (sound : session.Sound convert) {id : Nat} {failure : Option String}
    (timely : (Action.reply id failure).Timely session.page) :
    (session.step convert (.reply id failure)).Sound convert := by
  have number : (session.page.step convert (.reply id failure)).conversionRequestId =
      session.page.conversionRequestId := by
    change (session.page.reply convert id failure).conversionRequestId = _
    rcases reply_cases convert session.page id failure with ⟨same, _⟩ | ⟨_, _, _, ⟨_, same⟩ |
      ⟨_, _, ⟨_, same⟩ | ⟨_, _, same⟩⟩⟩
    all_goals rw [same]
  have step : session.step convert (.reply id failure) =
      { page := session.page.reply convert id failure
        failed := if (Action.reply id failure).answersNewest session.page then failure else session.failed } := by
    unfold Session.step Session.failedAfter
    dsimp only
    rw [number, if_neg (not_not.mpr rfl)]
    rfl
  rw [step]
  rcases reply_cases convert session.page id failure with ⟨same, stale⟩ | ⟨conversion, member, named,
    ⟨stale, same⟩ | ⟨newest, answers, outcome⟩⟩
  · rw [same, stale]
    exact sound
  · rcases sound.forget id with ⟨kept, distinct, single⟩
    have silent : (Action.reply id failure).answersNewest session.page = false := by
      unfold Action.answersNewest
      rw [List.any_eq_false]
      intro other listed both
      simp only [Bool.and_eq_true, beq_iff_eq] at both
      have one : other = conversion :=
        List.inj_on_of_nodup_map sound.distinct listed member (both.1.trans named.symm)
      rw [one] at both
      exact stale both.2
    rw [same, silent]
    refine ⟨fun other listed => sound.ids other (kept other listed), distinct,
      fun other listed => sound.numbers other (kept other listed), single, sound.filled, sound.blank,
      fun present other listed => sound.awaited present other (kept other listed), ?_⟩
    intro present answered
    apply sound.settled present
    intro other listed
    by_cases gone : other.id = id
    · have one : other = conversion :=
        List.inj_on_of_nodup_map sound.distinct listed member (gone.trans named.symm)
      rw [one]
      exact stale
    · exact answered other (List.mem_filter.mpr ⟨listed, by simpa using gone⟩)
  · rcases sound.forget id with ⟨kept, distinct, single⟩
    have present := timely answers
    have asked := sound.awaited present conversion member newest
    rw [answers]
    rcases outcome with ⟨worked, same⟩ | ⟨message, failed, same⟩
    · rw [same]
      refine ⟨fun other listed => sound.ids other (kept other listed), distinct,
        fun other listed => sound.numbers other (kept other listed), single, sound.filled,
        fun none => absurd none present, fun some other listed => sound.awaited some other (kept other listed), ?_⟩
      intro _ _
      refine .inl ⟨worked, ?_⟩
      dsimp only
      rw [asked.1, asked.2]
    · rw [same]
      refine ⟨fun other listed => sound.ids other (kept other listed), distinct,
        fun other listed => sound.numbers other (kept other listed), single, sound.filled,
        fun none => absurd none present, fun some other listed => sound.awaited some other (kept other listed), ?_⟩
      intro _ _
      exact .inr ⟨message, failed, rfl, rfl⟩

theorem Session.Sound.step {session : Session} (sound : session.Sound convert) {action : Action}
    (timely : action.Timely session.page) : (session.step convert action).Sound convert := by
  cases action with
  | replaceDocumentText replacement => exact sound.replaceDocumentText replacement
  | commitCandidate candidate =>
    rw [step_commitCandidate]
    exact sound.commitCandidate candidate
  | commitTopCandidate =>
    have step : session.step convert .commitTopCandidate =
        { session with page := PinyinComposer.commitTopCandidate session.page } := by
      have number : (PinyinComposer.commitTopCandidate session.page).conversionRequestId =
          session.page.conversionRequestId := by
        unfold PinyinComposer.commitTopCandidate PinyinComposer.commitCandidate
        repeat' split
        all_goals rfl
      unfold Session.step Page.step Session.failedAfter
      dsimp only
      rw [number, if_neg (not_not.mpr rfl)]
    rw [step]
    unfold PinyinComposer.commitTopCandidate
    split
    · exact sound
    · exact sound.commitCandidate _
  | reply id failure => exact sound.reply timely

theorem Session.Sound.run {session : Session} (sound : session.Sound convert) {actions : List Action}
    (timely : session.Timely convert actions) : (session.run convert actions).Sound convert := by
  induction actions generalizing session with
  | nil => exact sound
  | cons action rest ih => exact ih (sound.step timely.1) timely.2

def opened (spans : List DocumentSpan) : Session := { page := { editor := { spans } } }

omit [RandomUuid] [HanScript] in
theorem sound_opened (spans : List DocumentSpan) : (opened spans).Sound convert := by
  refine ⟨?_, List.nodup_nil, ?_, List.nodup_nil, ⟨fun _ => rfl, fun some => absurd rfl some⟩, fun _ => rfl, ?_, ?_⟩
  · intro conversion member
    cases member
  · intro conversion member
    cases member
  · exact fun some => absurd rfl some
  · exact fun some => absurd rfl some

structure Session.Belongs (convert : Text → Nat → List Candidate) (session : Session) : Prop where
  blank : session.page.pending = [] → session.page.editor.pendingRange = none → session.page.candidates = []
  settled : session.page.pending = [] → session.page.editor.pendingRange ≠ none →
    (session.failed = none ∧ session.page.candidates = convert (trim session.page.editor.inputBuffer) 5) ∨
      ∃ message, session.failed = some message ∧ session.page.candidates = [] ∧
        session.page.conversionError = message
  /-- An answer to a request for a text that is no longer pending changes neither candidates nor error. -/
  stale : ∀ conversion ∈ session.page.pending, ∀ failure,
    (Action.reply conversion.id failure).Timely session.page →
    session.page.editor.pendingRange = none ∨ conversion.sourcePinyin ≠ trim session.page.editor.inputBuffer →
      (session.page.reply convert conversion.id failure).candidates = session.page.candidates ∧
        (session.page.reply convert conversion.id failure).conversionError = session.page.conversionError

omit [RandomUuid] [HanScript] in
theorem Session.Sound.belongs {session : Session} (sound : session.Sound convert) : session.Belongs convert := by
  refine ⟨fun _ => sound.blank, ?_, ?_⟩
  · intro idle present
    apply sound.settled present
    intro conversion member
    rw [idle] at member
    cases member
  · intro conversion member failure timely other
    rcases reply_cases convert session.page conversion.id failure with ⟨same, _⟩ | ⟨found, listed, named,
      ⟨_, same⟩ | ⟨newest, answers, _⟩⟩
    · rw [same]
      exact ⟨rfl, rfl⟩
    · rw [same]
      exact ⟨rfl, rfl⟩
    · have present := timely answers
      have one : found = conversion := List.inj_on_of_nodup_map sound.distinct listed member named
      subst one
      rcases other with none | differs
      · exact absurd none present
      · exact absurd (sound.awaited present found member newest).1 differs

/-- As long as the newest request is answered only while some input is pending, whatever the order of
edits, commits and answers. -/
theorem candidates_belong_to_the_input (convert : Text → Nat → List Candidate) (spans : List DocumentSpan)
    (actions : List Action) (timely : (opened spans).Timely convert actions) :
    ((opened spans).run convert actions).Belongs convert :=
  ((sound_opened spans).run timely).belongs

abbrev hanzi : HanScript := ⟨fun character => character == [0x5317] || character == [0x4EAC]⟩

def typed (text : String) : Text := text.toList.map fun c => UInt16.ofNat c.toNat

def beijing : Candidate :=
  { id := typed "candidate-beijing"
    sourcePinyin := typed "bei jing"
    sourcePinyinSyllables := [typed "bei", typed "jing"]
    hanzi := [0x5317, 0x4EAC]
    displayPinyin := typed "Bei jing"
    displayPinyinSyllables := [typed "Bei", typed "jing"] }

def dictionary (text : Text) (limit : Nat) : List Candidate :=
  if text = typed "beijing" then [beijing].take limit else []

instance (page : Page) (action : Action) : Decidable (action.Timely page) :=
  inferInstanceAs (Decidable (_ → _))

instance decidableTimely (convert : Text → Nat → List Candidate) (session : Session)
    (actions : List Action) : Decidable (session.Timely convert actions) :=
  match actions with
  | [] => inferInstanceAs (Decidable True)
  | action :: rest =>
    have : Decidable ((session.step convert action).Timely convert rest) := decidableTimely convert _ rest
    inferInstanceAs (Decidable (action.Timely session.page ∧ (session.step convert action).Timely convert rest))

def outOfOrder : List Action :=
  [.replaceDocumentText ⟨0, 0, typed "bei"⟩, .replaceDocumentText ⟨3, 3, typed "jing"⟩, .reply 1 none, .reply 0 none]

omit [RandomUuid] [HanScript] in
theorem candidates_belong_to_the_input_outOfOrder :
    @Session.Timely lengthening hanzi dictionary (opened []) outOfOrder ∧
      (@Session.run lengthening hanzi dictionary (opened []) outOfOrder).page.candidates = [beijing] ∧
      Session.Belongs dictionary (@Session.run lengthening hanzi dictionary (opened []) outOfOrder) := by
  have timely : @Session.Timely lengthening hanzi dictionary (opened []) outOfOrder := by decide +kernel
  exact ⟨timely, by decide +kernel, @candidates_belong_to_the_input lengthening hanzi dictionary [] outOfOrder timely⟩

omit [RandomUuid] [HanScript] in
/-- The phrase is typed and deleted before its answer comes: nothing is pending, nothing is in flight, and
its candidates are shown. -/
theorem answer_after_deletion_shows_candidates :
    let session := @Session.run lengthening hanzi dictionary (opened [])
      [.replaceDocumentText ⟨0, 0, typed "beijing"⟩, .replaceDocumentText ⟨0, 7, []⟩, .reply 0 none]
    session.page.pending = [] ∧ session.page.editor.pendingRange = none ∧ session.page.candidates = [beijing] := by
  decide +kernel

end PinyinComposer

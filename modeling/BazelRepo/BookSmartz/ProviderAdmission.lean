import BazelRepo.BookSmartz.AdmissionSessions
import Mathlib.Data.List.Induction

namespace BookSmartz.Catalog

open Library (Discipline Exchange Program Protocol Session Sessions Stateful)

section Programs

def Ask.Idle : Ask → Prop
  | .cache _ | .now | .sign _ _ => True
  | .sql _ | .send _ _ => False

theorem Ask.Idle.inert {progress : Progress} (ask : Ask) (idle : ask.Idle) :
    admission.allowed progress ask ∧ ∀ answer, admission.after progress ask answer = progress := by
  cases ask with
  | cache | now | sign => exact ⟨trivial, fun _ => rfl⟩
  | sql | send => exact absurd idle id

theorem maintains_cache {σ : Type} {inv : σ → Prop} (statement : CacheStatement) :
    Stateful.Maintains Ask.Idle inv
      (cache statement : Stateful Ask Ask.Answer σ DatabaseError statement.Value) :=
  fun _ holds => ⟨trivial, fun _ => holds⟩

def Entry.Answers (key : OpenLibraryWorkId) (cached : Option Entry) : Prop :=
  ∀ entry, cached = some entry → entry.work.valid ∧ entry.work.workId = key.val

theorem read_ends (key : OpenLibraryWorkId) : (read key).Ends Ask.Idle (Entry.Answers key) := by
  have row : Stateful.Maintains Ask.Idle (Entry.Answers key) (readRow key) := by
    apply (maintains_cache _).bind
    intro _
    apply (maintains_cache _).bind
    intro row
    cases row with
    | none => exact maintains_cache _
    | some row =>
      dsimp only
      split
      · rename_i accepted
        simp only [Bool.and_eq_true, beq_iff_eq] at accepted
        apply Stateful.Maintains.bind
        · intro _ _ entry same
          cases same
          exact accepted.1
        intro _
        apply (maintains_cache _).bind
        intro _
        exact (maintains_cache _).bind fun _ => maintains_cache _
      · exact maintains_cache _
  have start : Entry.Answers key none := by
    intro entry present
    cases present
  apply Program.Ends.bind _ (row none start)
  exact fun _ kept => kept

theorem freshEntry_ends (cached : Option Entry) : (freshEntry cached).Ends Ask.Idle
    fun fresh => ∀ work, fresh = some work → ∃ entry, cached = some entry ∧ entry.work = work := by
  cases cached with
  | none =>
    intro work present
    cases present
  | some entry =>
    refine ⟨trivial, ?_⟩
    intro now work present
    split at present
    · cases present
      exact ⟨entry, rfl, rfl⟩
    · cases present

theorem retain_ends (works : List CatalogWork) (fallback : Option CatalogWork) :
    (retainWithFallback works fallback).Ends Ask.Idle
      fun results => results.map (·.workId) = (works.filter (·.valid)).map (·.workId) := by
  have same : ((works.filter (·.valid)).map (·.merge fallback)).map (·.workId) =
      (works.filter (·.valid)).map (·.workId) := by
    rw [List.map_map]
    apply List.map_congr_left
    intro work _
    exact work.merge_workId fallback
  unfold retainWithFallback
  dsimp only
  split
  · exact same
  · apply Program.Ends.bind _ (Program.ends_perform trivial)
    intro fetchedAt _
    have kept : Stateful.Maintains Ask.Idle
        (fun results => results.map (·.workId) = (works.filter (·.valid)).map (·.workId))
        (persist fallback fetchedAt (works.filter (·.valid))) := by
      apply (maintains_cache _).bind
      intro _
      apply (maintains_cache _).bind
      intro _
      apply Stateful.Maintains.bind
      · apply Stateful.maintains_forM
        rintro ⟨fresh, position⟩ member
        apply (maintains_cache _).bind
        intro row
        apply Stateful.Maintains.bind _ fun _ => maintains_cache _
        apply Stateful.maintains_modify
        intro results ids
        rcases List.getElem?_eq_some_iff.mp (List.mk_mem_zipIdx_iff_getElem?.mp member) with ⟨within, rfl⟩
        have length : position < ((works.filter (·.valid)).map (·.workId)).length := by
          rw [List.length_map]
          exact within
        have named : ((works.filter (·.valid)).map (·.workId))[position] = (works.filter (·.valid))[position].workId :=
          List.getElem_map _
        rw [List.map_set, ids, CatalogWork.merge_workId, ← named]
        exact List.set_getElem_self length
      · intro _
        exact (maintains_cache _).bind fun _ => maintains_cache _
    apply Program.Ends.bind _ (kept _ same)
    exact fun _ ids => ids

theorem signAll_ends (reader : ReaderId) (works : List CatalogWork) :
    (signAll reader works).Ends Ask.Idle fun _ => True := by
  induction works with
  | nil => trivial
  | cons work rest ih =>
    apply Program.Ends.bind _ (Program.ends_perform trivial)
    intro token _
    cases token with
    | error => trivial
    | ok token =>
      apply Program.Ends.bind _ ih
      exact fun _ _ => trivial

theorem present_ends (reader : ReaderId) (page : Nat) (result : Except Failure SearchPage) :
    (present reader page result).Ends Ask.Idle fun _ => True := by
  cases result with
  | error => trivial
  | ok found =>
    apply Program.Ends.bind _ (retain_ends _ _)
    intro works _
    apply Program.Ends.bind _ (signAll_ends reader works)
    exact fun _ _ => trivial

def Phase.Told (phase : Phase) : Except DatabaseError Bool → Prop
  | .ok true => phase = .admitted
  | .ok false => phase = .closed
  | .error _ => phase = .closed ∨ phase = .uncertain

theorem admitRequest_follows (reader : ReaderId) : (admitRequest reader).run.Follows admission
    (fun progress result => progress.reader = reader ∧ progress.phase.Told result) ⟨reader, .entered⟩ := by
  refine ⟨⟨rfl, trivial⟩, ?_⟩
  rintro (error | ⟨⟩)
  · exact ⟨rfl, .inl rfl⟩
  refine ⟨⟨rfl, trivial⟩, ?_⟩
  rintro (error | locked)
  · exact ⟨rfl, .inl rfl⟩
  cases locked with
  | false => exact ⟨rfl, rfl⟩
  | true =>
    refine ⟨⟨rfl, trivial⟩, ?_⟩
    rintro (error | available)
    · exact ⟨rfl, .inl rfl⟩
    cases available with
    | false => exact ⟨rfl, rfl⟩
    | true =>
      refine ⟨⟨rfl, trivial⟩, ?_⟩
      rintro (error | ⟨⟩)
      · exact ⟨rfl, .inl rfl⟩
      refine ⟨⟨rfl, rfl⟩, ?_⟩
      rintro (error | count)
      · exact ⟨rfl, .inl rfl⟩
      show ((if count ≥ 10 then pure false else _ : ExceptT DatabaseError (Program Ask Ask.Answer) Bool)).Follows
        admission _ ⟨reader, if count ≥ 10 then .closed else .counted⟩
      split
      · exact ⟨rfl, rfl⟩
      · refine ⟨⟨rfl, rfl⟩, ?_⟩
        rintro (error | ⟨⟩)
        · exact ⟨rfl, .inl rfl⟩
        refine ⟨⟨rfl, trivial⟩, ?_⟩
        rintro (error | ⟨⟩)
        · exact ⟨rfl, .inl rfl⟩
        refine ⟨⟨rfl, trivial⟩, ?_⟩
        rintro (error | ⟨⟩)
        · exact ⟨rfl, .inr rfl⟩
        · exact ⟨rfl, rfl⟩

variable [ProviderJson]

theorem search_follows (reader : ReaderId) (query : String) (page : Nat) : (search query page).Follows admission
    (fun progress _ => progress = ⟨reader, .sent⟩) ⟨reader, .admitted⟩ := by
  refine ⟨rfl, ?_⟩
  rintro (transport | response)
  · exact rfl
  · exact rfl

theorem lookupProvider_follows (reader : ReaderId) (key : OpenLibraryWorkId) : (lookupProvider key).Follows admission
    (fun progress _ => progress = ⟨reader, .sent⟩) ⟨reader, .admitted⟩ := by
  apply Program.Follows.bind _ (search_follows reader _ 1)
  rintro _ found rfl
  cases found <;> exact rfl

omit [ProviderJson] in
theorem follows_idle {α : Type} {post : α → Prop} {program : Conversation α} (ends : program.Ends Ask.Idle post)
    (progress : Progress) : program.Follows admission (fun later a => later = progress ∧ post a) progress :=
  ends.follows Ask.Idle.inert

theorem discover_follows (reader : ReaderId) (query : String) (page : Nat) :
    (discover reader query page).Follows admission (fun _ _ => True) ⟨reader, .entered⟩ := by
  apply Program.Follows.bind _ (admitRequest_follows reader)
  rintro ⟨_, phase⟩ admitted ⟨same, told⟩
  dsimp only at same told
  subst same
  rcases admitted with error | admitted
  · trivial
  · cases admitted with
    | false => exact (follows_idle (present_ends _ _ _) _).mono fun _ _ _ => trivial
    | true =>
      have granted : phase = .admitted := told
      subst granted
      apply Program.Follows.bind _ (search_follows _ query page)
      rintro _ found rfl
      exact (follows_idle (present_ends _ _ _) _).mono fun _ _ _ => trivial

theorem refresh_follows (reader : ReaderId) (key : OpenLibraryWorkId) (cached : Option Entry) :
    (refresh reader key cached).Follows admission (fun _ _ => True) ⟨reader, .entered⟩ := by
  apply Program.Follows.bind _ (admitRequest_follows reader)
  rintro ⟨_, phase⟩ admitted ⟨same, told⟩
  dsimp only at same told
  subst same
  rcases admitted with error | admitted
  · trivial
  · cases admitted with
    | false => trivial
    | true =>
      have granted : phase = .admitted := told
      subst granted
      apply Program.Follows.bind _ (lookupProvider_follows _ key)
      rintro _ found rfl
      cases found with
      | error => trivial
      | ok work =>
        apply Program.Follows.bind _ (follows_idle (retain_ends _ _) _)
        rintro _ works _
        cases works <;> trivial

theorem lookup_follows (reader : ReaderId) (key : OpenLibraryWorkId) :
    (lookup reader key).Follows admission (fun _ _ => True) ⟨reader, .entered⟩ := by
  unfold lookup
  split
  · trivial
  · apply Program.Follows.bind _ (follows_idle (read_ends key) _)
    rintro _ cached ⟨rfl, _⟩
    apply Program.Follows.bind _ (follows_idle (freshEntry_ends cached) _)
    rintro _ fresh ⟨rfl, _⟩
    cases fresh with
    | some work => trivial
    | none =>
      apply Program.Follows.bind _ (refresh_follows reader key cached)
      intro _ refreshed _
      cases refreshed with
      | ok work => trivial
      | error failure => cases cached <;> trivial

theorem serve_follows (request : Request) :
    request.serve.Follows admission (fun _ _ => True) ⟨request.reader, .entered⟩ := by
  cases request with
  | search reader query page =>
    apply Program.Follows.bind _ (discover_follows reader query page)
    exact fun _ _ _ => trivial
  | lookup reader key =>
    apply Program.Follows.bind _ (lookup_follows reader key)
    exact fun _ _ _ => trivial

def admissions : Discipline Request.serve Runs Moves admission where
  entry request := ⟨request.reader, .entered⟩
  post _ _ := True
  inv := Database.Inv
  agrees := Database.Agrees
  follows := serve_follows
  starts := by
    rintro db call request _ ⟨closed, fresh⟩
    refine ⟨?_, fresh⟩
    intro writes opened
    rw [closed] at opened
    cases opened
  own inv agrees allowed ran := by
    have step := ran.steps inv agrees allowed
    exact ⟨step.inv, step.agrees⟩
  others inv agrees allowed ran differs thought := (ran.steps inv agrees allowed).others _ _ differs thought
  moved inv moves := moves.keeps inv

end Programs

section Exchanges

abbrev Asked := List (Exchange Ask Ask.Answer)

def Sends (asked : Asked) : Prop := ∃ query page answer, (⟨.send query page, answer⟩ : Exchange Ask Ask.Answer) ∈ asked

/-- A call that came to its end asks no statement and sends nothing any more. -/
def Phase.Final : Phase → Prop
  | .sent | .closed | .uncertain => True
  | _ => False

variable {progress : Progress} {asked : Asked}

theorem Statement.turn_not_final (statement : Statement) : ¬ statement.turn.Final := by
  cases statement <;> exact id

theorem allowed_of_final (final : progress.phase.Final) {ask : Ask} (allowed : admission.allowed progress ask) :
    ask.Idle := by
  cases ask with
  | sql statement => exact absurd (allowed.1 ▸ final) statement.turn_not_final
  | send =>
    have admitted : progress.phase = .admitted := allowed
    rw [admitted] at final
    exact absurd final id
  | cache | now | sign => trivial

theorem final_stays (final : progress.phase.Final) (obeys : admission.Obeys progress asked) :
    admission.through progress asked = progress ∧ ¬ Sends asked := by
  induction asked with
  | nil =>
    refine ⟨rfl, ?_⟩
    rintro ⟨_, _, _, ⟨⟩⟩
  | cons exchange rest ih =>
    have idle := allowed_of_final final obeys.1
    have kept : admission.after progress exchange.1 exchange.2 = progress := (Ask.Idle.inert _ idle).2 _
    have later := obeys.2
    rw [kept] at later
    rcases ih later with ⟨same, silent⟩
    refine ⟨?_, ?_⟩
    · show admission.through (admission.after progress exchange.1 exchange.2) rest = progress
      rw [kept]
      exact same
    · rintro ⟨query, page, answer, member⟩
      rcases List.mem_cons.mp member with first | member
      · rw [← first] at idle
        exact idle
      · exact silent ⟨query, page, answer, member⟩

theorem after_reader (progress : Progress) (ask : Ask) (answer : ask.Answer) :
    (admission.after progress ask answer).reader = progress.reader := by
  cases ask with
  | sql statement =>
    cases statement <;> cases answer <;> rfl
  | cache | now | send | sign => rfl

theorem through_reader (progress : Progress) (asked : Asked) :
    (admission.through progress asked).reader = progress.reader := by
  induction asked generalizing progress with
  | nil => rfl
  | cons exchange rest ih => exact (ih _).trans (after_reader progress exchange.1 exchange.2)

theorem commit_of_admitted {reader : ReaderId} :
    (admission.through ⟨reader, .entered⟩ asked).phase = .admitted →
      (⟨.sql .commit, .ok ()⟩ : Exchange Ask Ask.Answer) ∈ asked := by
  induction asked using List.reverseRecOn with
  | nil => exact fun entered => nomatch entered
  | append_singleton before exchange ih =>
    rw [Protocol.through_snoc]
    rcases exchange with ⟨ask, answer⟩
    have earlier : (admission.through ⟨reader, .entered⟩ before).phase = .admitted →
        (⟨.sql .commit, .ok ()⟩ : Exchange Ask Ask.Answer) ∈ before ++ [⟨ask, answer⟩] :=
      fun admitted => List.mem_append_left _ (ih admitted)
    cases ask with
    | cache | now | sign => exact earlier
    | send => exact fun sent => nomatch sent
    | sql statement =>
      cases answer with
      | error => cases statement <;> exact fun failed => nomatch failed
      | ok value =>
        cases statement with
        | commit => exact fun _ => List.mem_append_right _ (List.mem_singleton_self _)
        | begin | purge | insert | advanceGate => exact fun other => nomatch other
        | tryLock | available => cases value <;> exact fun other => nomatch other
        | countOf =>
          intro counted
          have counted : (if value ≥ 10 then Phase.closed else Phase.counted) = .admitted := counted
          split at counted <;> cases counted

theorem dispatch {reader : ReaderId} {before after : Asked} {query : String} {page : Nat}
    {answer : Except Transport Response} (obeys : admission.Obeys ⟨reader, .entered⟩ (before ++ ⟨.send query page, answer⟩ :: after)) :
    (⟨.sql .commit, .ok ()⟩ : Exchange Ask Ask.Answer) ∈ before ∧ ¬ Sends before ∧ ¬ Sends after ∧
      admission.through ⟨reader, .entered⟩ (before ++ ⟨.send query page, answer⟩ :: after) = ⟨reader, .sent⟩ := by
  rcases Protocol.obeys_append.mp obeys with ⟨first, admitted, later⟩
  have sends : ∀ {early late : Asked} {query' : String} {page' : Nat} {answer' : Except Transport Response},
      admission.Obeys ⟨reader, .entered⟩ (early ++ ⟨.send query' page', answer'⟩ :: late) →
      admission.through ⟨reader, .entered⟩ (early ++ ⟨.send query' page', answer'⟩ :: late) = ⟨reader, .sent⟩ ∧
        ¬ Sends late := by
    intro early late query' page' answer' obeyed
    have final : (admission.after (admission.through ⟨reader, .entered⟩ early) (.send query' page') answer').phase.Final :=
      trivial
    rcases final_stays final (Protocol.obeys_append.mp obeyed).2.2 with ⟨stays, silent⟩
    refine ⟨?_, silent⟩
    have same := through_reader ⟨reader, .entered⟩ early
    rw [Protocol.through_append]
    exact stays.trans (congrArg (fun who => (⟨who, .sent⟩ : Progress)) same)
  refine ⟨commit_of_admitted admitted, ?_, (sends obeys).2, (sends obeys).1⟩
  rintro ⟨query', page', answer', member⟩
  rcases List.append_of_mem member with ⟨early, late, rfl⟩
  have admitted : (admission.through ⟨reader, .entered⟩ (early ++ ⟨.send query' page', answer'⟩ :: late)).phase = .admitted :=
    admitted
  rw [(sends first).1] at admitted
  cases admitted

end Exchanges

end BookSmartz.Catalog

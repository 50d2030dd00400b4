import BazelRepo.BookSmartz.ProviderAdmission

namespace BookSmartz.Catalog

open Library (Discipline Exchange Program Protocol Session Sessions Stateful)

section Tables

def Database.Grows (db later : Database) : Prop :=
  (later.admissions = db.admissions ∧ later.nextSearchAt = db.nextSearchAt ∧ later.history = db.history) ∨
    ∃ row, later.history = db.history ++ [row]

variable {db later : Database} {call : CallId} {reader : ReaderId} {writes : Writes}

theorem Database.Local.grows (inside : db.Local call later) : db.Grows later :=
  .inl ⟨inside.admissions, inside.gate, inside.history⟩

theorem Database.Ready.grows (ready : db.Ready call reader writes) : ∃ row, (db.durable call writes).history = db.history ++ [row] := by
  rcases ready with ⟨row, _, drafted, _⟩
  refine ⟨row, ?_⟩
  unfold Database.durable
  rw [drafted.inserted]

theorem Runs.grows {ask : Ask} {answer : ask.Answer} {progress : Progress} (inv : db.Inv)
    (agrees : db.Agrees call (some progress)) (allowed : admission.allowed progress ask)
    (runs : Runs db call ask answer later) : db.Grows later := by
  have statement : ∀ {statement : Statement} {value : statement.Value} {after : Database} {reading : Admission → Nat}
      {finish : Nat}, admission.allowed progress (.sql statement) → (∀ row, reading row ≤ finish) → after.clock ≤ finish →
      db.execute call reading statement = some (after, value) → db.Grows { after with clock := finish } := by
    intro statement value after reading finish allowed timely mono ran
    rcases progress with ⟨reader, phase⟩
    rcases allowed with ⟨turn, concerns⟩
    dsimp only at turn
    subst turn
    by_cases inner : statement = .commit
    · subst inner
      rcases Database.execute_run (by simp) ran with ⟨writes, opened, ran⟩
      cases ran
      exact .inr (agrees.commits opened).1.grows
    · exact (continues inv agrees concerns inner timely mono ran).inside.grows
  cases runs with
  | executed timely mono ran => exact statement allowed (fun row => (timely row).2) mono ran
  | lost error timely mono ran => exact statement allowed (fun row => (timely row).2) mono ran
  | refused | elsewhere => exact .inl ⟨rfl, rfl, rfl⟩
  | unsettled => exact (db.local_put call _).grows

theorem Moves.grows (inv : db.Inv) (moves : Moves db later) : db.Grows later := by
  cases moves with
  | tick => exact .inl ⟨rfl, rfl, rfl⟩
  | rollBack call => exact (db.local_close call).grows
  | @settle call writes opened committing =>
    rcases inv.sending call writes opened committing with ⟨reader, ready⟩
    exact .inr ready.grows

end Tables

section Lookup

variable [ProviderJson]

theorem search_ends (query : String) (page : Nat) : (search query page).Ends (fun _ => True)
    fun found => ∀ page, found = .ok page → ∀ work ∈ page.works, work.valid := by
  refine ⟨trivial, ?_⟩
  intro answer
  cases answer with
  | error transport =>
    intro page found
    cases found
  | ok response =>
    intro page found
    exact SearchPage.ofResponse_valid found

omit [ProviderJson] in
theorem single_eq_ok {key : OpenLibraryWorkId} {page : SearchPage} {work : CatalogWork} (found : page.single key = .ok work) :
    page.works = [work] ∧ work.workId = key.val := by
  unfold SearchPage.single at found
  split at found <;> try contradiction
  split at found <;> try contradiction
  split at found <;> try contradiction
  rename_i only single
  split at found <;> try contradiction
  rename_i named
  cases found
  exact ⟨single, named⟩

theorem lookupProvider_ends (key : OpenLibraryWorkId) : (lookupProvider key).Ends (fun _ => True)
    fun found => ∀ work, found = .ok work → work.valid ∧ work.workId = key.val := by
  apply Program.Ends.bind _ (search_ends _ 1)
  intro found valid
  cases found with
  | error failure =>
    intro work same
    cases same
  | ok page =>
    intro work same
    rcases single_eq_ok same with ⟨single, named⟩
    exact ⟨valid page rfl work (single ▸ List.mem_singleton_self work), named⟩

theorem refresh_leads {reader : ReaderId} {key : OpenLibraryWorkId} {cached : Option Entry} {asked : Asked}
    {work : CatalogWork} (ran : (refresh reader key cached).Leads asked (.done (.ok work))) :
    work.workId = key.val ∧ ∃ admitting providing retaining found, asked = admitting ++ providing ++ retaining ∧
      (admitRequest reader).run.Leads admitting (.done (.ok true)) ∧
      (lookupProvider key).Leads providing (.done (.ok found)) := by
  rcases Program.leads_bind.mp ran with ⟨admitting, rest, admitted, rfl, admits, later⟩
  rcases admitted with error | _ | _
  · cases (Program.leads_done.mp later).2
  · cases (Program.leads_done.mp later).2
  · rcases Program.leads_bind.mp later with ⟨providing, retaining, found, rfl, provides, later⟩
    cases found with
    | error failure => cases (Program.leads_done.mp later).2
    | ok found =>
      have answers := (lookupProvider_ends key).leads provides found rfl
      rcases Program.leads_bind.mp later with ⟨keeping, last, works, rfl, retains, later⟩
      have ids := (retain_ends _ _).leads retains
      rw [List.filter_singleton, answers.1] at ids
      refine ⟨?_, admitting, providing, keeping ++ last, found, (List.append_assoc _ _ _).symm, admits, provides⟩
      cases works with
      | nil => cases (Program.leads_done.mp later).2
      | cons first others =>
        cases (Program.leads_done.mp later).2
        exact (List.cons.inj ids).1.trans answers.2

/-- A lookup returns the work that was asked for: the cached one, unless the request was admitted and the provider
found the work. -/
def FallsBack (reader : ReaderId) (key : OpenLibraryWorkId) (asked : Asked) (result : Except LookupFailure CatalogWork) :
    Prop :=
  (∀ work, result = .ok work → work.workId = key.val) ∧
    (key.val.utf8ByteSize ≤ 64 → ∃ reading rest cached, asked = reading ++ rest ∧
      (read key).Leads reading (.done cached) ∧ ∀ entry, cached = some entry → entry.work.workId = key.val ∧
        (result = .ok entry.work ∨ ∃ now admitting providing retaining found,
          rest = now ++ (admitting ++ providing ++ retaining) ∧
            (admitRequest reader).run.Leads admitting (.done (.ok true)) ∧
            (lookupProvider key).Leads providing (.done (.ok found))))

theorem lookup_leads {reader : ReaderId} {key : OpenLibraryWorkId} {asked : Asked}
    {result : Except LookupFailure CatalogWork} (ran : (lookup reader key).Leads asked (.done result)) :
    FallsBack reader key asked result := by
  unfold lookup at ran
  split at ran
  · rename_i long
    cases (Program.leads_done.mp ran).2
    refine ⟨?_, fun short => absurd short (not_le.mpr long)⟩
    intro work found
    cases found
  · rcases Program.leads_bind.mp ran with ⟨reading, rest, cached, rfl, reads, later⟩
    have answers := (read_ends key).leads reads
    rcases Program.leads_bind.mp later with ⟨now, rest, fresh, rfl, freshens, later⟩
    have hit := (freshEntry_ends cached).leads freshens
    cases fresh with
    | some work =>
      cases (Program.leads_done.mp later).2
      rcases hit work rfl with ⟨entry, rfl, rfl⟩
      refine ⟨?_, fun _ => ⟨reading, _, some entry, rfl, reads, ?_⟩⟩
      · intro work same
        cases same
        exact (answers entry rfl).2
      · intro other same
        cases same
        exact ⟨(answers entry rfl).2, .inl rfl⟩
    | none =>
      rcases Program.leads_bind.mp later with ⟨refreshing, last, refreshed, rfl, refreshes, later⟩
      cases refreshed with
      | ok work =>
        rcases Program.leads_done.mp later with ⟨rfl, same⟩
        cases same
        rcases refresh_leads refreshes with ⟨named, admitting, providing, retaining, found, rfl, admits, provides⟩
        refine ⟨?_, fun _ => ⟨reading, _, cached, rfl, reads, ?_⟩⟩
        · intro other same
          cases same
          exact named
        · intro entry present
          refine ⟨(answers entry present).2, .inr ⟨now, admitting, providing, retaining, found, ?_, admits, provides⟩⟩
          rw [List.append_nil]
      | error failure =>
        cases cached with
        | none =>
          cases (Program.leads_done.mp later).2
          refine ⟨?_, fun _ => ⟨reading, _, none, rfl, reads, ?_⟩⟩
          · intro work found
            cases found
          · intro entry present
            cases present
        | some entry =>
          cases (Program.leads_done.mp later).2
          refine ⟨?_, fun _ => ⟨reading, _, some entry, rfl, reads, ?_⟩⟩
          · intro work same
            cases same
            exact (answers entry rfl).2
          · intro other same
            cases same
            exact ⟨(answers entry rfl).2, .inl rfl⟩

end Lookup

section Deployment

variable [ProviderJson]

abbrev Instances := Sessions Database CallId Ask Ask.Answer Request Reply

abbrev Deployment.Step : Instances → Instances → Prop := Sessions.Step Request.serve Runs Moves

abbrev Deployment.Steps : Instances → Instances → Prop := Sessions.Steps Request.serve Runs Moves

def Deployment.initial (clock : Nat) : Instances where
  state := { clock }

def Denied (reader : ReaderId) (asked : Asked) : Prop :=
  ∃ before told after, asked = before ++ (told ++ after) ∧ (admitRequest reader).run.Leads told (.done (.ok false))

def Uncertain (asked : Asked) : Prop :=
  ∃ error, (⟨.sql .commit, .error error⟩ : Exchange Ask Ask.Answer) ∈ asked

/-- Each dispatch comes after the acknowledged commit of an admission of the call's own, and is its only one. -/
def SendsAdmitted (history : List Admission) (call : CallId) (reader : ReaderId) (asked : Asked) : Prop :=
  ∀ before query page answer after, asked = before ++ ⟨.send query page, answer⟩ :: after →
    (⟨.sql .commit, .ok ()⟩ : Exchange Ask Ask.Answer) ∈ before ∧ ¬ Sends before ∧ ¬ Sends after ∧
      ∃ row ∈ history, row.call = call ∧ row.reader = reader

theorem good_of_steps {clock : Nat} {pool : Instances} (steps : Deployment.Steps (Deployment.initial clock) pool) :
    admissions.Good pool := by
  apply Discipline.Good.steps _ steps
  apply Discipline.good_initial
  · refine ⟨.nil, ?_, ?_, ?_, .nil, fun _ _ => Nat.zero_le _, ?_⟩
    · intro row member
      cases member
    · intro row member
      cases member
    · intro row member
      cases member
    · intro call writes opened
      cases opened
  · intro call
    refine ⟨rfl, ?_⟩
    intro row member
    cases member

section Session

variable {pool : Instances} {call : CallId} {session : Session Ask Ask.Answer Request Reply}

theorem session_obeys (good : admissions.Good pool) (present : pool.session call = some session) :
    admission.Obeys ⟨session.request.reader, .entered⟩ session.asked :=
  Program.Follows.obeys (good.leads present) (serve_follows session.request)

theorem session_agrees (good : admissions.Good pool) (present : pool.session call = some session) :
    pool.state.Agrees call (some (admission.through ⟨session.request.reader, .entered⟩ session.asked)) := by
  have agrees := good.agrees call
  rw [present] at agrees
  exact agrees

theorem sends_admitted (good : admissions.Good pool) (present : pool.session call = some session) :
    SendsAdmitted pool.state.history call session.request.reader session.asked := by
  intro before query page answer after asked
  have obeys := session_obeys good present
  have agrees := session_agrees good present
  rw [asked] at obeys agrees
  rcases dispatch obeys with ⟨commit, first, last, reached⟩
  rw [reached] at agrees
  exact ⟨commit, first, last, agrees.2⟩

theorem silent_of_final (good : admissions.Good pool) (present : pool.session call = some session) {phase : Phase}
    (reached : (admission.through ⟨session.request.reader, .entered⟩ session.asked).phase = phase)
    (differs : phase ≠ .sent) : ¬ Sends session.asked := by
  rintro ⟨query, page, answer, member⟩
  rcases List.append_of_mem member with ⟨before, after, asked⟩
  have obeys := session_obeys good present
  rw [asked] at obeys reached
  rw [(dispatch obeys).2.2.2] at reached
  exact differs reached.symm

theorem denied_consumes_nothing (good : admissions.Good pool) (present : pool.session call = some session)
    (denied : Denied session.request.reader session.asked) :
    ¬ Sends session.asked ∧ ∀ row ∈ pool.state.history, row.call ≠ call := by
  rcases denied with ⟨before, told, after, asked, leads⟩
  have obeys := session_obeys good present
  have agrees := session_agrees good present
  rw [asked] at obeys agrees
  rcases Protocol.obeys_append.mp obeys with ⟨_, later⟩
  rcases Protocol.obeys_append.mp later with ⟨telling, rest⟩
  -- an admission begins with its transaction, so nothing was admitted before
  have entered : admission.through ⟨session.request.reader, .entered⟩ before = ⟨session.request.reader, .entered⟩ := by
    have reader := through_reader ⟨session.request.reader, .entered⟩ before
    cases leads with
    | ask answer _ =>
      have phase : (admission.through ⟨session.request.reader, .entered⟩ before).phase = .entered := telling.1.1
      generalize admission.through ⟨session.request.reader, .entered⟩ before = progress at reader phase
      cases progress
      cases reader
      cases phase
      rfl
  rw [entered] at rest
  have ended := Program.Follows.leads leads (admitRequest_follows session.request.reader)
  have closed : (admission.through ⟨session.request.reader, .entered⟩ told).phase = .closed := ended.2
  have final : (admission.through ⟨session.request.reader, .entered⟩ told).phase.Final := by
    rw [closed]
    trivial
  rcases final_stays final rest with ⟨same, _⟩
  have reached : (admission.through ⟨session.request.reader, .entered⟩ session.asked).phase = .closed := by
    rw [asked, Protocol.through_append, entered, Protocol.through_append, same]
    exact closed
  refine ⟨silent_of_final good present reached (by decide), ?_⟩
  have recorded : Phase.Recorded call (admission.through ⟨session.request.reader, .entered⟩ session.asked).reader
      pool.state.history (admission.through ⟨session.request.reader, .entered⟩ session.asked).phase :=
    (session_agrees good present).2
  rw [reached] at recorded
  exact recorded

theorem uncertain_sends_nothing (good : admissions.Good pool) (present : pool.session call = some session)
    (uncertain : Uncertain session.asked) : ¬ Sends session.asked := by
  rcases uncertain with ⟨error, member⟩
  rcases List.append_of_mem member with ⟨before, after, asked⟩
  have obeys := session_obeys good present
  rw [asked] at obeys
  have final : (admission.after (admission.through ⟨session.request.reader, .entered⟩ before) (.sql .commit)
      (.error error)).phase.Final := trivial
  have same := (final_stays final (Protocol.obeys_append.mp obeys).2.2).1
  have reached : (admission.through ⟨session.request.reader, .entered⟩ session.asked).phase = .uncertain := by
    rw [asked, Protocol.through_append]
    exact congrArg Progress.phase same
  exact silent_of_final good present reached (by decide)

theorem lookup_falls_back (good : admissions.Good pool) (present : pool.session call = some session)
    {reader : ReaderId} {key : OpenLibraryWorkId} {result : Except LookupFailure CatalogWork}
    (asks : session.request = .lookup reader key) (ended : session.rest = .done (.work result)) :
    FallsBack reader key session.asked result := by
  have leads := good.leads present
  rw [asks, ended] at leads
  rcases Program.leads_bind.mp leads with ⟨asked, last, result', same, ran, told⟩
  rcases Program.leads_done.mp told with ⟨rfl, equal⟩
  cases equal
  rw [same, List.append_nil]
  exact lookup_leads ran

end Session

theorem Deployment.Step.grows {pool later : Instances} (good : admissions.Good pool) (step : Deployment.Step pool later) :
    pool.state.Grows later.state := by
  cases step with
  | start => exact .inl ⟨rfl, rfl, rfl⟩
  | answer asking ran =>
    have agrees := session_agrees good asking
    exact ran.grows good.inv agrees (good.follows asking).1
  | move moved => exact moved.grows good.inv

/-- Whatever requests are served by whatever instances, in whatever order and with whatever failures. -/
theorem provider_requests_are_admitted {clock : Nat} {pool : Instances} (steps : Deployment.Steps (Deployment.initial clock) pool) :
    (∀ call session, pool.session call = some session →
      SendsAdmitted pool.state.history call session.request.reader session.asked ∧
      (Denied session.request.reader session.asked →
        ¬ Sends session.asked ∧ ∀ row ∈ pool.state.history, row.call ≠ call) ∧
      (Uncertain session.asked → ¬ Sends session.asked) ∧
      ∀ reader key result, session.request = .lookup reader key → session.rest = .done (.work result) →
        FallsBack reader key session.asked result) ∧
    (pool.state.history.map (·.call)).Nodup ∧
    pool.state.history.Pairwise (fun earlier later => earlier.admittedAt + second ≤ later.admittedAt) ∧
    (∀ reader start finish, finish < start + minute →
      (pool.state.history.filter fun row =>
        row.reader = reader ∧ start ≤ row.admittedAt ∧ row.admittedAt ≤ finish).length ≤ 10) ∧
    ∀ later, Deployment.Step pool later → pool.state.Grows later.state := by
  have good := good_of_steps steps
  refine ⟨?_, good.inv.distinct, good.inv.spaced, ?_, fun later step => step.grows good⟩
  · intro call session present
    exact ⟨sends_admitted good present, denied_consumes_nothing good present, uncertain_sends_nothing good present,
      fun reader key result => lookup_falls_back good present⟩
  · intro reader start finish short
    apply le_trans _ (good.inv.windows reader start)
    apply List.Sublist.length_le
    apply List.monotone_filter_right
    intro row inside
    rcases of_decide_eq_true inside with ⟨own, after, before⟩
    exact decide_eq_true ⟨own, after, by omega⟩

omit [ProviderJson] in
theorem Runs.instant {db after : Database} {call : CallId} {statement : Statement} {value : statement.Value}
    (ran : db.execute call (fun _ => db.clock) statement = some (after, value)) (same : after.clock = db.clock) :
    Runs db call (.sql statement) (.ok value) { after with clock := db.clock } :=
  .executed (fun _ => ⟨le_refl _, le_refl _⟩) (le_of_eq same) ran

omit [ProviderJson] in
/-- A search alone is admitted and dispatched. -/
theorem provider_requests_are_admitted_alone : ∃ (pool : Instances) (session : Session Ask Ask.Answer Request Reply),
    pool.session 0 = some session ∧ Sends session.asked ∧ pool.state.history ≠ [] ∧
      SendsAdmitted pool.state.history 0 session.request.reader session.asked := by
  let json : ProviderJson := ⟨fun _ => none⟩
  let request : Request := .search ⟨⟨1⟩⟩ "q" 1
  have start : Deployment.Step (Deployment.initial 0)
      { Deployment.initial 0 with session := Function.update (Deployment.initial 0).session 0 (some ⟨request, [], request.serve⟩) } :=
    .start rfl request
  have serves : ∃ asked last rest, Sessions.Serves Runs 0 (Deployment.initial 0).state request.serve asked last rest ∧
      Sends asked ∧ last.history ≠ [] := by
    have unanswered : ∀ {db : Database}, Runs db 0 (.send "q" 1) (Except.error Transport.timeout) db :=
      .elsewhere _ fun statement same => nomatch same
    refine ⟨_, _, _, .ask (.instant rfl rfl) (.ask (.instant rfl rfl) (.ask (.instant rfl rfl) (.ask (.instant rfl rfl)
      (.ask (.instant rfl rfl) (.ask (.instant rfl rfl) (.ask (.instant rfl rfl) (.ask (.instant rfl rfl)
        (.ask unanswered (.here _ _))))))))), ?_, ?_⟩
    · exact ⟨"q", 1, Except.error Transport.timeout, by simp⟩
    · exact List.cons_ne_nil _ _
  rcases serves with ⟨asked, last, rest, serves, sends, committed⟩
  have begun : Function.update (Deployment.initial 0).session 0 (some ⟨request, [], request.serve⟩) 0 =
      some ⟨request, [], request.serve⟩ := Function.update_self _ _ _
  rcases serves.steps begun with ⟨pool, steps, state, present⟩
  have session := (provider_requests_are_admitted (.head start steps)).1 0 _ present
  exact ⟨pool, _, present, sends, state ▸ committed, session.1⟩

end Deployment

end BookSmartz.Catalog

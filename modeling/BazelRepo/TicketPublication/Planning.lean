import BazelRepo.Library.Precedence
import BazelRepo.TicketPublication.Directory

namespace TicketPublication

open Library

structure Ticket.WellFormed (ticket : Ticket) : Prop where
  title : (trim ticket.title).isEmpty = false
  titleLine : ∀ c ∈ ticket.title.toList, c ≠ '\n' ∧ c ≠ '\r' ∧ c ≠ '\x00'
  body : (trim ticket.body).isEmpty = false
  bodyText : '\x00' ∉ ticket.body.toList
  unmarked : containsText ticket.body reservedMarker = false
  labels : ∀ label ∈ ticket.labels, (trim label).isEmpty = false ∧ ∀ c ∈ label.toList, isControl c = false
  labelsDistinct : (ticket.labels.map toAsciiLowercase).Nodup
  triage : ticket.labels.countP isTriageLabel ≤ 1

structure Plan.WellFormed (plan : Plan) : Prop where
  version : plan.schemaVersion = 1
  repository : plan.repository = "LowkeyLab/bazel-repo"
  nonempty : plan.tickets ≠ []
  capacity : plan.tickets.length ≤ maxSubIssues
  tickets : ∀ ticket ∈ plan.tickets, ticket.WellFormed

def Ticket.blockerKeys (ticket : Ticket) : List TicketKey :=
  ticket.blockers.filterMap fun
    | .ticket key => some key
    | .issue _ => none

def Blocks (tickets : List Ticket) : TicketKey → TicketKey → Prop := Needs Ticket.key Ticket.blockerKeys tickets

structure Plan.Publishable (plan : Plan) : Prop where
  keys : plan.keys.Nodup
  blockers : ∀ ticket ∈ plan.tickets, ∀ key, .ticket key ∈ ticket.blockers → key ∈ plan.keys
  blockedBy : ∀ ticket ∈ plan.tickets, ticket.blockers.toFinset.card ≤ maxDependencies
  blocking : ∀ blocker, plan.tickets.countP (fun ticket => ticket.blockers.contains blocker) ≤ maxDependencies
  acyclic : Acyclic (Blocks plan.tickets)

theorem mem_blockerKeys {ticket : Ticket} {key : TicketKey} : key ∈ ticket.blockerKeys ↔ .ticket key ∈ ticket.blockers := by
  unfold Ticket.blockerKeys
  rw [List.mem_filterMap]
  constructor
  · rintro ⟨blocker, member, same⟩
    cases blocker with
    | ticket other =>
      simp only [Option.some.injEq] at same
      exact same ▸ member
    | issue number => cases same
  · intro member
    exact ⟨_, member, rfl⟩

/-! The checks of each ticket. -/

theorem checkLabels_eq_ok {labels : List String} : ∀ {seen : List String} {count : Nat},
    (∃ result, labels.foldlM checkLabel (seen, count) = .ok result ∧ result.2 ≤ 1) ↔
      (∀ label ∈ labels, (trim label).isEmpty = false ∧ ∀ c ∈ label.toList, isControl c = false) ∧
        (labels.map toAsciiLowercase).Nodup ∧ (∀ label ∈ labels, toAsciiLowercase label ∉ seen) ∧
        count + labels.countP isTriageLabel ≤ 1 := by
  induction labels with
  | nil =>
    intro seen count
    simp [pure, Except.pure]
  | cons label rest ih =>
    intro seen count
    have step : (∃ result, (label :: rest).foldlM checkLabel (seen, count) = .ok result ∧ result.2 ≤ 1) ↔
        ((trim label).isEmpty = false ∧ (∀ c ∈ label.toList, isControl c = false) ∧ toAsciiLowercase label ∉ seen) ∧
          ∃ result, rest.foldlM checkLabel
            (toAsciiLowercase label :: seen, count + if isTriageLabel label then 1 else 0) = .ok result ∧ result.2 ≤ 1 := by
      rw [List.foldlM_cons]
      simp only [checkLabel, bind_eq_ok, ensure_eq_ok, Except.ok.injEq, Bool.and_eq_true, Bool.not_eq_true',
        List.all_eq_true, List.contains_eq_mem, decide_eq_false_iff_not]
      constructor
      · rintro ⟨result, ⟨_, ⟨_, ⟨⟨nonblank, plain⟩, fresh⟩, rfl⟩, later⟩, few⟩
        exact ⟨⟨nonblank, plain, fresh⟩, result, later, few⟩
      · rintro ⟨⟨nonblank, plain, fresh⟩, result, later, few⟩
        exact ⟨result, ⟨_, ⟨(), ⟨⟨nonblank, plain⟩, fresh⟩, rfl⟩, later⟩, few⟩
    rw [step, ih]
    simp only [List.mem_cons, forall_eq_or_imp, List.map_cons, List.nodup_cons, List.mem_map, not_or, not_exists,
      not_and, List.countP_cons]
    constructor
    · rintro ⟨⟨nonblank, plain, fresh⟩, sound, distinct, others, few⟩
      refine ⟨⟨⟨nonblank, plain⟩, sound⟩, ⟨fun other member => (others other member).1, distinct⟩,
        ⟨fresh, fun other member => (others other member).2⟩, by omega⟩
    · rintro ⟨⟨⟨nonblank, plain⟩, sound⟩, ⟨apart, distinct⟩, ⟨fresh, others⟩, few⟩
      exact ⟨⟨nonblank, plain, fresh⟩, sound, distinct, fun other member => ⟨apart other member, others other member⟩,
        by omega⟩

theorem checkTicket_eq_ok {keys later : List TicketKey} {ticket : Ticket} :
    checkTicket keys ticket = .ok later ↔ ticket.key ∉ keys ∧ ticket.WellFormed ∧ later = ticket.key :: keys := by
  have labels := @checkLabels_eq_ok ticket.labels [] 0
  simp only [checkTicket, bind_eq_ok, ensure_eq_ok, Except.ok.injEq, Bool.and_eq_true, Bool.not_eq_true',
    List.all_eq_true, List.contains_eq_mem, decide_eq_false_iff_not, bne_iff_ne, decide_eq_true_eq]
  constructor
  · rintro ⟨_, fresh, _, ⟨title, line⟩, _, ⟨body, text⟩, _, unmarked, result, folded, _, few, rfl⟩
    rcases labels.mp ⟨result, folded, few⟩ with ⟨sound, distinct, _, triage⟩
    rw [Nat.zero_add] at triage
    refine ⟨fresh, ⟨title, fun c member => ?_, body, fun member => text _ member rfl, unmarked, sound, distinct, triage⟩, rfl⟩
    have apart := line c member
    exact ⟨apart.1.1, apart.1.2, apart.2⟩
  · rintro ⟨fresh, formed, rfl⟩
    rcases labels.mpr ⟨formed.labels, formed.labelsDistinct, by simp, by simpa using formed.triage⟩ with
      ⟨result, folded, few⟩
    refine ⟨(), fresh, (), ⟨formed.title, fun c member => ?_⟩, (), ⟨formed.body, fun c member same => ?_⟩, (),
      formed.unmarked, result, folded, (), few, rfl⟩
    · have apart := formed.titleLine c member
      exact ⟨⟨apart.1, apart.2.1⟩, apart.2.2⟩
    · exact formed.bodyText (same ▸ member)

theorem checkTickets_eq_ok {tickets : List Ticket} : ∀ {keys : List TicketKey}, keys.Nodup →
    ∀ {later : List TicketKey}, tickets.foldlM checkTicket keys = .ok later ↔
      (∀ ticket ∈ tickets, ticket.WellFormed) ∧ ((tickets.map Ticket.key).reverse ++ keys).Nodup ∧
        later = (tickets.map Ticket.key).reverse ++ keys := by
  induction tickets with
  | nil =>
    intro keys distinct later
    simp [pure, Except.pure, distinct, eq_comm]
  | cons ticket rest ih =>
    intro keys distinct later
    rw [List.foldlM_cons, bind_eq_ok]
    simp only [checkTicket_eq_ok]
    constructor
    · rintro ⟨_, ⟨fresh, formed, rfl⟩, folded⟩
      rcases (ih (List.nodup_cons.mpr ⟨fresh, distinct⟩)).mp folded with ⟨others, apart, rfl⟩
      rw [List.map_cons, List.reverse_cons, List.append_assoc]
      exact ⟨by simpa using ⟨formed, others⟩, apart, rfl⟩
    · rintro ⟨formed, apart, rfl⟩
      rw [List.map_cons, List.reverse_cons, List.append_assoc] at apart ⊢
      have fresh : ticket.key ∉ keys ∧ keys.Nodup := List.nodup_cons.mp (List.nodup_append.mp apart).2.1
      refine ⟨_, ⟨fresh.1, formed ticket List.mem_cons_self, rfl⟩, ?_⟩
      exact (ih (List.nodup_cons.mpr fresh)).mpr
        ⟨fun other member => formed other (List.mem_cons_of_mem _ member), apart, rfl⟩

/-! The limits of the links. -/

theorem nodup_eraseDups : ∀ (length : Nat) (blockers : List Blocker), blockers.length ≤ length →
    blockers.eraseDups.Nodup := by
  intro length
  induction length with
  | zero =>
    intro blockers short
    rw [List.length_eq_zero_iff.mp (Nat.le_zero.mp short)]
    exact List.nodup_nil
  | succ length ih =>
    intro blockers short
    cases blockers with
    | nil => exact List.nodup_nil
    | cons blocker rest =>
      rw [List.eraseDups_cons, List.nodup_cons]
      constructor
      · rw [List.mem_eraseDups, List.mem_filter]
        simp
      · apply ih
        have shorter := List.length_filter_le (fun other => !other == blocker) rest
        rw [List.length_cons] at short
        omega

theorem length_eraseDups (blockers : List Blocker) : blockers.eraseDups.length = blockers.toFinset.card := by
  have distinct := nodup_eraseDups _ blockers le_rfl
  rw [← List.toFinset_card_of_nodup distinct]
  congr 1
  ext blocker
  simp

theorem checkDependencyLimits_eq_ok {tickets : List Ticket} {u : Unit} : checkDependencyLimits tickets = .ok u ↔
    (∀ ticket ∈ tickets, ticket.blockers.toFinset.card ≤ maxDependencies) ∧
      ∀ blocker, tickets.countP (fun ticket => ticket.blockers.contains blocker) ≤ maxDependencies := by
  unfold checkDependencyLimits
  rw [forM_eq_ok]
  simp only [bind_eq_ok, ensure_eq_ok, decide_eq_true_eq, forM_eq_ok, checkCapacity, List.mem_eraseDups,
    length_eraseDups]
  constructor
  · intro limits
    constructor
    · intro ticket member
      rcases limits ticket member with ⟨_, few, _⟩
      exact few
    · intro blocker
      by_cases used : ∃ ticket ∈ tickets, blocker ∈ ticket.blockers
      · rcases used with ⟨ticket, member, blocked⟩
        rcases limits ticket member with ⟨_, _, counts⟩
        exact counts blocker blocked
      · have none : tickets.countP (fun ticket => ticket.blockers.contains blocker) = 0 := by
          rw [List.countP_eq_zero]
          intro ticket member blocked
          rw [List.contains_eq_mem, decide_eq_true_eq] at blocked
          exact used ⟨ticket, member, blocked⟩
        rw [none]
        exact Nat.zero_le _
  · rintro ⟨few, counts⟩ ticket member
    exact ⟨(), few ticket member, fun blocker _ => counts blocker⟩

/-! The rounds that resolve the tickets. -/

theorem resolveTicket_eq (resolved : List TicketKey) (ticket : Ticket) : resolveTicket resolved ticket =
    if ticket.blockerKeys.all resolved.contains then resolved.insert ticket.key else resolved := by
  have ready : (ticket.blockers.all fun
      | .ticket key => resolved.contains key
      | .issue _ => true) = ticket.blockerKeys.all resolved.contains := by
    unfold Ticket.blockerKeys
    induction ticket.blockers with
    | nil => rfl
    | cons blocker rest ih =>
      cases blocker with
      | ticket key | issue number =>
        rw [List.all_cons, ih]
        rfl
  have step : resolveTicket resolved ticket =
      if (ticket.blockers.all fun
        | .ticket key => resolved.contains key
        | .issue _ => true) then resolved.insert ticket.key else resolved := rfl
  rw [step, ready]

theorem mem_resolveTicket {resolved : List TicketKey} {ticket : Ticket} {key : TicketKey} :
    key ∈ resolveTicket resolved ticket ↔
      key ∈ resolved ∨ key = ticket.key ∧ ∀ blocker ∈ ticket.blockerKeys, blocker ∈ resolved := by
  rw [resolveTicket_eq]
  split
  · rename_i ready
    simp only [List.all_eq_true, List.contains_eq_mem, decide_eq_true_eq] at ready
    rw [List.mem_insert_iff]
    constructor
    · rintro (same | earlier)
      · exact .inr ⟨same, ready⟩
      · exact .inl earlier
    · rintro (earlier | ⟨same, _⟩)
      · exact .inr earlier
      · exact .inl same
  · rename_i waiting
    simp only [List.all_eq_true, List.contains_eq_mem, decide_eq_true_eq] at waiting
    constructor
    · exact .inl
    · rintro (earlier | ⟨_, ready⟩)
      · exact earlier
      · exact absurd ready waiting

/-- Keys resolved so far: distinct keys of tickets, none of them on a cycle. -/
structure ResolvedSoFar (tickets : List Ticket) (resolved : List TicketKey) : Prop where
  distinct : resolved.Nodup
  planned : ∀ key ∈ resolved, key ∈ tickets.map Ticket.key
  accessible : ∀ key ∈ resolved, Acc (Blocks tickets) key

theorem ResolvedSoFar.resolveTicket {tickets : List Ticket} {resolved : List TicketKey} {ticket : Ticket}
    (keys : (tickets.map Ticket.key).Nodup) (member : ticket ∈ tickets) (sofar : ResolvedSoFar tickets resolved) :
    ResolvedSoFar tickets (resolveTicket resolved ticket) where
  distinct := by
    rw [resolveTicket_eq]
    split
    · exact sofar.distinct.insert
    · exact sofar.distinct
  planned := by
    intro key resolved
    rcases mem_resolveTicket.mp resolved with earlier | ⟨rfl, _⟩
    · exact sofar.planned key earlier
    · exact List.mem_map_of_mem member
  accessible := by
    intro key resolved
    rcases mem_resolveTicket.mp resolved with earlier | ⟨rfl, ready⟩
    · exact sofar.accessible key earlier
    · constructor
      rintro blocker ⟨other, among, same, blocked⟩
      have equal : other = ticket := List.inj_on_of_nodup_map keys among member same
      exact sofar.accessible blocker (ready blocker (equal ▸ blocked))

theorem ResolvedSoFar.foldl {tickets : List Ticket} (keys : (tickets.map Ticket.key).Nodup) :
    ∀ {some_tickets : List Ticket} {resolved : List TicketKey}, (∀ ticket ∈ some_tickets, ticket ∈ tickets) →
      ResolvedSoFar tickets resolved → ResolvedSoFar tickets (some_tickets.foldl TicketPublication.resolveTicket resolved) := by
  intro some_tickets
  induction some_tickets with
  | nil =>
    intro resolved _ sofar
    exact sofar
  | cons ticket rest ih =>
    intro resolved among sofar
    exact ih (fun other member => among other (List.mem_cons_of_mem _ member))
      (sofar.resolveTicket keys (among ticket List.mem_cons_self))

theorem subset_foldl_resolveTicket : ∀ (tickets : List Ticket) {resolved : List TicketKey} {key : TicketKey},
    key ∈ resolved → key ∈ tickets.foldl resolveTicket resolved := by
  intro tickets
  induction tickets with
  | nil =>
    intro resolved key member
    exact member
  | cons ticket rest ih =>
    intro resolved key member
    exact ih (mem_resolveTicket.mpr (.inl member))

theorem ready_resolveRound : ∀ {tickets : List Ticket} {resolved : List TicketKey} {ticket : Ticket}, ticket ∈ tickets →
    (∀ blocker ∈ ticket.blockerKeys, blocker ∈ resolved) → ticket.key ∈ tickets.foldl resolveTicket resolved := by
  intro tickets
  induction tickets with
  | nil =>
    intro resolved ticket member _
    cases member
  | cons first rest ih =>
    intro resolved ticket member ready
    rw [List.foldl_cons]
    rcases List.mem_cons.mp member with rfl | member
    · exact subset_foldl_resolveTicket rest (mem_resolveTicket.mpr (.inr ⟨rfl, ready⟩))
    · exact ih member fun blocker needed => mem_resolveTicket.mpr (.inl (ready blocker needed))

theorem ResolvedSoFar.complete {tickets : List Ticket} {resolved : List TicketKey}
    (sofar : ResolvedSoFar tickets resolved) (full : tickets.length ≤ resolved.length) :
    ∀ key ∈ tickets.map Ticket.key, key ∈ resolved := by
  have covers : resolved.Perm (tickets.map Ticket.key) :=
    (sofar.distinct.subperm sofar.planned).perm_of_length_le (by rw [List.length_map]; exact full)
  intro key planned
  exact covers.mem_iff.mpr planned

theorem resolve_eq_ok {tickets : List Ticket} (keys : (tickets.map Ticket.key).Nodup)
    (blockers : ∀ ticket ∈ tickets, ∀ key ∈ ticket.blockerKeys, key ∈ tickets.map Ticket.key) :
    ∀ {resolved : List TicketKey}, ResolvedSoFar tickets resolved →
      (resolve tickets resolved = .ok () ↔ Acyclic (Blocks tickets)) := by
  intro resolved
  induction resolved using resolve.induct tickets with
  | case1 resolved full =>
    intro sofar
    rw [resolve, if_pos full]
    refine ⟨fun _ key circle => ?_, fun _ => rfl⟩
    rcases Relation.TransGen.tail'_iff.mp circle with ⟨_, _, ticket, member, rfl, _⟩
    have present := sofar.complete full _ (List.mem_map_of_mem member)
    exact not_transGen_of_acc (sofar.accessible _ present) circle
  | case2 resolved partly grows ih =>
    intro sofar
    rw [resolve, if_neg partly, if_pos grows]
    exact ih (ResolvedSoFar.foldl keys (fun _ member => member) sofar)
  | case3 resolved partly stuck =>
    intro sofar
    rw [resolve, if_neg partly, if_neg stuck]
    refine ⟨nofun, fun acyclic => ?_⟩
    exfalso
    apply stuck
    have left : ∃ ticket ∈ tickets, ticket.key ∉ resolved := by
      by_contra none
      have covered : (tickets.map Ticket.key).Subperm resolved := by
        apply keys.subperm
        intro key planned
        rcases List.mem_map.mp planned with ⟨ticket, member, rfl⟩
        by_contra missing
        exact none ⟨ticket, member, missing⟩
      have long := covered.length_le
      rw [List.length_map] at long
      exact partly long
    rcases exists_ready acyclic blockers left with ⟨ticket, member, missing, ready⟩
    have round : (ticket.key :: resolved).Subperm (resolveRound tickets resolved) := by
      apply (List.nodup_cons.mpr ⟨missing, sofar.distinct⟩).subperm
      intro key present
      rcases List.mem_cons.mp present with rfl | present
      · exact ready_resolveRound member ready
      · exact subset_foldl_resolveTicket tickets present
    exact round.length_le

theorem check_eq_ok {plan : Plan} : plan.check = .ok () ↔ plan.WellFormed ∧ plan.Publishable := by
  have blocker_keys : ∀ (keys : List TicketKey) (u : Unit),
      (plan.tickets.forM fun ticket => ticket.blockers.forM (checkBlocker keys)) = .ok u ↔
        ∀ ticket ∈ plan.tickets, ∀ key ∈ ticket.blockerKeys, key ∈ keys := by
    intro keys u
    cases u
    simp only [forM_eq_ok, mem_blockerKeys]
    constructor
    · intro checked ticket member key blocked
      have known := checked ticket member _ blocked
      simpa [checkBlocker, ensure_eq_ok] using known
    · intro known ticket member blocker blocked
      cases blocker with
      | ticket key => simpa [checkBlocker, ensure_eq_ok] using known ticket member key blocked
      | issue number => rfl
  have nothing : ResolvedSoFar plan.tickets [] := ⟨List.nodup_nil, by simp, by simp⟩
  simp only [Plan.check, bind_eq_ok, ensure_eq_ok, blocker_keys, checkDependencyLimits_eq_ok,
    checkTickets_eq_ok List.nodup_nil, List.append_nil, List.nodup_reverse, beq_iff_eq, decide_eq_true_eq,
    Bool.not_eq_true', List.isEmpty_eq_false_iff]
  constructor
  · rintro ⟨_, version, _, repository, _, nonempty, _, capacity, _, ⟨formed, distinct, rfl⟩, _, blockers, _,
      ⟨few, counts⟩, resolved⟩
    have planned : ∀ ticket ∈ plan.tickets, ∀ key ∈ ticket.blockerKeys, key ∈ plan.tickets.map Ticket.key := by
      intro ticket member key blocked
      simpa using blockers ticket member key blocked
    refine ⟨⟨version, repository, nonempty, capacity, formed⟩, distinct, ?_, few, counts, ?_⟩
    · intro ticket member key blocked
      exact planned ticket member key (mem_blockerKeys.mpr blocked)
    · exact (resolve_eq_ok distinct planned nothing).mp resolved
  · rintro ⟨⟨version, repository, nonempty, capacity, formed⟩, distinct, blockers, few, counts, acyclic⟩
    have planned : ∀ ticket ∈ plan.tickets, ∀ key ∈ ticket.blockerKeys, key ∈ plan.tickets.map Ticket.key :=
      fun ticket member key blocked => blockers ticket member key (mem_blockerKeys.mp blocked)
    refine ⟨(), version, (), repository, (), nonempty, (), capacity, _, ⟨formed, distinct, rfl⟩, (), ?_, (),
      ⟨few, counts⟩, (resolve_eq_ok distinct planned nothing).mpr acyclic⟩
    intro ticket member key blocked
    simpa using planned ticket member key blocked

end TicketPublication

import BazelRepo.TicketPublication.Safety
import Mathlib.Data.List.Nodup
import Mathlib.Logic.Relation

namespace TicketPublication

open Library

/-- The directory of a batch and what happened in it. The snapshots that took the name of the durable one
since it was synchronized are pending, oldest first; each of them may become durable at any time. -/
structure Directory where
  durable : Option Batch := none
  pending : List Batch := []
  running : Option (Command × Program Call Call.Answer (Except Failure Unit)) := none
  /-- The title and the body of every creation request. -/
  sent : List (String × String) := []
  /-- The authorizations whose snapshot took its name. -/
  authorized : TicketKey → Nat := fun _ => 0
  /-- The authorizations that reported success. -/
  succeeded : TicketKey → Nat := fun _ => 0

def Directory.versions (directory : Directory) : List Batch := directory.durable.toList ++ directory.pending

def Directory.visible (directory : Directory) : Option Batch := directory.versions.getLast?

def increment (authority : Option TicketKey) (counts : TicketKey → Nat) (key : TicketKey) : Nat :=
  counts key + if authority = some key then 1 else 0

def Directory.renamed (directory : Directory) (authority : Option TicketKey) (batch : Batch) : Directory :=
  { directory with
    pending := directory.pending ++ [batch]
    authorized := increment authority directory.authorized }

def Directory.synchronized (directory : Directory) : Directory :=
  { directory with
    durable := directory.visible
    pending := [] }

def Directory.persisted (directory : Directory) (authority : Option TicketKey) (batch : Batch) :
    SaveOutcome → Directory
  | .refused => directory
  | .unsynced => directory.renamed authority batch
  | .saved => (directory.renamed authority batch).synchronized

/-- A snapshot does not take the name of another one unless it replaces it. -/
def Directory.Possible (directory : Directory) : (call : Call) → call.Answer → Prop
  | .persistNoclobber _, outcome => directory.visible.isSome = true → outcome = .refused
  | .persist _, _ | .create .., _ | .remote _, _ => True

def Directory.answered (directory : Directory) (authority : Option TicketKey) :
    (call : Call) → call.Answer → Directory
  | .remote _, _ => directory
  | .create title body, _ => { directory with sent := directory.sent ++ [(title, body)] }
  | .persist batch, outcome => directory.persisted authority batch outcome
  | .persistNoclobber batch, outcome => directory.persisted authority batch outcome

def Directory.finished (directory : Directory) (authority : Option TicketKey) (result : Except Failure Unit) :
    Directory :=
  { directory with
    running := none
    succeeded := match result with
      | .ok _ => increment authority directory.succeeded
      | .error _ => directory.succeeded }

/-- Whatever was not synchronized is gone, and so is every process. -/
def Directory.powerLoss (directory : Directory) : Directory :=
  { directory with
    pending := []
    running := none }

section Steps

variable [Fingerprint]

/-- One step in a directory. The lock admits one command at a time; a crash can come between any two calls,
and a call whose answer is lost is one that is answered before the crash. -/
inductive Directory.Step (id : BatchId) : Directory → Directory → Prop where
  | start {directory : Directory} (command : Command) (free : directory.running = none) :
    Step id directory { directory with running := some (command, command.execute id directory.visible) }
  | answer {directory : Directory} {command : Command} {call : Call}
    {next : call.Answer → Program Call Call.Answer (Except Failure Unit)} (answer : call.Answer)
    (asking : directory.running = some (command, .ask call next)) (possible : directory.Possible call answer) :
    Step id directory { directory.answered command.authority call answer with running := some (command, next answer) }
  | finish {directory : Directory} {command : Command} {result : Except Failure Unit}
    (ended : directory.running = some (command, .done result)) :
    Step id directory (directory.finished command.authority result)
  | crash (directory : Directory) : Step id directory { directory with running := none }
  | writeback {directory : Directory} {batch : Batch} {later : List Batch} (waiting : directory.pending = batch :: later) :
    Step id directory { directory with durable := some batch, pending := later }
  | powerLoss (directory : Directory) : Step id directory directory.powerLoss

abbrev Root := BatchId → Directory

inductive Root.Step : Root → Root → Prop where
  | directory {root : Root} {id : BatchId} {next : Directory} (step : Directory.Step id (root id) next) :
    Step root (Function.update root id next)
  | powerLoss (root : Root) : Step root fun id => (root id).powerLoss

abbrev Root.Steps (before after : Root) : Prop := Relation.ReflTransGen Root.Step before after

def Root.empty : Root := fun _ => {}

end Steps

theorem colon_not_mem_key (key : TicketKey) : ':' ∉ key.val.toList := by
  intro member
  have valid := key.valid
  simp only [isTicketKey, Bool.and_eq_true, List.all_eq_true] at valid
  have allowed := valid.1.2 ':' member
  revert allowed
  decide

theorem issueBody_inj {id : BatchId} {first second : TicketKey} {body other : String}
    (same : issueBody body (markerOf id first) = issueBody other (markerOf id second)) : first = second := by
  have spelled : ∀ (text : String) (key : TicketKey), (issueBody text (markerOf id key)).toList =
      (text ++ "\n\n" ++ ("<!-- ticket-publication:" ++ id.asStr)).toList ++ ':' :: (key.val.toList ++ " -->".toList) := by
    intro text key
    have parts : issueBody text (markerOf id key) =
        text ++ "\n\n" ++ ("<!-- ticket-publication:" ++ id.asStr) ++ (":" ++ (key.val ++ " -->")) := by
      show text ++ "\n\n" ++ ("<!-- ticket-publication:" ++ id.asStr ++ ":" ++ key.val ++ " -->") = _
      simp only [String.append_assoc]
    have ending : (":" ++ (key.val ++ " -->")).toList = ':' :: (key.val.toList ++ " -->".toList) := by
      rw [String.toList_append, String.toList_append]
      rfl
    rw [parts, String.toList_append, ending]
  have fresh : ∀ key : TicketKey, ':' ∉ key.val.toList ++ " -->".toList := by
    intro key member
    rcases List.mem_append.mp member with member | member
    · exact colon_not_mem_key key member
    · revert member
      decide
  have lists := congrArg String.toList same
  rw [spelled, spelled] at lists
  have keys := List.append_cancel_right (append_cons_inj (fresh first) (fresh second) lists)
  cases first
  cases second
  congr 1
  exact String.toList_injective keys

def ticketRequest (id : BatchId) (ticket : Ticket) : String × String :=
  (ticket.title, issueBody ticket.body (markerOf id ticket.key))

def Directory.requests (directory : Directory) (id : BatchId) (ticket : Ticket) : Nat :=
  directory.sent.count (ticketRequest id ticket)

theorem key_of_ticketRequest {id : BatchId} {first second : Ticket}
    (same : ticketRequest id first = ticketRequest id second) : first.key = second.key :=
  issueBody_inj (congrArg Prod.snd same)

theorem keys_of_checkTickets {tickets : List Ticket} : ∀ {known keys : List TicketKey},
    tickets.foldlM checkTicket known = .ok keys → known.Nodup → ((tickets.map Ticket.key).reverse ++ known).Nodup := by
  induction tickets with
  | nil =>
    intro known keys _ distinct
    exact distinct
  | cons ticket rest ih =>
    intro known keys checked distinct
    rw [List.foldlM_cons, bind_eq_ok] at checked
    rcases checked with ⟨next, first, later⟩
    simp only [checkTicket, bind_eq_ok, ensure_eq_ok, Except.ok.injEq] at first
    rcases first with ⟨_, unknown, _, _, _, _, _, _, _, _, _, _, rfl⟩
    have fresh : ticket.key ∉ known := by simpa using unknown
    have later := ih later (List.nodup_cons.mpr ⟨fresh, distinct⟩)
    rw [List.map_cons, List.reverse_cons, List.append_assoc]
    exact later

theorem keys_nodup_of_check {plan : Plan} (checked : plan.check = .ok ()) : plan.keys.Nodup := by
  simp only [Plan.check, bind_eq_ok] at checked
  rcases checked with ⟨_, _, _, _, _, _, _, _, keys, folded, _⟩
  have distinct := keys_of_checkTickets folded List.nodup_nil
  rw [List.append_nil, List.nodup_reverse] at distinct
  exact distinct

theorem index_of_key {plan : Plan} (checked : plan.check = .ok ()) {i j : Nat} {first second : Ticket}
    (atI : plan.tickets[i]? = some first) (atJ : plan.tickets[j]? = some second) (same : first.key = second.key) :
    i = j := by
  have distinct := keys_nodup_of_check checked
  have keyI : plan.keys[i]? = some first.key := by rw [Plan.keys, List.getElem?_map, atI, Option.map_some]
  have keyJ : plan.keys[j]? = some second.key := by rw [Plan.keys, List.getElem?_map, atJ, Option.map_some]
  have inside : i < plan.keys.length := (List.getElem?_eq_some_iff.mp keyI).1
  apply (List.getElem?_inj inside distinct).mp
  rw [keyI, keyJ, same]

end TicketPublication

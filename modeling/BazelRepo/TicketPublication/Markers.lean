import BazelRepo.TicketPublication.CreationOrder

namespace TicketPublication

open Library Library.Stateful

section Checked

variable [Fingerprint] {id id' : BatchId} {batch batch' : Batch}

end Checked

/-! What a reconstruction finds. -/

def Publishes (batch : Batch) (index : Nat) (issue : Issue) : Prop :=
  ∃ ticket, batch.plan.tickets[index]? = some ticket ∧ issue.body = some (issueBody ticket.body (batch.marker index))

theorem leads_bind {α β : Type} {before : Batch} {step : Publishing α} {f : α → Publishing β}
    {middle : Batch → α → Prop} {after : Batch → Prop}
    (first : Keeps anything (fun _ batch => batch = before) step fun _ batch a => middle batch a)
    (second : ∀ a batch, middle batch a → Leads batch (f a) after) : Leads before (step >>= f) after := by
  apply Keeps.bind first
  intro a known batch holds
  exact second a batch holds known batch rfl

/-- The tickets done so far are either without an issue or have one that is published as theirs. -/
structure Recovered (start : Batch) (issues : List Issue) (done : List Nat) (batch : Batch) : Prop where
  plan : batch.plan = start.plan
  length : batch.tickets.length = start.tickets.length
  markers : ∀ index, batch.marker index = start.marker index
  tickets : ∀ index ∈ done, ∀ mapping, batch.status index = .created mapping →
    ∃ remote ∈ issues, remote.mapping = mapping ∧ Publishes start index remote

theorem Recovered.withStatus {start batch : Batch} {issues : List Issue} {done : List Nat} {index : Nat}
    {status : TicketStatus} (recovered : Recovered start issues done batch) (fresh : index ∉ done)
    (published : ∀ mapping, status = .created mapping →
      ∃ remote ∈ issues, remote.mapping = mapping ∧ Publishes start index remote)
    (inside : index < start.tickets.length) : Recovered start issues (done ++ [index]) (batch.withStatus index status) where
  plan := recovered.plan
  length := by
    rw [Batch.withStatus, List.length_modify]
    exact recovered.length
  markers other := (Batch.marker_withStatus batch index status other).trans (recovered.markers other)
  tickets := by
    intro other member mapping created
    rw [Batch.status_withStatus] at created
    rcases List.mem_append.mp member with earlier | here
    · have apart : other ≠ index := fun same => fresh (same ▸ earlier)
      rw [if_neg fun both => apart both.1] at created
      exact recovered.tickets other earlier mapping created
    · have same := List.mem_singleton.mp here
      subst same
      rw [if_pos ⟨rfl, recovered.length ▸ inside⟩] at created
      exact published mapping created

end TicketPublication

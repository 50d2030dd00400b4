import BazelRepo.Library.Ranking
import Mathlib.Data.List.Perm.Subperm

namespace Library

variable {α κ : Type*} [LinearOrder κ] {key : α → κ} {after : Option κ} {limit : ℕ} {rows : List α}

def Behind (after : Option κ) (k : κ) : Prop := ∀ start, after = some start → start < k

instance (after : Option κ) (k : κ) : Decidable (Behind after k) :=
  match after with
  | none => .isTrue nofun
  | some start => decidable_of_iff (start < k) ⟨fun behind _ same => Option.some_inj.mp same ▸ behind, fun all => all start rfl⟩

/-- The rows behind a key in the order of their keys, as many as the limit allows. -/
def rowsAfter (key : α → κ) (after : Option κ) (limit : ℕ) (rows : List α) : List α :=
  (sortByKey key (rows.filter fun row => Behind after (key row))).take limit

structure Page (α : Type*) where
  items : List α
  hasNext : Bool

/-- A page is one row shorter than what is asked for, if there is that row. -/
def pageAfter (key : α → κ) (after : Option κ) (limit : ℕ) (rows : List α) : Page α :=
  let fetched := rowsAfter key after (limit + 1) rows
  if limit < fetched.length then { items := fetched.dropLast, hasNext := true }
  else { items := fetched, hasNext := false }

/-- The first rows behind a key in their order, a full page of them if more follow. -/
structure Page.Exact (key : α → κ) (after : Option κ) (limit : ℕ) (rows : List α) (page : Page α) : Prop where
  sorted : page.items.Pairwise fun a b => key a < key b
  bounded : page.items.length ≤ limit
  full : page.hasNext = true → page.items.length = limit
  present : ∀ row ∈ page.items, row ∈ rows ∧ Behind after (key row)
  complete : ∀ row ∈ rows, Behind after (key row) → row ∈ page.items ∨
    (page.hasNext = true ∧ ∀ item ∈ page.items, key item < key row)
  next : page.hasNext = true → ∃ row ∈ rows, Behind after (key row) ∧ ∀ item ∈ page.items, key item < key row

theorem exact_pageAfter (key : α → κ) (after : Option κ) (limit : ℕ) (distinct : (rows.map key).Nodup) :
    (pageAfter key after limit rows).Exact key after limit rows := by
  have member : ∀ row, row ∈ sortByKey key (rows.filter fun row => Behind after (key row)) ↔
      row ∈ rows ∧ Behind after (key row) := by
    intro row
    rw [mem_sortByKey, List.mem_filter, decide_eq_true_eq]
  have sorted : (sortByKey key (rows.filter fun row => Behind after (key row))).Pairwise fun a b => key a < key b :=
    strict_sortByKey (List.Nodup.sublist (List.filter_sublist.map key) distinct)
  unfold pageAfter rowsAfter
  generalize sortByKey key (rows.filter fun row => Behind after (key row)) = behind at member sorted
  dsimp only
  rw [List.length_take]
  by_cases more : limit < min (limit + 1) behind.length
  · rw [if_pos more]
    have inside : limit < behind.length := by omega
    have items : (behind.take (limit + 1)).dropLast = behind.take limit := by
      rw [List.dropLast_eq_take, List.length_take, List.take_take]
      congr 1
      omega
    rw [items]
    have pairs := sorted
    rw [← List.take_append_drop limit behind, List.pairwise_append] at pairs
    refine ⟨pairs.1, List.length_take_le _ _, ?_, ?_, ?_, ?_⟩
    · intro _
      rw [List.length_take]
      omega
    · intro row found
      exact (member row).mp (List.mem_of_mem_take found)
    · intro row listed follows
      have found := (member row).mpr ⟨listed, follows⟩
      rw [← List.take_append_drop limit behind] at found
      rcases List.mem_append.mp found with first | later
      · exact .inl first
      · exact .inr ⟨rfl, fun item early => pairs.2.2 item early row later⟩
    · intro _
      have next : behind[limit] ∈ behind.drop limit := by
        rw [List.drop_eq_getElem_cons inside]
        exact List.mem_cons_self
      rcases (member _).mp (List.getElem_mem inside) with ⟨listed, follows⟩
      exact ⟨behind[limit], listed, follows, fun item early => pairs.2.2 item early _ next⟩
  · rw [if_neg more]
    have whole : behind.take (limit + 1) = behind := List.take_of_length_le (by omega)
    rw [whole]
    refine ⟨sorted, by dsimp only; omega, nofun, ?_, ?_, nofun⟩
    · intro row found
      exact (member row).mp found
    · intro row listed follows
      exact .inl ((member row).mpr ⟨listed, follows⟩)

/-- The pages of requests that each go on behind the last row of the page before, through tables that change in between,
up to the first page that nothing follows. -/
def pages (key : α → κ) : Option κ → List (List α × ℕ) → List (Page α)
  | _, [] => []
  | after, (rows, limit) :: later =>
    let page := pageAfter key after limit rows
    if page.hasNext then page :: pages key (page.items.getLast?.map key) later else [page]

def Finished (all : List (Page α)) : Prop := ∃ last, all.getLast? = some last ∧ last.hasNext = false

/-- Requests of at least one row, on tables with a key of its own for every row. -/
def Askable (key : α → κ) (requests : List (List α × ℕ)) : Prop :=
  ∀ request ∈ requests, (request.1.map key).Nodup ∧ 1 ≤ request.2

section

variable {requests : List (List α × ℕ)}

theorem Page.Exact.last {page : Page α} (exact : page.Exact key after limit rows) (positive : 1 ≤ limit)
    (next : page.hasNext = true) : ∃ last ∈ page.items, page.items.getLast?.map key = some (key last) ∧
      ∀ item ∈ page.items, key item ≤ key last := by
  have full := exact.full next
  cases found : page.items.getLast? with
  | none =>
    rw [List.getLast?_eq_none_iff.mp found] at full
    rw [List.length_nil] at full
    omega
  | some last =>
    refine ⟨last, List.mem_of_getLast? found, rfl, ?_⟩
    intro item member
    rcases List.getLast?_eq_some_iff.mp found with ⟨before, split⟩
    have sorted := exact.sorted
    rw [split] at member sorted
    rcases List.mem_append.mp member with early | same
    · exact ((List.pairwise_append.mp sorted).2.2 item early last (List.mem_singleton_self last)).le
    · rw [List.mem_singleton.mp same]

theorem sorted_pages : ∀ after : Option κ, Askable key requests →
    (∀ item ∈ (pages key after requests).flatMap Page.items, Behind after (key item)) ∧
      ((pages key after requests).flatMap Page.items).Pairwise fun a b => key a < key b := by
  induction requests with
  | nil =>
    intro after _
    exact ⟨nofun, List.Pairwise.nil⟩
  | cons request later ih =>
    intro after askable
    rcases request with ⟨rows, limit⟩
    rcases askable _ List.mem_cons_self with ⟨distinct, positive⟩
    have exact := exact_pageAfter key after limit distinct
    unfold pages
    dsimp only
    by_cases next : (pageAfter key after limit rows).hasNext = true
    · rw [if_pos next, List.flatMap_cons]
      rcases exact.last positive next with ⟨last, found, ends, below⟩
      rcases ih ((pageAfter key after limit rows).items.getLast?.map key)
        (fun request member => askable request (List.mem_cons_of_mem _ member)) with ⟨behind, sorted⟩
      rw [ends] at behind sorted ⊢
      have above : ∀ item ∈ (pages key (some (key last)) later).flatMap Page.items, key last < key item :=
        fun item member => behind item member _ rfl
      refine ⟨?_, ?_⟩
      · intro item member
        rcases List.mem_append.mp member with first | rest
        · exact (exact.present item first).2
        · intro start same
          exact ((exact.present last found).2 start same).trans (above item rest)
      · rw [List.pairwise_append]
        refine ⟨exact.sorted, sorted, ?_⟩
        intro item first other rest
        exact (below item first).trans_lt (above other rest)
    · rw [if_neg next, List.flatMap_cons, List.flatMap_nil, List.append_nil]
      exact ⟨fun item member => (exact.present item member).2, exact.sorted⟩

theorem complete_pages {k : κ} : ∀ {after : Option κ}, Askable key requests → Finished (pages key after requests) →
    Behind after k → (∀ request ∈ requests.take (pages key after requests).length, ∃ row ∈ request.1, key row = k) →
      ∃ item ∈ (pages key after requests).flatMap Page.items, key item = k := by
  induction requests with
  | nil =>
    rintro after _ ⟨last, found, _⟩
    cases found
  | cons request later ih =>
    intro after askable finished behind throughout
    rcases request with ⟨rows, limit⟩
    rcases askable _ List.mem_cons_self with ⟨distinct, positive⟩
    have exact := exact_pageAfter key after limit distinct
    unfold pages at finished throughout ⊢
    dsimp only at finished throughout ⊢
    by_cases next : (pageAfter key after limit rows).hasNext = true
    · rw [if_pos next] at finished throughout ⊢
      rw [List.length_cons, List.take_succ_cons] at throughout
      rcases throughout _ List.mem_cons_self with ⟨row, listed, rfl⟩
      rcases exact.complete row listed behind with first | ⟨_, follows⟩
      · exact ⟨row, by rw [List.flatMap_cons]; exact List.mem_append_left _ first, rfl⟩
      · rcases exact.last positive next with ⟨last, found, ends, _⟩
        have further : Behind ((pageAfter key after limit rows).items.getLast?.map key) (key row) := by
          rw [ends]
          intro start same
          rw [← Option.some_inj.mp same]
          exact follows last found
        have rest : Finished (pages key ((pageAfter key after limit rows).items.getLast?.map key) later) := by
          rcases finished with ⟨end', ended, none⟩
          cases remaining : pages key ((pageAfter key after limit rows).items.getLast?.map key) later with
          | nil =>
            rw [remaining] at ended
            have same : pageAfter key after limit rows = end' := Option.some_inj.mp ended
            rw [← same, next] at none
            cases none
          | cons second others =>
            rw [remaining, List.getLast?_cons_cons] at ended
            exact ⟨end', ended, none⟩
        rcases ih (fun request member => askable request (List.mem_cons_of_mem _ member)) rest further
          (fun request member => throughout request (List.mem_cons_of_mem _ member)) with ⟨item, member, same⟩
        exact ⟨item, by rw [List.flatMap_cons]; exact List.mem_append_right _ member, same⟩
    · rw [if_neg next] at throughout ⊢
      rcases throughout _ List.mem_cons_self with ⟨row, listed, rfl⟩
      rcases exact.complete row listed behind with first | ⟨more, _⟩
      · exact ⟨row, by rw [List.flatMap_cons]; exact List.mem_append_left _ first, rfl⟩
      · exact absurd more next

theorem page_at {page : Page α} : ∀ {after : Option κ} {i : ℕ}, Askable key requests →
    (pages key after requests)[i]? = some page → ∃ rows limit start, requests[i]? = some (rows, limit) ∧
      page.Exact key start limit rows ∧
        ∀ k, Behind start k ↔ Behind after k ∧ ∀ item ∈ ((pages key after requests).take i).flatMap Page.items, key item < k := by
  induction requests with
  | nil =>
    intro after i _ found
    cases found
  | cons request later ih =>
    intro after i askable found
    rcases request with ⟨rows, limit⟩
    rcases askable _ List.mem_cons_self with ⟨distinct, positive⟩
    have exact := exact_pageAfter key after limit distinct
    unfold pages at found ⊢
    dsimp only at found ⊢
    cases i with
    | zero =>
      have first : page = pageAfter key after limit rows := by
        split at found
        · exact (Option.some_inj.mp found).symm
        · exact (Option.some_inj.mp found).symm
      rw [first]
      refine ⟨rows, limit, after, rfl, exact, ?_⟩
      intro k
      rw [List.take_zero, List.flatMap_nil]
      exact (and_iff_left nofun).symm
    | succ i =>
      by_cases next : (pageAfter key after limit rows).hasNext = true
      · rw [if_pos next] at found ⊢
        rcases ih (fun request member => askable request (List.mem_cons_of_mem _ member)) found with
          ⟨rows', limit', start, asked, page_exact, behind⟩
        refine ⟨rows', limit', start, asked, page_exact, ?_⟩
        intro k
        rcases exact.last positive next with ⟨last, member, ends, below⟩
        have moved : pages key ((pageAfter key after limit rows).items.getLast?.map key) later =
            pages key (some (key last)) later := by
          rw [ends]
        rw [behind k, moved, ends, List.take_succ_cons, List.flatMap_cons]
        constructor
        · rintro ⟨follows, rest⟩
          have above : key last < k := follows _ rfl
          refine ⟨fun start same => ((exact.present last member).2 start same).trans above, ?_⟩
          intro item inside
          rcases List.mem_append.mp inside with early | late
          · exact (below item early).trans_lt above
          · exact rest item late
        · rintro ⟨_, all⟩
          refine ⟨?_, ?_⟩
          · intro start same
            rw [← Option.some_inj.mp same]
            exact all last (List.mem_append_left _ member)
          · intro item late
            exact all item (List.mem_append_right _ late)
      · rw [if_neg next] at found
        cases found

theorem unfinished_pages : ∀ {after : Option κ}, ¬ Finished (pages key after requests) →
    (pages key after requests).length = requests.length ∧ ∀ page ∈ pages key after requests, page.hasNext = true := by
  induction requests with
  | nil => exact fun {after} _ => ⟨rfl, nofun⟩
  | cons request later ih =>
    intro after unfinished
    rcases request with ⟨rows, limit⟩
    unfold pages at unfinished ⊢
    dsimp only at unfinished ⊢
    by_cases next : (pageAfter key after limit rows).hasNext = true
    · rw [if_pos next] at unfinished ⊢
      have rest : ¬ Finished (pages key ((pageAfter key after limit rows).items.getLast?.map key) later) := by
        rintro ⟨last, ended, none⟩
        apply unfinished
        refine ⟨last, ?_, none⟩
        rw [List.getLast?_cons, ended]
        rfl
      rcases ih rest with ⟨lengths, all⟩
      refine ⟨by rw [List.length_cons, lengths, List.length_cons], ?_⟩
      intro page member
      rcases List.mem_cons.mp member with rfl | other
      · exact next
      · exact all page other
    · rw [if_neg next] at unfinished
      have none : (pageAfter key after limit rows).hasNext = false := Bool.eq_false_iff.mpr next
      exact absurd ⟨_, rfl, none⟩ unfinished

theorem length_le_flatMap {all : List (Page α)} (nonempty : ∀ page ∈ all, page.items ≠ []) :
    all.length ≤ (all.flatMap Page.items).length := by
  induction all with
  | nil => exact Nat.le_refl 0
  | cons page rest ih =>
    have first := List.length_pos_iff.mpr (nonempty page List.mem_cons_self)
    have others := ih fun page member => nonempty page (List.mem_cons_of_mem _ member)
    rw [List.flatMap_cons, List.length_append, List.length_cons]
    omega

theorem finished_pages {before later : List (List α × ℕ)} (askable : Askable key requests)
    (split : requests = before ++ (rows, limit) :: later)
    (stopped : ∀ request ∈ later, ∀ row ∈ request.1, key row ∈ rows.map key) (enough : rows.length ≤ later.length) :
    Finished (pages key after requests) := by
  by_contra unfinished
  rcases unfinished_pages unfinished with ⟨lengths, followed⟩
  have tables : ∀ page ∈ (pages key after requests).drop before.length, page.items ≠ [] ∧
      ∀ item ∈ page.items, key item ∈ rows.map key := by
    intro page member
    rcases List.getElem?_of_mem member with ⟨i, found⟩
    rw [List.getElem?_drop] at found
    rcases page_at askable found with ⟨table, size, start, asked, exact, _⟩
    have listed : (table, size) ∈ (rows, limit) :: later := by
      rw [split, List.getElem?_append_right (Nat.le_add_right _ _), Nat.add_sub_cancel_left] at asked
      exact List.mem_of_getElem? asked
    refine ⟨?_, ?_⟩
    · intro empty
      have full := exact.full (followed page (List.mem_of_mem_drop member))
      have positive := (askable _ (List.mem_of_getElem? asked)).2
      rw [empty, List.length_nil] at full
      omega
    · intro item inside
      rcases List.mem_cons.mp listed with same | changed
      · cases same
        exact List.mem_map_of_mem (exact.present item inside).1
      · exact stopped _ changed item (exact.present item inside).1
  have sorted := (sorted_pages after askable).2
  rw [← List.take_append_drop before.length (pages key after requests), List.flatMap_append, List.pairwise_append] at sorted
  have distinct : ((((pages key after requests).drop before.length).flatMap Page.items).map key).Nodup := by
    rw [List.nodup_iff_pairwise_ne, List.pairwise_map]
    exact sorted.2.1.imp fun below => ne_of_lt below
  have inside : (((pages key after requests).drop before.length).flatMap Page.items).map key ⊆ rows.map key := by
    intro k member
    rcases List.mem_map.mp member with ⟨item, listed, rfl⟩
    rcases List.mem_flatMap.mp listed with ⟨page, drawn, found⟩
    exact (tables page drawn).2 item found
  have bound := (List.subperm_of_subset distinct inside).length_le
  have count := length_le_flatMap fun page member => (tables page member).1
  rw [List.length_map, List.length_map] at bound
  have total : requests.length = before.length + (later.length + 1) := by
    rw [split, List.length_append, List.length_cons]
  rw [List.length_drop, lengths] at count
  omega

end

end Library

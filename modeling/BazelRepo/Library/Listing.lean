import BazelRepo.Library.Checked
import BazelRepo.Library.TreeMap
import Mathlib.Data.List.ReduceOption
import Mathlib.Order.Defs.LinearOrder

namespace Library

section Rows

variable {ε α β σ : Type}

theorem mapM_cons_eq_ok {f : α → Except ε β} {a : α} {rest : List α} {outputs : List β} :
    (a :: rest).mapM f = .ok outputs ↔ ∃ b others, f a = .ok b ∧ rest.mapM f = .ok others ∧ outputs = b :: others := by
  rw [List.mapM_cons, bind_eq_ok]
  apply Iff.intro
  · rintro ⟨b, first, later⟩
    rcases bind_eq_ok.mp later with ⟨others, tail, same⟩
    cases same
    exact ⟨b, others, first, tail, rfl⟩
  · rintro ⟨b, others, first, tail, rfl⟩
    exact ⟨b, first, bind_eq_ok.mpr ⟨others, tail, rfl⟩⟩

theorem mem_of_mapM {f : α → Except ε β} {rows : List α} :
    ∀ {outputs : List β}, rows.mapM f = .ok outputs → ∀ b, b ∈ outputs ↔ ∃ a ∈ rows, f a = .ok b := by
  induction rows with
  | nil =>
    rintro outputs computed b
    cases computed
    simp
  | cons a rest ih =>
    intro outputs computed b
    rcases mapM_cons_eq_ok.mp computed with ⟨first, others, head, tail, rfl⟩
    rw [List.mem_cons, ih tail b, List.exists_mem_cons_iff, head]
    simp [eq_comm]

theorem map_eq_of_mapM {γ : Type} {f : α → Except ε β} {g : β → γ} {h : α → γ} {rows : List α}
    (agree : ∀ a ∈ rows, ∀ b, f a = .ok b → g b = h a) :
    ∀ {outputs : List β}, rows.mapM f = .ok outputs → outputs.map g = rows.map h := by
  induction rows with
  | nil =>
    intro outputs mapped
    cases mapped
    rfl
  | cons a rest ih =>
    intro outputs mapped
    rcases mapM_cons_eq_ok.mp mapped with ⟨b, others, head, tail, rfl⟩
    rw [List.map_cons, List.map_cons, agree a List.mem_cons_self b head,
      ih (fun other member => agree other (List.mem_cons_of_mem _ member)) tail]

theorem map_of_mapM {f : α → Except ε β} {g : β → α} {rows : List α}
    (undoes : ∀ a ∈ rows, ∀ b, f a = .ok b → g b = a) {outputs : List β} (mapped : rows.mapM f = .ok outputs) :
    outputs.map g = rows := by
  rw [map_eq_of_mapM undoes mapped, List.map_id']

theorem mapM_perm {f : α → Except ε β} {rows others : List α} (perm : rows.Perm others) :
    ∀ {outputs : List β}, rows.mapM f = .ok outputs →
      ∃ permuted, others.mapM f = .ok permuted ∧ outputs.Perm permuted := by
  induction perm with
  | nil => exact fun computed => ⟨_, computed, .refl _⟩
  | cons a _ ih =>
    intro outputs computed
    rcases mapM_cons_eq_ok.mp computed with ⟨b, rest, first, tail, rfl⟩
    rcases ih tail with ⟨permuted, read, same⟩
    exact ⟨b :: permuted, mapM_cons_eq_ok.mpr ⟨b, permuted, first, read, rfl⟩, same.cons b⟩
  | swap a c rest =>
    intro outputs computed
    rcases mapM_cons_eq_ok.mp computed with ⟨b, _, first, later, rfl⟩
    rcases mapM_cons_eq_ok.mp later with ⟨d, rest, second, tail, rfl⟩
    have inner := mapM_cons_eq_ok.mpr ⟨b, rest, first, tail, rfl⟩
    exact ⟨d :: b :: rest, mapM_cons_eq_ok.mpr ⟨d, b :: rest, second, inner, rfl⟩, .swap d b rest⟩
  | trans _ _ ih ih' =>
    intro outputs computed
    rcases ih computed with ⟨middle, read, same⟩
    rcases ih' read with ⟨permuted, read', same'⟩
    exact ⟨permuted, read', same.trans same'⟩

def foldRows (read : α → Except ε (Option β)) (note : σ → β → Except ε σ) (s : σ) (rows : List α) : Except ε σ :=
  rows.foldlM (fun s row => do
    let entry ← read row
    match entry with
    | none => .ok s
    | some b => note s b) s

theorem foldRows_eq_ok {read : α → Except ε (Option β)} {note : σ → β → Except ε σ} {rows : List α} :
    ∀ {s s' : σ}, foldRows read note s rows = .ok s' ↔
      ∃ entries, rows.mapM read = .ok entries ∧ entries.reduceOption.foldlM note s = .ok s' := by
  induction rows with
  | nil =>
    intro s s'
    apply Iff.intro
    · exact fun run => ⟨[], rfl, run⟩
    · rintro ⟨_, read, run⟩
      cases read
      exact run
  | cons row rest ih =>
    intro s s'
    have unfolded : foldRows read note s (row :: rest) = .ok s' ↔ ∃ entry, read row = .ok entry ∧
        ∃ middle, (match entry with | none => .ok s | some b => note s b : Except ε σ) = .ok middle ∧
          foldRows read note middle rest = .ok s' := by
      unfold foldRows
      rw [List.foldlM_cons, bind_eq_ok]
      apply Iff.intro
      · rintro ⟨middle, step, run⟩
        rcases bind_eq_ok.mp step with ⟨entry, parsed, noted⟩
        exact ⟨entry, parsed, middle, noted, run⟩
      · rintro ⟨entry, parsed, middle, noted, run⟩
        exact ⟨middle, bind_eq_ok.mpr ⟨entry, parsed, noted⟩, run⟩
    rw [unfolded]
    apply Iff.intro
    · rintro ⟨entry, parsed, middle, noted, run⟩
      rcases ih.mp run with ⟨entries, others, folded⟩
      refine ⟨entry :: entries, mapM_cons_eq_ok.mpr ⟨entry, entries, parsed, others, rfl⟩, ?_⟩
      cases entry with
      | none =>
        cases noted
        exact folded
      | some b => exact bind_eq_ok.mpr ⟨middle, noted, folded⟩
    · rintro ⟨all, whole, folded⟩
      rcases mapM_cons_eq_ok.mp whole with ⟨entry, entries, parsed, others, rfl⟩
      refine ⟨entry, parsed, ?_⟩
      cases entry with
      | none => exact ⟨s, rfl, ih.mpr ⟨entries, others, folded⟩⟩
      | some b =>
        rcases bind_eq_ok.mp folded with ⟨middle, noted, folded⟩
        exact ⟨middle, noted, ih.mpr ⟨entries, others, folded⟩⟩

theorem mem_entries {read : α → Except ε (Option β)} {rows : List α} {entries : List (Option β)}
    (parsed : rows.mapM read = .ok entries) (b : β) :
    b ∈ entries.reduceOption ↔ ∃ row ∈ rows, read row = .ok (some b) := by
  rw [List.reduceOption_mem_iff, mem_of_mapM parsed]

theorem nodup_entries {γ : Type} {read : α → Except ε (Option β)} {named : α → Option γ} {name : β → γ}
    (keeps : ∀ row b, read row = .ok (some b) → named row = some (name b)) {rows : List α} :
    ∀ {entries : List (Option β)}, rows.mapM read = .ok entries →
      (entries.reduceOption.map name).Sublist (rows.filterMap named) := by
  induction rows with
  | nil =>
    intro entries parsed
    cases parsed
    exact .slnil
  | cons row rest ih =>
    intro all parsed
    rcases mapM_cons_eq_ok.mp parsed with ⟨entry, entries, first, others, rfl⟩
    cases entry with
    | none =>
      rw [List.reduceOption_cons_of_none]
      exact (ih others).trans ((List.sublist_cons_self row rest).filterMap named)
    | some b =>
      rw [List.reduceOption_cons_of_some, List.map_cons, List.filterMap_cons_some (keeps row b first)]
      exact (ih others).cons_cons _

end Rows

section Newest

variable {ι α : Type} [LinearOrder ι]

def newer (latest : Option (ι × α)) (entry : ι × α) : Option (ι × α) :=
  if latest.all fun old => old.1 < entry.1 then some entry else latest

def Newest (entries : List (ι × α)) (entry : ι × α) : Prop :=
  entry ∈ entries ∧ ∀ other ∈ entries, other.1 ≤ entry.1

theorem Newest.unique {entries : List (ι × α)} (distinct : (entries.map Prod.fst).Nodup) {a b : ι × α}
    (first : Newest entries a) (second : Newest entries b) : a = b :=
  List.inj_on_of_nodup_map distinct first.1 second.1 (le_antisymm (second.2 a first.1) (first.2 b second.1))

theorem Newest.perm {entries others : List (ι × α)} (perm : entries.Perm others) {a : ι × α} (newest : Newest entries a) :
    Newest others a := ⟨perm.mem_iff.mp newest.1, fun other member => newest.2 other (perm.mem_iff.mpr member)⟩

theorem foldl_newer (entries : List (ι × α)) : ∀ latest : Option (ι × α),
    match entries.foldl newer latest with
    | none => entries = [] ∧ latest = none
    | some entry => Newest (latest.toList ++ entries) entry := by
  induction entries with
  | nil =>
    intro latest
    cases latest with
    | none => exact ⟨rfl, rfl⟩
    | some entry =>
      refine ⟨List.mem_singleton_self _, ?_⟩
      intro other member
      rw [List.mem_singleton.mp member]
  | cons first rest ih =>
    intro latest
    rw [List.foldl_cons]
    have later := ih (newer latest first)
    split
    · rename_i nothing
      rw [nothing] at later
      have kept := later.2
      unfold newer at kept
      split at kept
      · cases kept
      · rename_i older
        rw [kept] at older
        exact absurd rfl older
    · rename_i entry found
      rw [found] at later
      unfold newer at later
      cases latest with
      | none => exact later
      | some old =>
        simp only [Option.all_some, decide_eq_true_eq] at later
        split at later
        · rename_i below
          refine ⟨List.mem_cons_of_mem _ later.1, ?_⟩
          intro other member
          rcases List.mem_cons.mp member with rfl | member
          · exact le_trans (le_of_lt below) (later.2 first List.mem_cons_self)
          · exact later.2 other member
        · rename_i above
          rcases later with ⟨member, greatest⟩
          have oldest := greatest old List.mem_cons_self
          refine ⟨?_, ?_⟩
          · rcases List.mem_cons.mp member with rfl | member
            · exact List.mem_cons_self
            · exact List.mem_cons_of_mem _ (List.mem_cons_of_mem _ member)
          · intro other member
            rcases List.mem_cons.mp member with rfl | member
            · exact oldest
            · rcases List.mem_cons.mp member with rfl | member
              · exact le_trans (not_lt.mp above) oldest
              · exact greatest other (List.mem_cons_of_mem _ member)

theorem foldl_newer_eq_some {entries : List (ι × α)} (distinct : (entries.map Prod.fst).Nodup) {entry : ι × α} :
    entries.foldl newer none = some entry ↔ Newest entries entry := by
  have result := foldl_newer entries none
  apply Iff.intro
  · intro found
    rw [found] at result
    exact result
  · intro newest
    cases found : entries.foldl newer none with
    | none =>
      rw [found] at result
      have member := newest.1
      rw [result.1] at member
      cases member
    | some other =>
      rw [found] at result
      exact congrArg some (Newest.unique distinct result newest)

variable {κ : Type} [Ord κ] [Std.TransOrd κ] [Std.LawfulEqOrd κ] [DecidableEq κ]

def newerAt (latest : BTreeMap κ (ι × α)) (keyed : κ × ι × α) : BTreeMap κ (ι × α) :=
  if latest[keyed.1]?.all fun old => old.1 < keyed.2.1 then latest.insert keyed.1 keyed.2 else latest

def ofKey (key : κ) (entries : List (κ × ι × α)) : List (ι × α) :=
  (entries.filter fun keyed => keyed.1 = key).map Prod.snd

omit [LinearOrder ι] [Ord κ] [Std.TransOrd κ] [Std.LawfulEqOrd κ] in
theorem mem_ofKey {key : κ} {entries : List (κ × ι × α)} {entry : ι × α} :
    entry ∈ ofKey key entries ↔ (key, entry) ∈ entries := by
  unfold ofKey
  rw [List.mem_map]
  apply Iff.intro
  · rintro ⟨⟨name, _⟩, member, rfl⟩
    rcases List.mem_filter.mp member with ⟨member, same⟩
    have same := of_decide_eq_true same
    dsimp only at same
    rw [← same]
    exact member
  · exact fun member => ⟨(key, entry), List.mem_filter.mpr ⟨member, decide_eq_true rfl⟩, rfl⟩

theorem getElem?_newerAt (latest : BTreeMap κ (ι × α)) (keyed : κ × ι × α) (key : κ) :
    (newerAt latest keyed)[key]? = if keyed.1 = key then newer latest[key]? keyed.2 else latest[key]? := by
  unfold newerAt newer
  by_cases same : keyed.1 = key
  · subst same
    rw [if_pos rfl]
    split
    · rw [BTreeMap.getElem?_insert_eq, if_pos rfl]
    · rfl
  · rw [if_neg same]
    split
    · rw [BTreeMap.getElem?_insert_eq, if_neg (Ne.symm same)]
    · rfl

theorem getElem?_foldl_newerAt (entries : List (κ × ι × α)) (key : κ) : ∀ latest : BTreeMap κ (ι × α),
    (entries.foldl newerAt latest)[key]? = (ofKey key entries).foldl newer latest[key]? := by
  induction entries with
  | nil => exact fun _ => rfl
  | cons keyed rest ih =>
    intro latest
    rw [List.foldl_cons, ih, getElem?_newerAt]
    unfold ofKey
    by_cases same : keyed.1 = key
    · have kept : (decide (keyed.1 = key)) = true := decide_eq_true same
      rw [if_pos same, List.filter_cons, if_pos kept]
      rfl
    · have dropped : ¬ (decide (keyed.1 = key)) = true := by simpa using same
      rw [if_neg same, List.filter_cons, if_neg dropped]

omit [LinearOrder ι] [Ord κ] [Std.TransOrd κ] [Std.LawfulEqOrd κ] in
theorem nodup_ofKey {entries : List (κ × ι × α)} (distinct : (entries.map (·.2.1)).Nodup) (key : κ) :
    ((ofKey key entries).map Prod.fst).Nodup := by
  unfold ofKey
  rw [List.map_map]
  exact List.Nodup.sublist (List.filter_sublist.map _) distinct

theorem latest_eq_some {entries : List (κ × ι × α)} (distinct : (entries.map (·.2.1)).Nodup) {key : κ} {entry : ι × α} :
    (entries.foldl newerAt (∅ : BTreeMap κ (ι × α)))[key]? = some entry ↔ Newest (ofKey key entries) entry := by
  rw [getElem?_foldl_newerAt, Std.ExtTreeMap.getElem?_empty]
  exact foldl_newer_eq_some (nodup_ofKey distinct key)

theorem latest_perm {entries others : List (κ × ι × α)} (perm : entries.Perm others)
    (distinct : (entries.map (·.2.1)).Nodup) :
    entries.foldl newerAt (∅ : BTreeMap κ (ι × α)) = others.foldl newerAt ∅ := by
  apply Std.ExtTreeMap.ext_getElem?
  intro key
  apply Option.ext
  intro entry
  have distinct' : (others.map (·.2.1)).Nodup := (perm.map _).nodup_iff.mp distinct
  have keyed : (ofKey key entries).Perm (ofKey key others) := (perm.filter _).map _
  rw [latest_eq_some distinct, latest_eq_some distinct']
  exact ⟨fun newest => newest.perm keyed, fun newest => newest.perm keyed.symm⟩

end Newest

section Distinct

variable {ε κ ν : Type} [Ord κ] [Std.TransOrd κ] [Std.LawfulEqOrd κ] [DecidableEq κ]

def insertNew (twice : ε) (m : BTreeMap κ ν) (entry : κ × ν) : Except ε (BTreeMap κ ν) :=
  if m.contains entry.1 then .error twice else .ok (m.insert entry.1 entry.2)

theorem foldlM_insertNew {twice : ε} {entries : List (κ × ν)} : ∀ {m m' : BTreeMap κ ν},
    entries.foldlM (insertNew twice) m = .ok m' ↔
      (entries.map Prod.fst).Nodup ∧ (∀ entry ∈ entries, m[entry.1]? = none) ∧ m' = entries.foldl (fun m e => m.insert e.1 e.2) m := by
  induction entries with
  | nil =>
    intro m m'
    simp [pure, Except.pure, eq_comm]
  | cons entry rest ih =>
    intro m m'
    rw [List.foldlM_cons, bind_eq_ok, List.map_cons, List.nodup_cons, List.foldl_cons, List.forall_mem_cons]
    unfold insertNew
    apply Iff.intro
    · rintro ⟨middle, step, run⟩
      rcases reject_eq_ok.mp step with ⟨fresh, same⟩
      cases same
      rcases ih.mp run with ⟨nodup, absent, same⟩
      have fresh : m[entry.1]? = none := by simpa using fresh
      have differs : ∀ other ∈ rest, other.1 ≠ entry.1 := by
        intro other member same
        have gone := absent other member
        rw [BTreeMap.getElem?_insert_eq, if_pos same] at gone
        cases gone
      refine ⟨⟨?_, nodup⟩, ⟨fresh, ?_⟩, same⟩
      · intro member
        rcases List.mem_map.mp member with ⟨other, member, same⟩
        exact differs other member same
      · intro other member
        have gone := absent other member
        rw [BTreeMap.getElem?_insert_eq, if_neg (differs other member)] at gone
        exact gone
    · rintro ⟨⟨first, nodup⟩, ⟨fresh, absent⟩, same⟩
      refine ⟨m.insert entry.1 entry.2, reject_eq_ok.mpr ⟨by simpa using fresh, rfl⟩, ih.mpr ⟨nodup, ?_, same⟩⟩
      intro other member
      rw [BTreeMap.getElem?_insert_eq, if_neg, absent other member]
      intro equal
      exact first (List.mem_map.mpr ⟨other, member, equal⟩)

theorem getElem?_foldl_insert {entries : List (κ × ν)} (distinct : (entries.map Prod.fst).Nodup) {key : κ} {value : ν} :
    ∀ {m : BTreeMap κ ν}, (entries.foldl (fun m e => m.insert e.1 e.2) m)[key]? = some value ↔
      (key, value) ∈ entries ∨ key ∉ entries.map Prod.fst ∧ m[key]? = some value := by
  induction entries with
  | nil =>
    intro m
    simp
  | cons entry rest ih =>
    intro m
    rw [List.map_cons, List.nodup_cons] at distinct
    rw [List.foldl_cons, ih distinct.2, BTreeMap.getElem?_insert_eq, List.mem_cons, List.map_cons, List.mem_cons]
    by_cases same : key = entry.1
    · subst same
      rw [if_pos rfl]
      apply Iff.intro
      · rintro (member | ⟨_, same⟩)
        · exact .inl (.inr member)
        · exact .inl (.inl (by rw [← Option.some.inj same]))
      · rintro ((same | member) | ⟨absent, _⟩)
        · rw [← same]
          exact .inr ⟨distinct.1, rfl⟩
        · exact .inl member
        · exact absurd (.inl rfl) absent
    · rw [if_neg same]
      apply Iff.intro
      · rintro (member | ⟨absent, found⟩)
        · exact .inl (.inr member)
        · exact .inr ⟨fun equal => equal.elim same absent, found⟩
      · rintro ((equal | member) | ⟨absent, found⟩)
        · exact absurd (congrArg Prod.fst equal) same
        · exact .inl member
        · exact .inr ⟨fun member => absent (.inr member), found⟩

theorem collect_eq_ok {twice : ε} {entries : List (κ × ν)} {m : BTreeMap κ ν} :
    entries.foldlM (insertNew twice) ∅ = .ok m ↔
      (entries.map Prod.fst).Nodup ∧ ∀ key value, m[key]? = some value ↔ (key, value) ∈ entries := by
  rw [foldlM_insertNew]
  apply Iff.intro
  · rintro ⟨distinct, _, rfl⟩
    refine ⟨distinct, ?_⟩
    intro key value
    rw [getElem?_foldl_insert distinct]
    simp
  · rintro ⟨distinct, same⟩
    refine ⟨distinct, fun _ _ => by simp, ?_⟩
    apply Std.ExtTreeMap.ext_getElem?
    intro key
    apply Option.ext
    intro value
    rw [same, getElem?_foldl_insert distinct]
    simp

theorem collect_perm {twice : ε} {entries others : List (κ × ν)} (perm : entries.Perm others) {m : BTreeMap κ ν}
    (collected : entries.foldlM (insertNew twice) ∅ = .ok m) : others.foldlM (insertNew twice) ∅ = .ok m := by
  rw [collect_eq_ok] at collected ⊢
  refine ⟨(perm.map _).nodup_iff.mp collected.1, ?_⟩
  intro key value
  rw [collected.2 key value, perm.mem_iff]

end Distinct

end Library

import BazelRepo.Coverage.BuildEvent
import BazelRepo.Library.Listing

namespace Coverage

open Library Relation

namespace BuildEvents

section Sets

variable [Evidence] (build : BuildEvents) (disk : Disk) (root family : String) (policy : ArtifactPolicy)

/-- The files of an entry and the ids of the sets in it, if all of it is well formed. -/
def holds (entry : Json) : Result (List String × List String) := do
  let own ← (← optionalArray entry "files").mapM (artifact disk root family policy)
  let sets ← (← optionalArray entry "fileSets").mapM fun child => string (child.field "id")
  .ok (own, sets)

def contents (id : String) : Option (List String × List String) :=
  (build.namedSets[id]?).bind fun entry => (holds disk root family policy entry).toOption

def Holds (id child : String) : Prop :=
  ∃ held, build.contents disk root family policy id = some held ∧ child ∈ held.2

/-- The paths of some sets in their order: of each its files, followed by those of the sets in it, once for each place where
it is. -/
inductive Expands : List String → List String → Prop where
  | nil : Expands [] []
  | cons {id : String} {held : List String × List String} {rest inside others : List String}
      (found : build.contents disk root family policy id = some held) (below : Expands held.2 inside)
      (later : Expands rest others) : Expands (id :: rest) (held.1 ++ inside ++ others)

variable {build disk root family policy}

theorem contents_isSome {id : String} : (build.contents disk root family policy id).isSome = true ↔
    ∃ entry, build.namedSets[id]? = some entry ∧ ∃ held, holds disk root family policy entry = .ok held := by
  unfold contents
  cases build.namedSets[id]? with
  | none => simp
  | some entry =>
    rw [Option.bind_some]
    cases held : holds disk root family policy entry with
    | error error => simp [held, Except.toOption]
    | ok held' => exact ⟨fun _ => ⟨entry, rfl, held', held⟩, fun _ => rfl⟩

theorem Expands.unique {sets left right : List String} (first : Expands build disk root family policy sets left)
    (second : Expands build disk root family policy sets right) : left = right := by
  induction first generalizing right with
  | nil =>
    cases second
    rfl
  | cons found below later inner outer =>
    cases second with
    | cons found' below' later' =>
      rw [found] at found'
      cases found'
      rw [inner below', outer later']

structure Clear (build : BuildEvents) (disk : Disk) (root family : String) (policy : ArtifactPolicy)
    (active : Finset String) (id : String) : Prop where
  present : ∀ other, ReflTransGen (Holds build disk root family policy) id other →
    (build.contents disk root family policy other).isSome = true
  apart : ∀ other, ReflTransGen (Holds build disk root family policy) id other → other ∉ active
  acyclic : AcyclicFrom (Holds build disk root family policy) id

theorem clear_iff {active : Finset String} {id : String} : Clear build disk root family policy active id ↔
    id ∉ active ∧ ∃ held, build.contents disk root family policy id = some held ∧
      ∀ child ∈ held.2, Clear build disk root family policy (insert id active) child := by
  constructor
  · intro clear
    refine ⟨clear.apart id .refl, ?_⟩
    rcases Option.isSome_iff_exists.mp (clear.present id .refl) with ⟨held, found⟩
    refine ⟨held, found, ?_⟩
    intro child member
    have step : Holds build disk root family policy id child := ⟨held, found, member⟩
    refine ⟨fun other walk => clear.present other (.head step walk), ?_, clear.acyclic.step step⟩
    intro other walk entered
    rcases Finset.mem_insert.mp entered with same | before
    · exact clear.acyclic.apart step walk same
    · exact clear.apart other (.head step walk) before
  · rintro ⟨free, held, found, below⟩
    have steps : ∀ child, Holds build disk root family policy id child →
        Clear build disk root family policy (insert id active) child := by
      rintro child ⟨held', found', member⟩
      rw [found] at found'
      cases found'
      exact below child member
    refine ⟨?_, ?_, ?_⟩
    · intro other walk
      rcases ReflTransGen.cases_head walk with rfl | ⟨child, step, rest⟩
      · rw [found]
        rfl
      · exact (steps child step).present other rest
    · intro other walk
      rcases ReflTransGen.cases_head walk with rfl | ⟨child, step, rest⟩
      · exact free
      · exact fun entered => (steps child step).apart other rest (Finset.mem_insert_of_mem entered)
    · apply acyclicFrom_of_steps
      · exact fun child step back => (steps child step).apart id back (Finset.mem_insert_self id active)
      · exact fun child step => (steps child step).acyclic

/-- A visit of some sets comes through exactly where all of them are clear, and adds their expansion. -/
structure Visits (sets : List String) (active : Finset String) (paths : List String) (result : Result (Visit active)) :
    Prop where
  clear : ∀ visit, result = .ok visit → ∀ id ∈ sets, Clear build disk root family policy active id
  expands : ∀ visit, result = .ok visit →
    ∃ expansion, Expands build disk root family policy sets expansion ∧ visit.paths = paths ++ expansion
  comes : (∀ id ∈ sets, Clear build disk root family policy active id) → ∃ visit, result = .ok visit

theorem Visits.of_failed {sets : List String} {active : Finset String} {paths : List String} {result : Result (Visit active)}
    (failed : ∀ visit, result ≠ .ok visit) (unclear : ¬ ∀ id ∈ sets, Clear build disk root family policy active id) :
    @Visits _ build disk root family policy sets active paths result :=
  ⟨fun visit done => absurd done (failed visit), fun visit done => absurd done (failed visit),
    fun clear => absurd clear unclear⟩

theorem Visits.of_error {sets : List String} {active : Finset String} {paths : List String} {error : ReportError}
    {result : Result (Visit active)} (failed : result = .error error)
    (unclear : ¬ ∀ id ∈ sets, Clear build disk root family policy active id) :
    @Visits _ build disk root family policy sets active paths result := by
  apply Visits.of_failed _ unclear
  intro visit done
  rw [failed] at done
  cases done

theorem children_visits {active : Finset String}
    (each : ∀ id paths, @Visits _ build disk root family policy [id] active paths
      (build.files disk root family policy id active paths)) {sets : List Json} {ids : List String}
    (named : (sets.mapM fun child => string (child.field "id")) = .ok ids) :
    ∀ paths, @Visits _ build disk root family policy ids active paths
      (build.children disk root family policy sets active paths) := by
  induction sets generalizing ids with
  | nil =>
    intro paths
    cases named
    rw [children]
    refine ⟨?_, ?_, fun _ => ⟨_, rfl⟩⟩
    · intro visit done id member
      cases member
    · rintro visit ⟨⟩
      exact ⟨[], .nil, (List.append_nil paths).symm⟩
  | cons child rest ih =>
    intro paths
    rcases mapM_cons_eq_ok.mp named with ⟨id, others, first, later, rfl⟩
    rw [children, first, ok_bind]
    have visits := each id paths
    cases one : build.files disk root family policy id active paths with
    | error error =>
      rw [one] at visits
      refine .of_error rfl ?_
      intro clear
      rcases visits.comes fun other member => clear other (by rw [List.mem_singleton.mp member]; exact List.mem_cons_self)
        with ⟨visit, done⟩
      cases done
    | ok visit =>
      rcases visit with ⟨active', found, rfl⟩
      rw [one] at visits
      rw [ok_bind]
      dsimp only
      have more := ih later found
      have firstClear := visits.clear _ rfl id List.mem_cons_self
      rcases visits.expands _ rfl with ⟨expansion, expands, added⟩
      dsimp only at added
      cases two : build.children disk root family policy rest active' found with
      | error error =>
        rw [two] at more
        refine .of_error rfl ?_
        intro clear
        rcases more.comes fun other member => clear other (List.mem_cons_of_mem _ member) with ⟨visit, done⟩
        cases done
      | ok visit =>
        rw [two] at more
        refine ⟨?_, ?_, fun _ => ⟨_, rfl⟩⟩
        · intro _ _ other member
          rcases List.mem_cons.mp member with rfl | tail
          · exact firstClear
          · exact more.clear _ rfl other tail
        · intro last done
          rcases more.expands _ rfl with ⟨rest, below, appended⟩
          have paths' : last.paths = visit.paths := by
            have same := Except.ok.inj done
            rw [← same]
          rcases expands with _ | ⟨present, inside, nothing⟩
          cases nothing
          refine ⟨_, .cons present inside below, ?_⟩
          rw [paths', appended, added]
          simp only [List.append_assoc, List.append_nil]

theorem named_of_children {active : Finset String} {sets : List Json} {paths : List String} {visit : Visit active}
    (done : build.children disk root family policy sets active paths = .ok visit) :
    ∃ ids, (sets.mapM fun child => string (child.field "id")) = .ok ids := by
  induction sets generalizing active paths with
  | nil => exact ⟨[], rfl⟩
  | cons child rest ih =>
    rw [children] at done
    rcases bind_eq_ok.mp done with ⟨id, first, after⟩
    rcases bind_eq_ok.mp after with ⟨middle, _, more⟩
    rcases bind_eq_ok.mp more with ⟨last, tail, _⟩
    rcases ih tail with ⟨ids, others⟩
    exact ⟨id :: ids, mapM_cons_eq_ok.mpr ⟨id, ids, first, others, rfl⟩⟩

theorem files_visits (id : String) (active : Finset String) (paths : List String) :
    @Visits _ build disk root family policy [id] active paths (build.files disk root family policy id active paths) := by
  generalize size : (build.ids \ active).card = n
  induction n using Nat.strong_induction_on generalizing id active paths with
  | _ n ih =>
    have one : (∀ other ∈ [id], Clear build disk root family policy active other) ↔
        Clear build disk root family policy active id := by simp
    rw [files]
    split
    · rename_i entered
      exact .of_error rfl fun clear => (clear_iff.mp (one.mp clear)).1 entered
    · rename_i free
      split
      · rename_i missing
        refine .of_error rfl ?_
        intro clear
        rcases (clear_iff.mp (one.mp clear)).2 with ⟨held, found, _⟩
        unfold contents at found
        rw [missing] at found
        cases found
      · rename_i entry found
        have below : ∀ child paths, @Visits _ build disk root family policy [child] (insert id active) paths
            (build.files disk root family policy child (insert id active) paths) := by
          intro child paths
          apply ih _ _ child (insert id active) paths rfl
          rw [← size]
          exact card_sdiff_insert_lt (mem_ids found) free
        have contents : build.contents disk root family policy id = (holds disk root family policy entry).toOption := by
          unfold contents
          rw [found, Option.bind_some]
        cases held : holds disk root family policy entry with
        | error error =>
          rw [held] at contents
          refine Visits.of_failed ?_ ?_
          · intro visit done
            rcases bind_eq_ok.mp done with ⟨files, listed, rest⟩
            rcases bind_eq_ok.mp rest with ⟨own, located, rest⟩
            rcases bind_eq_ok.mp rest with ⟨sets, inside, rest⟩
            rcases bind_eq_ok.mp rest with ⟨middle, visited, _⟩
            rcases named_of_children visited with ⟨ids, named⟩
            unfold holds at held
            rw [listed, ok_bind, located, ok_bind, inside, ok_bind, named] at held
            cases held
          · intro clear
            rcases (clear_iff.mp (one.mp clear)).2 with ⟨_, present, _⟩
            rw [contents] at present
            cases present
        | ok held' =>
          rw [held] at contents
          rcases bind_eq_ok.mp held with ⟨files, listed, rest⟩
          rcases bind_eq_ok.mp rest with ⟨own, located, rest⟩
          rcases bind_eq_ok.mp rest with ⟨sets, arrayed, rest⟩
          rcases bind_eq_ok.mp rest with ⟨ids, named, same⟩
          cases same
          have present : build.contents disk root family policy id = some (own, ids) := contents
          rw [listed, ok_bind, located, ok_bind, arrayed, ok_bind]
          have visits := children_visits below named (paths ++ own)
          have isClear : Clear build disk root family policy active id ↔
              ∀ child ∈ ids, Clear build disk root family policy (insert id active) child := by
            rw [clear_iff]
            simp only [present, free, not_false_eq_true, true_and, Option.some.injEq, exists_eq_left']
          cases visited : build.children disk root family policy sets (insert id active) (paths ++ own) with
          | error error =>
            rw [visited] at visits
            refine .of_error rfl ?_
            intro clear
            rcases visits.comes (isClear.mp (one.mp clear)) with ⟨visit, done⟩
            cases done
          | ok visit =>
            rw [visited] at visits
            refine ⟨?_, ?_, fun _ => ⟨_, rfl⟩⟩
            · intro _ _
              exact one.mpr (isClear.mpr (visits.clear _ rfl))
            · intro last done
              rcases visits.expands _ rfl with ⟨expansion, expands, added⟩
              have paths' : last.paths = visit.paths := by
                have same := Except.ok.inj done
                rw [← same]
              refine ⟨_, .cons present expands .nil, ?_⟩
              rw [paths', added, List.append_nil, List.append_assoc]

/-- The files of a named set are found exactly where everything reached from it is there, well formed and free of cycles; and
they are then the ones of its expansion. -/
theorem named_sets_expand (build : BuildEvents) (disk : Disk) (root family : String) (policy : ArtifactPolicy) (id : String)
    (paths : List String) :
    ((∃ visit, build.files disk root family policy id ∅ paths = .ok visit) ↔
      (∀ other, ReflTransGen (Holds build disk root family policy) id other → ∃ entry,
        build.namedSets[other]? = some entry ∧ ∃ held, holds disk root family policy entry = .ok held) ∧
      AcyclicFrom (Holds build disk root family policy) id) ∧
    ∀ visit, build.files disk root family policy id ∅ paths = .ok visit → ∀ expansion,
      visit.paths = paths ++ expansion ↔ Expands build disk root family policy [id] expansion := by
  have visits := @files_visits _ build disk root family policy id ∅ paths
  refine ⟨⟨?_, ?_⟩, ?_⟩
  · rintro ⟨visit, done⟩
    have clear := visits.clear visit done id List.mem_cons_self
    exact ⟨fun other walk => contents_isSome.mp (clear.present other walk), clear.acyclic⟩
  · rintro ⟨present, acyclic⟩
    apply visits.comes
    intro other member
    rw [List.mem_singleton.mp member]
    exact ⟨fun other walk => contents_isSome.mpr (present other walk), fun _ _ => Finset.notMem_empty _, acyclic⟩
  · intro visit done expansion
    rcases visits.expands visit done with ⟨whole, expands, added⟩
    rw [added, List.append_cancel_left_eq]
    constructor
    · rintro rfl
      exact expands
    · exact fun again => expands.unique again

end Sets

end BuildEvents

end Coverage

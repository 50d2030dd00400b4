import BazelRepo.Coverage.Inventory

namespace Coverage

open Library Relation

theorem mem_foldl_union {α β : Type*} [DecidableEq β] {f : α → Finset β} {items : List α} {b : β} :
    ∀ {start : Finset β}, b ∈ items.foldl (fun found a => found ∪ f a) start ↔ b ∈ start ∨ ∃ a ∈ items, b ∈ f a := by
  induction items with
  | nil => simp
  | cons a rest ih =>
    intro start
    rw [List.foldl_cons, ih, Finset.mem_union, or_assoc, List.exists_mem_cons_iff]

/-- A rule names a label in one of the attributes that name sources. A source file names none. -/
def Declares (files : List String) (graph : QueryGraph) (label reference : String) : Prop :=
  tracked files graph label = none ∧ ∃ rule, graph.element label = some rule ∧ reference ∈ rule.references

def Reaches (files : List String) (graph : QueryGraph) (label path : String) : Prop :=
  ∃ source, ReflTransGen (Declares files graph) label source ∧ tracked files graph source = some path

section Closure

variable {files : List String} {graph : QueryGraph} {path : String}

/-- The sources that a label declares are the ones to which a walk leads that leaves none of the rules being expanded. -/
theorem mem_declaredSources (label : String) (active : Finset String) :
    path ∈ declaredSources files graph label active ↔
      ∃ source, ReflTransGen (Avoiding (Declares files graph) active) label source ∧
        tracked files graph source = some path := by
  generalize size : (graph.labels \ active).card = n
  induction n using Nat.strong_induction_on generalizing label active with
  | _ n ih =>
    -- A label that declares nothing leads nowhere else.
    have stays : (∀ next, ¬ Avoiding (Declares files graph) active label next) →
        ((∃ source, ReflTransGen (Avoiding (Declares files graph) active) label source ∧
          tracked files graph source = some path) ↔ tracked files graph label = some path) := by
      intro ends
      constructor
      · rintro ⟨source, walk, found⟩
        rcases ReflTransGen.cases_head walk with rfl | ⟨next, step, _⟩
        · exact found
        · exact absurd step (ends next)
      · exact fun found => ⟨label, .refl, found⟩
    rw [declaredSources]
    split
    · rename_i own found
      rw [stays, found, Finset.mem_singleton, Option.some.injEq]
      · exact eq_comm
      · rintro next ⟨⟨absent, _⟩, _⟩
        rw [found] at absent
        cases absent
    · rename_i absent
      split
      · rename_i missing
        rw [stays]
        · simp [absent]
        · rintro next ⟨⟨_, rule, found, _⟩, _⟩
          rw [missing] at found
          cases found
      · rename_i rule found
        split
        · rename_i entered
          rw [stays]
          · simp [absent]
          · exact fun next step => step.2 entered
        · rename_i free
          have below : ∀ reference, path ∈ declaredSources files graph reference (insert label active) ↔
              ∃ source, ReflTransGen (Avoiding (Declares files graph) (insert label (active : Set String))) reference source ∧
                tracked files graph source = some path := by
            intro reference
            rw [← Finset.coe_insert]
            apply ih _ _ reference _ rfl
            rw [← size]
            exact card_sdiff_insert_lt (QueryGraph.mem_labels found) free
          have outside : label ∉ (active : Set String) := free
          rw [mem_foldl_union]
          simp only [Finset.notMem_empty, false_or, below]
          constructor
          · rintro ⟨reference, listed, source, walk, reached⟩
            exact ⟨source, (avoiding_iff outside).mpr (.inr ⟨reference, ⟨absent, rule, found, listed⟩, walk⟩), reached⟩
          · rintro ⟨source, walk, reached⟩
            rcases (avoiding_iff outside).mp walk with rfl | ⟨reference, ⟨_, rule', found', listed⟩, rest⟩
            · rw [absent] at reached
              cases reached
            · rw [found] at found'
              cases found'
              exact ⟨reference, listed, source, rest, reached⟩

theorem mem_declaredSources_empty {label : String} : path ∈ declaredSources files graph label ∅ ↔ Reaches files graph label path := by
  rw [mem_declaredSources, Finset.coe_empty, avoiding_empty]
  rfl

end Closure

theorem QueryGraph.element_name {graph : QueryGraph} {label : String} {rule : QueryRule}
    (found : graph.element label = some rule) : rule.name = label ∧ rule ∈ graph.rules := by
  unfold QueryGraph.element at found
  refine ⟨?_, List.mem_reverse.mp (List.mem_of_find?_eq_some found)⟩
  simpa using List.find?_some found

/-- A coverage rule reaches a source that its language measures and no scope excludes. -/
def Measures (workspace : Workspace) (rule : QueryRule) (path : String) : Prop :=
  Reaches workspace.files workspace.graph rule.name path ∧ workspace.scope path = some "unspecified" ∧
    ∃ endings, coverageKinds.lookup rule.ruleClass = some endings ∧ ∃ ending ∈ endings, endsWith path ending = true

namespace Workspace

variable {workspace : Workspace}

theorem mem_rules {rule : QueryRule} :
    rule ∈ workspace.rules ↔ workspace.graph.element rule.name = some rule ∧ rule.maintained = true := by
  unfold Workspace.rules
  rw [List.mem_filterMap]
  constructor
  · rintro ⟨label, member, found⟩
    rw [List.mem_eraseDups] at member
    rcases List.mem_map.mp member with ⟨other, kept, rfl⟩
    have same := (QueryGraph.element_name found).1
    refine ⟨by rwa [same], ?_⟩
    have maintained := (List.mem_filter.mp kept).2
    unfold QueryRule.maintained at maintained ⊢
    rwa [same]
  · rintro ⟨found, maintained⟩
    refine ⟨rule.name, ?_, found⟩
    rw [List.mem_eraseDups]
    exact List.mem_map_of_mem (List.mem_filter.mpr ⟨(QueryGraph.element_name found).2, maintained⟩)

theorem mem_measured {rule : QueryRule} {path : String} : path ∈ workspace.measured rule ↔ Measures workspace rule path := by
  unfold measured Measures declared
  cases coverageKinds.lookup rule.ruleClass with
  | none => simp
  | some endings =>
    dsimp only
    rw [List.mem_filter, Finset.mem_sort, mem_declaredSources_empty]
    simp only [Bool.and_eq_true, List.any_eq_true, decide_eq_true_eq, Option.some.injEq, exists_eq_left']
    tauto

theorem maintained_of_mem_owners {name : String} {owner : SourceOwner} (member : owner ∈ workspace.owners name) :
    "//".toList.isPrefixOf owner.label.toList = true := by
  rcases List.mem_filterMap.mp member with ⟨label, listed, made⟩
  rcases Option.map_eq_some_iff.mp made with ⟨rule, found, rfl⟩
  have same : rule.owner.label = label := (QueryGraph.element_name found).1
  rw [same]
  unfold ownerLabels at listed
  rw [mem_sorted, List.mem_append] at listed
  rcases listed with direct | declared
  · rcases List.mem_map.mp direct with ⟨other, kept, rfl⟩
    exact (List.mem_filter.mp (List.mem_of_mem_filter kept)).2
  · rcases List.mem_map.mp declared with ⟨other, kept, rfl⟩
    exact (mem_rules.mp (List.mem_of_mem_filter kept)).2

theorem owner_of_reaches {rule : QueryRule} {path : String} (member : rule ∈ workspace.rules)
    (reaches : Reaches workspace.files workspace.graph rule.name path) : rule.owner ∈ workspace.owners path := by
  apply List.mem_filterMap.mpr
  refine ⟨rule.name, ?_, ?_⟩
  · unfold ownerLabels
    rw [mem_sorted]
    apply List.mem_append_right
    apply List.mem_map_of_mem
    exact List.mem_filter.mpr ⟨member, decide_eq_true (mem_declaredSources_empty.mpr reaches)⟩
  · rw [(mem_rules.mp member).1]
    rfl

structure Inventoried (workspace : Workspace) (inventory : CoverageInventory) : Prop where
  owned : ∀ source ∈ inventory.eligible, ∀ rule, workspace.graph.element rule.name = some rule → rule.maintained = true →
    Reaches workspace.files workspace.graph rule.name source.path → rule.owner ∈ source.owners
  roots : ∀ root, root ∈ inventory.coverageRoots ↔ ∃ rule, workspace.graph.element rule.name = some rule ∧
    rule.maintained = true ∧ rule.root = root ∧ ∃ path, Measures workspace rule path

theorem discover_eq_ok {inventory : CoverageInventory} (found : workspace.discover = .ok inventory) :
    inventory.eligible = workspace.eligible ∧ inventory.coverageRoots = sortByKey (fun name => name)
      ((workspace.rules.filter fun rule => workspace.measured rule ≠ []).map QueryRule.root) := by
  unfold discover at found
  split at found
  · cases found
  · rcases bind_eq_ok.mp found with ⟨_, _, same⟩
    cases same
    exact ⟨rfl, rfl⟩

theorem inventoried {inventory : CoverageInventory} (found : workspace.discover = .ok inventory) :
    Inventoried workspace inventory := by
  rcases discover_eq_ok found with ⟨eligible, roots⟩
  constructor
  · intro source member rule element maintained reaches
    rw [eligible] at member
    rcases List.mem_filterMap.mp member with ⟨name, _, made⟩
    rcases Option.map_eq_some_iff.mp made with ⟨language, _, rfl⟩
    exact owner_of_reaches (mem_rules.mpr ⟨element, maintained⟩) reaches
  · intro root
    rw [roots, mem_sortByKey, List.mem_map]
    constructor
    · rintro ⟨rule, kept, rfl⟩
      rcases List.mem_filter.mp kept with ⟨member, measures⟩
      rcases List.exists_mem_of_ne_nil _ (of_decide_eq_true measures) with ⟨path, measured⟩
      exact ⟨rule, (mem_rules.mp member).1, (mem_rules.mp member).2, rfl, path, mem_measured.mp measured⟩
    · rintro ⟨rule, element, maintained, rfl, path, measures⟩
      refine ⟨rule, List.mem_filter.mpr ⟨mem_rules.mpr ⟨element, maintained⟩, ?_⟩, rfl⟩
      exact decide_eq_true (List.ne_nil_of_mem (mem_measured.mpr measures))

end Workspace

/-- What a label declares is every tracked source file that it reaches and nothing else; so each rule of the workspace that
reaches an eligible source is one of its owners, and the coverage roots are those for which a coverage rule of the workspace
reaches a source of its language that is in scope. -/
theorem declared_sources_are_reached (workspace : Workspace) :
    (∀ files graph label path, path ∈ declaredSources files graph label ∅ ↔ Reaches files graph label path) ∧
    ∀ inventory, workspace.discover = .ok inventory → workspace.Inventoried inventory :=
  ⟨fun _ _ _ _ => mem_declaredSources_empty, fun _ found => Workspace.inventoried found⟩

theorem reaches_of_reference {files : List String} {graph : QueryGraph} {label reference path : String}
    (declares : tracked files graph label = none)
    (names : (graph.element label).any (fun rule => decide (reference ∈ rule.references)) = true)
    (ends : tracked files graph reference = some path) : Reaches files graph label path := by
  rcases (Option.any_eq_true _ _).mp names with ⟨rule, element, listed⟩
  exact ⟨reference, .single ⟨declares, rule, element, of_decide_eq_true listed⟩, ends⟩

/-- A workspace with one Python source, which a rule of another repository and a coverage rule declare. -/
def sampleWorkspace : Workspace where
  bazelignore := none
  lsFiles := "BUILD.bazel\x00a.py\x00"
  isFile _ := true
  query _ :=
    { rules :=
        [{ name := "@@external//:library", ruleClass := "py_library", lists := [("srcs", ["//:a.py"])] },
          { name := "//:lib.python_coverage", ruleClass := "_coverage_sources", lists := [("srcs", ["//:a.py"])] }]
      sourceFiles := ["//:a.py"] }
  checkAttr files := String.join (files.map fun name => name ++ "\x00coverage-scope\x00unspecified\x00")

/-- A rule of another repository is no owner of what it reaches, and the root of a Python rule is not the rule. -/
theorem sampleWorkspace_roots : ∃ inventory, sampleWorkspace.discover = .ok inventory ∧
    (∃ source ∈ inventory.eligible,
      Reaches sampleWorkspace.files sampleWorkspace.graph "@@external//:library" source.path ∧
      ∀ owner ∈ source.owners, owner.label ≠ "@@external//:library") ∧
    "//:lib" ∈ inventory.coverageRoots ∧ ∀ rule ∈ sampleWorkspace.graph.rules, rule.name ≠ "//:lib" := by
  have packages : sampleWorkspace.packages ≠ [] := by decide +kernel
  have checked : ((sampleWorkspace.scopes.map Prod.fst).eraseDups.forM fun name =>
      Workspace.checkScope (name, (sampleWorkspace.scope name).getD "")).isOk = true := by decide +kernel
  rcases exists_eq_ok checked with ⟨_, checked⟩
  have found : ∃ inventory, sampleWorkspace.discover = .ok inventory := by
    unfold Workspace.discover
    rw [if_neg packages, checked]
    exact ⟨_, rfl⟩
  rcases found with ⟨inventory, found⟩
  have ends : tracked sampleWorkspace.files sampleWorkspace.graph "//:a.py" = some "a.py" := by decide +kernel
  have external : Reaches sampleWorkspace.files sampleWorkspace.graph "@@external//:library" "a.py" :=
    reaches_of_reference (by decide +kernel) (by decide +kernel) ends
  have library : Reaches sampleWorkspace.files sampleWorkspace.graph "//:lib.python_coverage" "a.py" :=
    reaches_of_reference (by decide +kernel) (by decide +kernel) ends
  refine ⟨inventory, found, ?_, ?_, by decide +kernel⟩
  · have listed : "a.py" ∈ sampleWorkspace.files ∧ sampleWorkspace.language "a.py" = some "python" := by decide +kernel
    refine ⟨⟨"a.py", "python", sampleWorkspace.owners "a.py"⟩, ?_, external, ?_⟩
    · rw [(Workspace.discover_eq_ok found).1]
      refine List.mem_filterMap.mpr ⟨"a.py", listed.1, ?_⟩
      rw [listed.2, Option.map_some]
    · intro owner member same
      have maintained := Workspace.maintained_of_mem_owners member
      rw [same] at maintained
      revert maintained
      decide +kernel
  · rcases Option.isSome_iff_exists.mp (show (sampleWorkspace.graph.element "//:lib.python_coverage").isSome = true by
      decide +kernel) with ⟨rule, element⟩
    have name := (QueryGraph.element_name element).1
    have facts : rule.maintained = true ∧ rule.root = "//:lib" ∧ rule.ruleClass = "_coverage_sources" := by
      have all : ∀ rule ∈ sampleWorkspace.graph.element "//:lib.python_coverage",
          rule.maintained = true ∧ rule.root = "//:lib" ∧ rule.ruleClass = "_coverage_sources" := by decide +kernel
      exact all rule element
    apply ((Workspace.inventoried found).roots "//:lib").mpr
    refine ⟨rule, by rw [name]; exact element, facts.1, facts.2.1, "a.py", ?_, by decide +kernel, [".py"], ?_, ".py",
      List.mem_cons_self, by decide +kernel⟩
    · rw [name]
      exact library
    · rw [facts.2.2]
      rfl

end Coverage

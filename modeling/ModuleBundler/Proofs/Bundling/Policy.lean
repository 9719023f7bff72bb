/-
# ModuleBundler.Proofs.Bundling.Policy — what becomes of circular imports.

Once the graph of a project has been built, circular imports are the only thing that may be refused
about it.  They are refused where the settings say so or where nothing is kept of a module that has
run; the error then shows a shortest way around through the lowest module that imports itself
through others.  Otherwise there is one warning for each group of modules that import each other
(`bundle_circles`).  So where modules run again for every call, imports are well-founded.
-/
import Mathlib.Data.List.Forall2
import ModuleBundler.Proofs.Discovery.Mappings
import ModuleBundler.Proofs.Graph.Circles

namespace ModuleBundler

/-- A result that passes a test is no error. -/
theorem exists_ok_of_any {ε α : Type} {result : Except ε α} {test : α → Bool}
    (holds : result.toOption.any test = true) : ∃ value, result = .ok value ∧ test value = true := by
  cases result with
  | error error => exact absurd holds Bool.false_ne_true
  | ok value => exact ⟨value, rfl, holds⟩

namespace ModuleGraph

/-- Identities with the paths of their modules. -/
def Shows (graph : ModuleGraph) (ids : List Nat) (paths : List Path) : Prop :=
  List.Forall₂ (fun id path => (graph.get? id).map (·.path) = some path) ids paths

theorem shows_of_lt_size {graph : ModuleGraph} {ids : List Nat} (inside : ∀ id ∈ ids, id < graph.size) :
    graph.Shows ids (ids.filterMap fun id => (graph.get? id).map (·.path)) := by
  induction ids with
  | nil => exact .nil
  | cons id ids ih =>
    obtain ⟨record, found⟩ := exists_get? (inside id List.mem_cons_self)
    have rest := ih fun other mem => inside other (List.mem_cons_of_mem id mem)
    rw [List.filterMap_cons, found]
    exact .cons (by rw [found]; rfl) rest

/-- What is spelled out for a group: the paths on a shortest way around through its lowest
member. -/
def ShowsGroup (graph : ModuleGraph) (group : List Nat) (chain : List Path) : Prop :=
  ∃ lowest ids, group.head? = some lowest ∧ graph.ShortestCircle lowest ids ∧ graph.Shows ids chain

theorem Grouped.showsGroup {graph : ModuleGraph} {groups : List (List Nat)}
    (grouped : graph.Grouped groups) (closed : graph.Closed) {group : List Nat}
    (mem : group ∈ groups) : graph.ShowsGroup group (graph.cycleChain group) := by
  obtain ⟨lowest, others, rfl⟩ := List.exists_cons_of_ne_nil (grouped.inhabited group mem)
  have together := grouped.together_iff _ mem lowest List.mem_cons_self
  have shortest := shortest_cycleIds rfl (grouped.increasing _ mem) together
  refine ⟨lowest, graph.cycleIds (lowest :: others), rfl, shortest, shows_of_lt_size ?_⟩
  intro id onCircle
  exact closed.target_lt_size (shortest.1.reaches onCircle).1

/-- The lowest member of the first group is the lowest module on any circle. -/
theorem Grouped.lowest_le {graph : ModuleGraph} {group : List Nat} {groups : List (List Nat)}
    (grouped : graph.Grouped (group :: groups)) {lowest : Nat} (isLowest : group.head? = some lowest)
    {id : Nat} (circular : graph.Reaches id id) : lowest ≤ id := by
  obtain ⟨other, mem, isMember⟩ := (grouped.mem_iff id).mpr circular
  obtain ⟨first, members, rfl⟩ := List.exists_cons_of_ne_nil (grouped.inhabited other mem)
  -- the lowest members of the groups are in order, and so are the members of each group
  have ofGroup : first ≤ id := by
    rcases List.mem_cons.mp isMember with rfl | inside
    · exact Nat.le_refl _
    · exact Nat.le_of_lt ((List.pairwise_cons.mp (grouped.increasing _ mem)).1 id inside)
  have ordered := grouped.ordered
  rw [List.filterMap_cons, isLowest, List.pairwise_cons] at ordered
  rcases List.mem_cons.mp mem with rfl | later
  · obtain rfl : first = lowest := Option.some.inj isLowest
    exact ofGroup
  · have before : lowest < first := ordered.1 first (List.mem_filterMap.mpr ⟨_, later, rfl⟩)
    omega

end ModuleGraph

namespace Registry

/-- The two linking functions differ. -/
theorem cachingRuntime_ne_reinvokingRuntime : cachingRuntime ≠ reinvokingRuntime := by
  intro same
  -- the second lines differ at once
  have letters := congrArg (fun text => text.toList[24]?) same
  simp only [cachingRuntime, reinvokingRuntime, String.toList_intercalate] at letters
  revert letters
  decide

theorem runtime_eq_reinvokingRuntime_iff (options : RuntimeOptions) :
    runtime options = reinvokingRuntime ↔ options.moduleCache = false := by
  unfold runtime
  by_cases caches : options.moduleCache = true
  · simp [caches, cachingRuntime_ne_reinvokingRuntime]
  · simp [caches]

end Registry

namespace Bundling

/-- What a log warns of. -/
def warnings (log : List LogRecord) : List LogRecord :=
  log.filter fun record => record.level = .warn

theorem warnings_cons {record : LogRecord} (h : record.level ≠ .warn) (log : List LogRecord) :
    warnings (record :: log) = warnings log :=
  List.filter_cons_of_neg (by simpa using h)

/-- The warning that shows a chain. -/
def warning (chain : List Path) : LogRecord :=
  say .warn ("Circular import: " ++ chainText chain)

theorem warnings_map_warning (chains : List (List Path)) :
    warnings (chains.map warning) = chains.map warning := by
  refine List.filter_eq_self.mpr fun record mem => ?_
  obtain ⟨chain, -, rfl⟩ := List.mem_map.mp mem
  rfl

/-- The chains that are spelled out for a graph are those of its groups. -/
theorem checkCycles_eq (settings : Settings) {graph : ModuleGraph} {groups : List (List Nat)}
    (found : graph.cycles? = some groups) :
    checkCycles settings graph =
      match groups.map graph.cycleChain with
      | [] => .ok []
      | first :: others =>
        if refusesCycles settings then .error (.cycle first)
        else .ok ((first :: others).map warning) := by
  rw [checkCycles, found]
  dsimp only [Option.getD_some]
  cases groups.map graph.cycleChain <;> rfl

theorem refusesCycles_iff (settings : Settings) :
    refusesCycles settings = true ↔ settings.rejectCycles = true ∨ settings.moduleCache = false := by
  simp [refusesCycles]

/-- What is generated from a valid graph, given what becomes of its circular imports. -/
theorem generate_of_checkCycles (settings : Settings) {graph : ModuleGraph}
    (valid : graph.validate = .ok ()) :
    (∀ error, checkCycles settings graph = .error error → (generate settings graph).1 = .error error) ∧
    ∀ found, checkCycles settings graph = .ok found →
      (generate settings graph).1 = .ok ⟨graph.bundle settings.runtimeOptions, graph⟩ ∧
        warnings (generate settings graph).2 = warnings found := by
  constructor
  · intro error checked
    rw [generate, valid, checked]
  · intro found checked
    rw [generate, valid, checked]
    refine ⟨rfl, ?_⟩
    dsimp only
    rw [warnings, List.filter_append]
    exact List.append_nil _

/-- The messages of a run warn of what the check of the graph warns of. -/
theorem warnings_bundle {tree : FileTree} {settings : Settings} {compiler : Compiler} {entry : Path}
    {graph : ModuleGraph}
    (built : (Discovery.build tree compiler (.new settings.extensionPolicy) entry).1 = .ok graph) :
    warnings (bundle tree settings compiler entry).2 = warnings (generate settings graph).2 := by
  have begins : (say .info ("Bundling " ++ entry.text)).level ≠ .warn := by
    intro same
    exact LogLevel.noConfusion same
  unfold bundle
  rw [built]
  dsimp only
  rw [warnings_cons begins, warnings_cons]
  intro same
  exact LogLevel.noConfusion same

/-- A bundle that is made is that of the graph that is built, and that graph has no circles where
they are refused. -/
theorem graph_of_bundle {tree : FileTree} {settings : Settings} {compiler : Compiler} {entry : Path}
    {result : Bundle} (made : (bundle tree settings compiler entry).1 = .ok result) :
    (Discovery.build tree compiler (.new settings.extensionPolicy) entry).1 = .ok result.graph ∧
      result.code = result.graph.bundle settings.runtimeOptions ∧
      (refusesCycles settings = true → result.graph.Acyclic) := by
  rw [fst_bundle] at made
  cases built : (Discovery.build tree compiler (.new settings.extensionPolicy) entry).1 with
  | error error =>
    rw [built] at made
    exact absurd made nofun
  | ok graph =>
    rw [built] at made
    have made : (generate settings graph).1 = .ok result := made
    have inside := Discovery.isClosed_of_build built
    have grouped := ModuleGraph.grouped_of_cycles? (ModuleGraph.closed_of_isClosed inside) rfl
    have checked := checkCycles_eq settings (ModuleGraph.cycles?_eq inside)
    generalize (List.range graph.size).filterMap graph.led? = groups at grouped checked
    obtain ⟨refused, makes⟩ := generate_of_checkCycles settings (Discovery.validate_of_build built)
    cases isChecked : checkCycles settings graph with
    | error error => exact absurd (made.symm.trans (refused error isChecked)) nofun
    | ok found =>
      obtain rfl := Except.ok.inj (made.symm.trans (makes found isChecked).1)
      refine ⟨rfl, rfl, fun refuses => grouped.acyclic_iff.mpr ?_⟩
      rw [isChecked, refuses] at checked
      cases groups with
      | nil => rfl
      | cons first others => exact absurd checked nofun

/-- The policy on circular imports, once the graph of a project has been built.  If a module imports
itself, directly or through others, and the settings refuse that or keep nothing, the error shows a
shortest way around through the lowest such module.  Otherwise the bundle is made, and the warnings
show the groups of modules that import each other, in order, each by a shortest way around through
its lowest member; there are none if there is no circle.  So the linking function that runs modules
again is only ever used on imports that are well-founded. -/
theorem bundle_circles (tree : FileTree) (settings : Settings) (compiler : Compiler) (entry : Path)
    {graph : ModuleGraph}
    (built : (Discovery.build tree compiler (.new settings.extensionPolicy) entry).1 = .ok graph) :
    ((∃ id, graph.Reaches id id) → settings.rejectCycles = true ∨ settings.moduleCache = false →
      ∃ lowest ids chain, graph.Reaches lowest lowest ∧ (∀ id, graph.Reaches id id → lowest ≤ id) ∧
        graph.ShortestCircle lowest ids ∧ graph.Shows ids chain ∧
        (bundle tree settings compiler entry).1 = .error (.cycle chain)) ∧
    (¬ ((∃ id, graph.Reaches id id) ∧
          (settings.rejectCycles = true ∨ settings.moduleCache = false)) →
      (bundle tree settings compiler entry).1 =
        .ok ⟨graph.bundle settings.runtimeOptions, graph⟩ ∧
      (∃ groups chains, graph.Grouped groups ∧ List.Forall₂ graph.ShowsGroup groups chains ∧
        warnings (bundle tree settings compiler entry).2 = chains.map warning) ∧
      (graph.Acyclic → warnings (bundle tree settings compiler entry).2 = [])) ∧
    ∀ made, (bundle tree settings compiler entry).1 = .ok made →
      Registry.runtime settings.runtimeOptions = Registry.reinvokingRuntime →
        made.graph = graph ∧ WellFounded fun target importer => graph.Imports importer target := by
  have inside := Discovery.isClosed_of_build built
  have closed := ModuleGraph.closed_of_isClosed inside
  have found := ModuleGraph.cycles?_eq inside
  have grouped := ModuleGraph.grouped_of_cycles? closed rfl
  generalize (List.range graph.size).filterMap graph.led? = groups at found grouped
  have checked := checkCycles_eq settings found
  obtain ⟨refused, made⟩ :=
    generate_of_checkCycles settings (Discovery.validate_of_build built)
  have circular : (∃ id, graph.Reaches id id) ↔ groups ≠ [] := by
    rw [Ne, ← grouped.acyclic_iff, ModuleGraph.Acyclic, not_forall_not]
  have shown : List.Forall₂ graph.ShowsGroup groups (groups.map graph.cycleChain) := by
    rw [List.forall₂_map_right_iff, List.forall₂_same]
    exact fun group mem => grouped.showsGroup closed mem
  have runsAgain : ∀ made, (bundle tree settings compiler entry).1 = .ok made →
      Registry.runtime settings.runtimeOptions = Registry.reinvokingRuntime →
        made.graph = graph ∧ WellFounded fun target importer => graph.Imports importer target := by
    intro result succeeded reinvokes
    obtain ⟨built', -, acyclic⟩ := graph_of_bundle succeeded
    obtain rfl := Except.ok.inj (built.symm.trans built')
    refine ⟨rfl, ModuleGraph.wellFounded_of_acyclic closed (acyclic ?_)⟩
    rw [refusesCycles_iff]
    exact Or.inr ((Registry.runtime_eq_reinvokingRuntime_iff _).mp reinvokes)
  rw [fst_bundle, built, warnings_bundle built, ← refusesCycles_iff]
  dsimp only
  have onCircle : (∃ id, graph.Reaches id id) → refusesCycles settings = true →
      ∃ lowest ids chain, graph.Reaches lowest lowest ∧ (∀ id, graph.Reaches id id → lowest ≤ id) ∧
        graph.ShortestCircle lowest ids ∧ graph.Shows ids chain ∧
        (generate settings graph).1 = .error (.cycle chain) := by
    intro exists_circle refuses
    obtain ⟨first, others, rfl⟩ := List.exists_cons_of_ne_nil (circular.mp exists_circle)
    obtain ⟨lowest, ids, isLowest, shortest, shows_⟩ :=
      grouped.showsGroup closed List.mem_cons_self
    refine ⟨lowest, ids, graph.cycleChain first, ?_, ?_, shortest, shows_, ?_⟩
    · exact (grouped.mem_iff lowest).mp ⟨first, List.mem_cons_self, List.mem_of_mem_head? isLowest⟩
    · exact fun id => grouped.lowest_le isLowest
    · refine refused _ (checked.trans ?_)
      rw [List.map_cons]
      exact if_pos refuses
  refine ⟨onCircle, fun allowed => ?_, fun result succeeded reinvokes => ?_⟩
  · have passes : checkCycles settings graph = .ok ((groups.map graph.cycleChain).map warning) := by
      rw [checked]
      cases hGroups : groups with
      | nil => rfl
      | cons first others =>
        have keeps : ¬ refusesCycles settings = true := fun refuses =>
          allowed ⟨circular.mpr (by simp [hGroups]), refuses⟩
        rw [List.map_cons]
        exact if_neg keeps
    obtain ⟨succeeds, logged⟩ := made _ passes
    rw [warnings_map_warning] at logged
    refine ⟨succeeds, ⟨groups, _, grouped, shown, logged⟩, fun acyclic => ?_⟩
    rw [logged, grouped.acyclic_iff.mp acyclic]
    rfl
  · apply runsAgain result _ reinvokes
    rw [fst_bundle, built]
    exact succeeded

/-- Two modules that import each other are bundled where modules are kept. -/
theorem bundle_circles_circle :
    ∃ graph, (Discovery.build Discovery.circle Compiler.listing
        (.new Settings.standard.extensionPolicy) ⟨"a"⟩).1 = .ok graph ∧
      (bundle Discovery.circle .standard Compiler.listing ⟨"a"⟩).1 =
        .ok ⟨graph.bundle Settings.standard.runtimeOptions, graph⟩ ∧
      ∃ groups chains, graph.Grouped groups ∧ List.Forall₂ graph.ShowsGroup groups chains ∧
        warnings (bundle Discovery.circle .standard Compiler.listing ⟨"a"⟩).2 =
          chains.map warning := by
  obtain ⟨graph, built⟩ := Discovery.exists_build_circle
  have policy := bundle_circles Discovery.circle .standard Compiler.listing ⟨"a"⟩ built
  have allowed : ¬ (Settings.standard.rejectCycles = true ∨ Settings.standard.moduleCache = false) := by
    decide
  obtain ⟨succeeds, warned, -⟩ := policy.2.1 fun refuses => allowed refuses.2
  exact ⟨graph, built, succeeds, warned⟩

end Bundling

end ModuleBundler

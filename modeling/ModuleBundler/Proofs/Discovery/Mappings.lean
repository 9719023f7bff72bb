/-
# ModuleBundler.Proofs.Discovery.Mappings — the graphs that are built are consistent.

In a graph that has been built every mapping lists the specifiers of its module, each once, and each
leads to the module that a new resolver would find (`ModuleGraph.Mapped`).  So the checks of a graph
find nothing, and no bundle fails for an inconsistent graph (`build_consistent`).
-/
import ModuleBundler.Bundling
import ModuleBundler.Proofs.Discovery.Order

namespace ModuleBundler

namespace ModuleGraph

/-- Mappings lead where a new resolver does: they list the distinct specifiers, each with the one
module under the path that is found, and the same identity means the same path. -/
structure Mapped (tree : FileTree) (policy : ExtensionPolicy) (graph : ModuleGraph) : Prop where
  keys : ∀ record ∈ graph.modules, record.mapping.map (·.1) = record.specifiers.eraseDups
  leads : ∀ record ∈ graph.modules, ∀ specifier ∈ record.specifiers,
    ∃ target ∈ graph.modules, record.resolve? specifier = some target.id ∧
      ((Resolver.new policy).resolve tree specifier record.path).1 = .ok target.path ∧
      ∀ other ∈ graph.modules, other.path.same target.path = true → other = target
  same_iff : ∀ record ∈ graph.modules, ∀ specifier ∈ record.specifiers,
    ∀ record' ∈ graph.modules, ∀ specifier' ∈ record'.specifiers,
      (record.resolve? specifier = record'.resolve? specifier' ↔
        ((Resolver.new policy).resolve tree specifier record.path).1 =
          ((Resolver.new policy).resolve tree specifier' record'.path).1)

/-! ## Checks -/

/-- A check finds nothing where identities are positions and all specifiers lead into the graph. -/
theorem faultFrom?_eq_none (graph : ModuleGraph) {records : List ModuleRecord} {position : Nat}
    (placed : records.map (·.id) = List.range' position records.length)
    (leads : ∀ record ∈ records, ∀ specifier ∈ record.specifiers,
      ∃ target < graph.size, record.resolve? specifier = some target) :
    graph.faultFrom? position records = none := by
  induction records generalizing position with
  | nil => rfl
  | cons record records ih =>
    rw [List.map_cons, List.length_cons, List.range'_succ] at placed
    obtain ⟨isPlaced, placed⟩ := List.cons.inj placed
    have faultless : record.specifiers.findSome? (graph.specifierFault? record) = none := by
      rw [List.findSome?_eq_none_iff]
      intro specifier listed
      obtain ⟨target, inRange, resolved⟩ := leads record List.mem_cons_self specifier listed
      rw [specifierFault?, resolved]
      exact if_pos inRange
    rw [faultFrom?, if_neg (not_not_intro isPlaced), faultless]
    exact ih placed fun other mem => leads other (List.mem_cons_of_mem record mem)

end ModuleGraph

namespace Discovery

/-- The imports of one module are found among those of all. -/
theorem filter_imports {records : List ModuleRecord} (distinct : (records.map (·.id)).Nodup)
    {record : ModuleRecord} (mem : record ∈ records) :
    ((records.flatMap fun other => other.specifiers.map fun specifier =>
        (other.id, specifier)).filter fun item => item.1 == record.id).map (·.2) =
      record.specifiers := by
  have own : ∀ other : ModuleRecord, other.id = record.id →
      ((other.specifiers.map fun specifier => (other.id, specifier)).filter fun item =>
        item.1 == record.id).map (·.2) = other.specifiers := by
    intro other same
    rw [List.filter_map, List.map_map, List.filter_eq_self.mpr]
    · exact List.map_id _
    · exact fun specifier _ => beq_iff_eq.mpr same
  have others : ∀ other : ModuleRecord, other.id ≠ record.id →
      ((other.specifiers.map fun specifier => (other.id, specifier)).filter fun item =>
        item.1 == record.id) = [] := by
    intro other differs
    rw [List.filter_map, List.filter_eq_nil_iff.mpr]
    · rfl
    · exact fun specifier _ same => differs (eq_of_beq same)
  -- only one of the modules contributes: the first, or one of the others
  induction records with
  | nil => exact absurd mem List.not_mem_nil
  | cons first records ih =>
    rw [List.map_cons, List.nodup_cons] at distinct
    rw [List.flatMap_cons, List.filter_append, List.map_append]
    rcases List.mem_cons.mp mem with rfl | mem
    · have noneLeft : (records.flatMap fun other => other.specifiers.map fun specifier =>
          (other.id, specifier)).filter (fun item => item.1 == record.id) = [] := by
        rw [List.filter_flatMap, List.flatMap_eq_nil_iff]
        intro other mem
        refine others other fun same => distinct.1 ?_
        rw [← same]
        exact List.mem_map_of_mem mem
      rw [own record rfl, noneLeft]
      exact List.append_nil _
    · have differs : first.id ≠ record.id := by
        intro same
        refine distinct.1 ?_
        rw [same]
        exact List.mem_map_of_mem mem
      rw [others first differs, ih distinct.2 mem]
      rfl

variable {tree : FileTree} {compiler : Compiler} {resolver : Resolver} {entry : Path}
  {stage : Stage}

namespace Run

/-- When nothing is left to do, the keys of a mapping are the distinct specifiers. -/
theorem keys_of_done (run : Run tree compiler resolver entry stage) (done : stage.todo = [])
    (last : stage.id + 1 = stage.builder.graph.size) {record : ModuleRecord}
    (mem : record ∈ stage.builder.graph.modules) :
    record.mapping.map (·.1) = record.specifiers.eraseDups := by
  have distinct : (stage.builder.graph.modules.map (·.id)).Nodup := by
    rw [run.wellFormed.ids]
    exact List.nodup_range
  have visited : visitedBy stage.history record.id = record.specifiers := by
    rw [← filter_imports distinct mem, ← run.listed_of_done done last, List.filter_map,
      List.map_map]
    rfl
  rw [← visited]
  exact run.recorded.keys record.id record (run.wellFormed.get?_id mem)

/-- When nothing is left to do, every specifier leads to the module of its answer. -/
theorem leads_of_done (run : Run tree compiler resolver entry stage) (done : stage.todo = [])
    (last : stage.id + 1 = stage.builder.graph.size) {record : ModuleRecord}
    (mem : record ∈ stage.builder.graph.modules) {specifier : String}
    (listed : specifier ∈ record.specifiers) :
    ∃ path target, (resolver.resolve tree specifier record.path).1 = .ok path ∧
      record.resolve? specifier = some target ∧
      stage.builder.graph.idOfPath? path = some target := by
  obtain ⟨target, visited⟩ := run.exists_visit_of_done done last mem listed
  have found := run.wellFormed.get?_id mem
  obtain ⟨importer, path, placed, answer, known⟩ := run.answered _ visited
  rw [ModuleGraph.outline_of_get? found] at placed
  obtain rfl := Option.some.inj placed
  refine ⟨path, target, answer, ?_, known⟩
  exact (run.recorded.resolves record.id record found _ _).mpr visited

end Run

/-! ## Graphs that are built -/

/-- Every specifier leads to the one module under the path that a new resolver finds. -/
theorem leads_of_build {policy : ExtensionPolicy} {graph : ModuleGraph}
    (built : (build tree compiler (.new policy) entry).1 = .ok graph) {record : ModuleRecord}
    (mem : record ∈ graph.modules) {specifier : String} (listed : specifier ∈ record.specifiers) :
    ∃ target ∈ graph.modules, record.resolve? specifier = some target.id ∧
      ((Resolver.new policy).resolve tree specifier record.path).1 = .ok target.path ∧
      ∀ other ∈ graph.modules, other.path.same target.path = true → other = target := by
  obtain ⟨stage, run, done, last, rfl⟩ := exists_run_of_build built
  have known := (explored_of_build built).sound.reached
  obtain ⟨path, id, answer, resolved, isTarget⟩ := run.leads_of_done done last mem listed
  obtain ⟨target, found, same⟩ := run.wellFormed.idOfPath?_eq_some_iff.mp isTarget
  have memTarget := ModuleGraph.mem_of_get? found
  obtain ⟨source, compiled, loads, specifiers, -⟩ := loads_of_build built mem
  rw [specifiers] at listed
  -- the target has the path in some spelling, and reachable paths have only one
  have reached : Reachable tree compiler (.new policy) entry path :=
    .imported (known record.path (List.mem_map_of_mem mem)) loads listed answer
  obtain rfl := (known target.path (List.mem_map_of_mem memTarget)).eq_of_same reached same
  refine ⟨target, memTarget, ?_, answer, fun other memOther sameOther => ?_⟩
  · rw [run.wellFormed.id_of_get? found]
    exact resolved
  · exact run.wellFormed.eq_of_same memOther memTarget sameOther

theorem mapped_of_build {policy : ExtensionPolicy} {graph : ModuleGraph}
    (built : (build tree compiler (.new policy) entry).1 = .ok graph) :
    graph.Mapped tree policy := by
  obtain ⟨stage, run, done, last, rfl⟩ := exists_run_of_build built
  refine ⟨fun record mem => run.keys_of_done done last mem,
    fun record mem specifier listed => leads_of_build built mem listed, ?_⟩
  intro record mem specifier listed record' mem' specifier' listed'
  obtain ⟨target, memTarget, resolved, answer, unique⟩ := leads_of_build built mem listed
  obtain ⟨target', memTarget', resolved', answer', -⟩ := leads_of_build built mem' listed'
  rw [resolved, resolved', answer, answer', Option.some.injEq, Except.ok.injEq]
  constructor
  · intro sameId
    have found := run.wellFormed.get?_id memTarget
    rw [sameId, run.wellFormed.get?_id memTarget'] at found
    rw [Option.some.inj found]
  · intro samePath
    have same : target'.path.same target.path = true := by
      rw [samePath]
      exact Path.same_refl _
    rw [unique target' memTarget' same]

theorem validate_of_build {graph : ModuleGraph}
    (built : (build tree compiler resolver entry).1 = .ok graph) : graph.validate = .ok () := by
  obtain ⟨stage, run, done, last, rfl⟩ := exists_run_of_build built
  have faultless : stage.builder.graph.faultFrom? 0 stage.builder.graph.modules = none := by
    refine ModuleGraph.faultFrom?_eq_none _ ?_ fun record mem specifier listed => ?_
    · rw [run.wellFormed.ids, List.range_eq_range']
      rfl
    · obtain ⟨path, target, -, resolved, known⟩ := run.leads_of_done done last mem listed
      obtain ⟨found, placed, -⟩ := run.wellFormed.idOfPath?_eq_some_iff.mp known
      exact ⟨target, ModuleGraph.lt_size_of_get? placed, resolved⟩
  rw [ModuleGraph.validate, faultless]

/-- Imports do not lead out of a graph that has been built. -/
theorem isClosed_of_build {graph : ModuleGraph}
    (built : (build tree compiler resolver entry).1 = .ok graph) : graph.isClosed = true := by
  obtain ⟨stage, run, -, -, rfl⟩ := exists_run_of_build built
  rw [ModuleGraph.isClosed, List.all_eq_true]
  rintro ⟨importer, target⟩ edge
  obtain ⟨visit, mem, -, rfl⟩ := run.mem_edges_iff.mp edge
  exact decide_eq_true (run.target_lt_size visit mem)

/-- The entry is the first module, and what is queued is registered, however far the worklist has
been drained. -/
theorem registered_of_drain {path : Path} {after : Resolver} {id : Nat} {builder : Builder}
    (found : resolver.resolveEntry tree entry = (.ok path, after))
    (discovered : discover tree compiler (.start after) path = .ok (id, builder)) :
    id = 0 ∧ ∀ steps, ∀ queued ∈ (drain tree compiler steps builder).2.worklist,
      ∃ record, (drain tree compiler steps builder).2.graph.get? queued = some record := by
  rcases discover_cases tree compiler (.start after) path with
    ⟨source, compiled, loads⟩ | ⟨fault, -, failed⟩ | ⟨source, error, -, -, failed⟩
  · rw [discover_of_loads (.start after) rfl loads] at discovered
    obtain ⟨rfl, rfl⟩ := Prod.mk.inj (Except.ok.inj discovered)
    refine ⟨rfl, fun steps => ?_⟩
    cases steps with
    | zero =>
      intro queued mem
      rw [List.mem_singleton.mp mem]
      exact ⟨.ofCompiled 0 path source compiled, rfl⟩
    | succ steps =>
      obtain ⟨stage, run, graph, worklist⟩ := (outcome_drain_start steps found loads).exists_stage
      intro queued mem
      obtain ⟨record, registered⟩ := run.registered (worklist ▸ mem)
      exact ⟨record, graph ▸ registered⟩
  · exact absurd (failed.symm.trans discovered) nofun
  · exact absurd (failed.symm.trans discovered) nofun

end Discovery

namespace Bundling

/-- Circles are the only thing that is refused about a graph that has been built. -/
theorem checkCycles_ne_invalidGraph (settings : Settings) (graph : ModuleGraph)
    (fault : GraphFault) : checkCycles settings graph ≠ .error (.invalidGraph fault) := by
  rw [checkCycles]
  cases (graph.cycles?.getD []).map graph.cycleChain with
  | nil => exact nofun
  | cons first chains =>
    dsimp only
    split <;> exact nofun

theorem generate_ne_invalidGraph {settings : Settings} {graph : ModuleGraph}
    (valid : graph.validate = .ok ()) (fault : GraphFault) :
    (generate settings graph).1 ≠ .error (.invalidGraph fault) := by
  rw [generate, valid]
  dsimp only
  cases checked : checkCycles settings graph with
  | ok warnings => exact nofun
  | error error =>
    intro failed
    rw [Except.error.inj failed] at checked
    exact checkCycles_ne_invalidGraph settings graph fault checked

/-- What comes of a bundle is what comes of building its graph, and then of generating code. -/
theorem fst_bundle (tree : FileTree) (settings : Settings) (compiler : Compiler) (entry : Path) :
    (bundle tree settings compiler entry).1 =
      match (Discovery.build tree compiler (.new settings.extensionPolicy) entry).1 with
      | .error error => .error error
      | .ok graph => (generate settings graph).1 := by
  unfold bundle
  generalize (Discovery.build tree compiler (.new settings.extensionPolicy) entry).1 = built
  cases built with
  | error error => rfl
  | ok graph => dsimp only

/-- No bundle fails for an inconsistent graph once the graph has been built. -/
theorem bundle_ne_invalidGraph {tree : FileTree} {compiler : Compiler} {settings : Settings}
    {entry : Path} {graph : ModuleGraph}
    (built : (Discovery.build tree compiler (.new settings.extensionPolicy) entry).1 = .ok graph)
    (fault : GraphFault) :
    (bundle tree settings compiler entry).1 ≠ .error (.invalidGraph fault) := by
  rw [fst_bundle, built]
  exact generate_ne_invalidGraph (Discovery.validate_of_build built) fault

/-- A bundle fails for an inconsistent graph only where the compiler reports one. -/
theorem refused_of_bundle {tree : FileTree} {compiler : Compiler} {settings : Settings}
    {entry : Path} {fault : GraphFault}
    (failed : (bundle tree settings compiler entry).1 = .error (.invalidGraph fault)) :
    ∃ path source, compiler path source = .error (.invalidGraph fault) := by
  rcases Discovery.build_cases tree compiler (.new settings.extensionPolicy) entry with
    ⟨stage, -, -, -, built⟩ | ⟨error, failure, result⟩
  · exact absurd failed (bundle_ne_invalidGraph built fault)
  · rw [fst_bundle, result] at failed
    obtain rfl : error = .invalidGraph fault := Except.error.inj failed
    -- resolving and reading fail with errors of their own
    rcases failure with opening | ⟨frontier, -, event⟩
    · cases opening with
      | @refused path source _ _ _ refused => exact ⟨path, source, refused⟩
    · cases event with
      | @refused _ _ _ path _ source _ _ _ _ refused => exact ⟨path, source, refused⟩

end Bundling

namespace Discovery

/-- A graph that is built is consistent: its mappings lead where a new resolver does, the checks of
the graph find nothing, circles are looked for among its own modules, and no bundle of it fails for
an inconsistency.  While any graph is built, successfully or not, the entry is the first module and
every identity that is queued has its module; an inconsistency is reported only by a compiler. -/
theorem build_consistent (tree : FileTree) (compiler : Compiler) (policy : ExtensionPolicy)
    (entry : Path) :
    (∀ graph, (build tree compiler (.new policy) entry).1 = .ok graph →
      graph.Mapped tree policy ∧ graph.validate = .ok () ∧
      (∃ groups, graph.cycles? = some groups) ∧
      ∀ settings fault, settings.extensionPolicy = policy →
        (Bundling.bundle tree settings compiler entry).1 ≠ .error (.invalidGraph fault)) ∧
    (∀ path after id builder,
      (Resolver.new policy).resolveEntry tree entry = (.ok path, after) →
      discover tree compiler (.start after) path = .ok (id, builder) →
      id = 0 ∧ ∀ steps, ∀ queued ∈ (drain tree compiler steps builder).2.worklist,
        ∃ record, (drain tree compiler steps builder).2.graph.get? queued = some record) ∧
    ∀ settings fault, settings.extensionPolicy = policy →
      (Bundling.bundle tree settings compiler entry).1 = .error (.invalidGraph fault) →
        ∃ path source, compiler path source = .error (.invalidGraph fault) := by
  refine ⟨fun graph built => ⟨mapped_of_build built, validate_of_build built, ?_, ?_⟩, ?_, ?_⟩
  · rw [ModuleGraph.cycles?, if_pos (isClosed_of_build built)]
    exact ⟨_, rfl⟩
  · rintro settings fault rfl
    exact Bundling.bundle_ne_invalidGraph built fault
  · intro path after id builder found discovered
    exact registered_of_drain found discovered
  · rintro settings fault rfl failed
    exact Bundling.refused_of_bundle failed

end Discovery

end ModuleBundler

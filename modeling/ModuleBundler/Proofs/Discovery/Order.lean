/-
# ModuleBundler.Proofs.Discovery.Order — identities are breadth-first.

Listing what the specifiers of the modules lead to, module by module, mentions the identities for
the first time in increasing order.  From this alone it follows that a module with a lower identity
is no farther from the entry (`Run.chain_le`): whatever is mentioned for the first time later is
imported by a later module.
-/
import Mathlib.Data.Nat.Find
import ModuleBundler.Proofs.Discovery.Completeness
import ModuleBundler.Proofs.Discovery.History

namespace ModuleBundler

namespace ModuleGraph

/-- The entry, and then the identities that the specifiers of the modules lead to, in order. -/
def mentions (graph : ModuleGraph) : List Nat :=
  0 :: graph.modules.flatMap fun record => record.specifiers.filterMap record.resolve?

/-- A chain of imports from the entry to a module. -/
inductive Chain (graph : ModuleGraph) : (length : Nat) → (id : Nat) → Prop
  | entry : Chain graph 0 0
  | step {length importer target : Nat} (chain : Chain graph length importer)
      (edge : (importer, target) ∈ graph.edges) : Chain graph (length + 1) target

/-- The length of a shortest chain of imports from the entry to a module. -/
def IsDepth (graph : ModuleGraph) (id depth : Nat) : Prop :=
  graph.Chain depth id ∧ ∀ length, graph.Chain length id → depth ≤ length

end ModuleGraph

namespace Discovery

/-- The edges of a graph are what has been resolved. -/
theorem Recorded.mem_edges_iff {graph : ModuleGraph} {history : List Visit}
    (h : Recorded graph history) (wellFormed : graph.WellFormed)
    (bound : ∀ visit ∈ history, visit.importer < graph.size) {importer target : Nat} :
    (importer, target) ∈ graph.edges ↔
      ∃ visit ∈ history, visit.importer = importer ∧ visit.target = target := by
  rw [ModuleGraph.edges, List.mem_flatMap]
  constructor
  · rintro ⟨record, mem, edge⟩
    obtain ⟨target', isTarget, isEdge⟩ := List.mem_map.mp edge
    obtain ⟨rfl, rfl⟩ := Prod.mk.inj isEdge
    rw [ModuleGraph.mem_distinct, ModuleRecord.targets, List.mem_map] at isTarget
    obtain ⟨⟨specifier, target⟩, entry, rfl⟩ := isTarget
    have found := wellFormed.get?_id mem
    have distinct : (record.mapping.map (·.1)).Nodup := by
      show record.keys.Nodup
      rw [h.keys record.id record found]
      exact nodup_eraseDups _
    have resolves := ModuleRecord.resolve?_of_mem distinct entry
    exact ⟨_, (h.resolves record.id record found specifier target).mp resolves, rfl, rfl⟩
  · rintro ⟨visit, mem, rfl, rfl⟩
    have inRange : visit.importer < graph.modules.length := bound visit mem
    have found : graph.get? visit.importer = some graph.modules[visit.importer] :=
      List.getElem?_eq_getElem inRange
    have resolves := (h.resolves _ _ found visit.specifier visit.target).mpr mem
    refine ⟨_, List.getElem_mem inRange, List.mem_map.mpr ⟨visit.target, ?_, ?_⟩⟩
    · rw [ModuleGraph.mem_distinct, ModuleRecord.targets]
      exact ModuleRecord.mem_of_resolve? resolves
    · rw [wellFormed.id_of_get? found]

/-- What comes first among numbers in order is an initial part of them. -/
theorem mem_of_lt_of_initial {before after : List Nat} {size low high : Nat}
    (order : (before ++ after).eraseDups = List.range size) (mem : high ∈ before)
    (lt : low < high) : low ∈ before := by
  rw [List.eraseDups_append] at order
  have initial : before.eraseDups = List.range (min before.eraseDups.length size) := by
    rw [← List.take_range, ← order, List.take_left]
  rw [← List.mem_eraseDups, initial, List.mem_range] at mem ⊢
  omega

variable {tree : FileTree} {compiler : Compiler} {resolver : Resolver} {entry : Path}
  {stage : Stage}

namespace Run

theorem mem_edges_iff (run : Run tree compiler resolver entry stage) {importer target : Nat} :
    (importer, target) ∈ stage.builder.graph.edges ↔
      ∃ visit ∈ stage.history, visit.importer = importer ∧ visit.target = target :=
  run.recorded.mem_edges_iff run.wellFormed run.importer_lt_size

/-- A module with a lower identity is imported no later. -/
theorem exists_edge_of_lt (run : Run tree compiler resolver entry stage) {importer low high : Nat}
    (edge : (importer, high) ∈ stage.builder.graph.edges) (lt : low < high) :
    low = 0 ∨ ∃ earlier ≤ importer, (earlier, low) ∈ stage.builder.graph.edges := by
  obtain ⟨visit, mem, rfl, rfl⟩ := run.mem_edges_iff.mp edge
  obtain ⟨before, after, split⟩ := List.append_of_mem mem
  -- what has been mentioned up to this visit is an initial part of the identities
  have order : ((0 :: before.map (·.target) ++ [visit.target]) ++ after.map (·.target)).eraseDups =
      List.range stage.builder.graph.size := by
    rw [← run.order, split, List.map_append, List.map_cons, List.append_assoc]
    rfl
  have pairwise := run.ordered.pairwise
  rw [split, List.pairwise_append] at pairwise
  have isHigh : visit.target ∈ 0 :: before.map (·.target) ++ [visit.target] :=
    List.mem_append_right _ (List.mem_singleton_self _)
  rcases List.mem_append.mp (mem_of_lt_of_initial order isHigh lt) with isLow | isLow
  · rcases List.mem_cons.mp isLow with isEntry | isLow
    · exact Or.inl isEntry
    · obtain ⟨other, mem', rfl⟩ := List.mem_map.mp isLow
      have le := pairwise.2.2 other mem' visit List.mem_cons_self
      refine Or.inr ⟨other.importer, le, run.mem_edges_iff.mpr ⟨other, ?_, rfl, rfl⟩⟩
      rw [split]
      exact List.mem_append_left _ mem'
  · rw [List.mem_singleton] at isLow
    omega

/-- A module with a lower identity is no farther from the entry. -/
theorem chain_le (run : Run tree compiler resolver entry stage) {length high : Nat}
    (chain : stage.builder.graph.Chain length high) {low : Nat} (le : low ≤ high) :
    ∃ shorter ≤ length, stage.builder.graph.Chain shorter low := by
  -- on the chain; its last edge is replaced by one of an earlier module
  induction chain generalizing low with
  | entry =>
    obtain rfl := Nat.le_zero.mp le
    exact ⟨0, Nat.le_refl 0, .entry⟩
  | @step length importer target chain edge ih =>
    rcases Nat.lt_or_eq_of_le le with lt | rfl
    · rcases run.exists_edge_of_lt edge lt with rfl | ⟨earlier, le', edge'⟩
      · exact ⟨0, Nat.zero_le _, .entry⟩
      · obtain ⟨shorter, bound, chain'⟩ := ih le'
        exact ⟨shorter + 1, Nat.succ_le_succ bound, .step chain' edge'⟩
    · exact ⟨length + 1, Nat.le_refl _, .step chain edge⟩

/-- Every module is reached from the entry. -/
theorem exists_chain (run : Run tree compiler resolver entry stage) (id : Nat)
    (inRange : id < stage.builder.graph.size) :
    ∃ length, stage.builder.graph.Chain length id := by
  induction id using Nat.strongRecOn with
  | ind id ih =>
    rcases Nat.eq_zero_or_pos id with rfl | positive
    · exact ⟨0, .entry⟩
    · obtain ⟨visit, mem, rfl, lt⟩ := run.earlier id positive inRange
      obtain ⟨length, chain⟩ := ih visit.importer lt (Nat.lt_trans lt inRange)
      exact ⟨length + 1, .step chain (run.mem_edges_iff.mpr ⟨visit, mem, rfl, rfl⟩)⟩

/-- What the graph mentions, when nothing is left to do, is what has been resolved. -/
theorem mentions_eq (run : Run tree compiler resolver entry stage) (done : stage.todo = [])
    (last : stage.id + 1 = stage.builder.graph.size) :
    stage.builder.graph.mentions = 0 :: stage.history.map (·.target) := by
  -- where a specifier of a module leads, asked of the graph
  let resolved (item : Nat × String) : Option Nat :=
    (stage.builder.graph.get? item.1).bind fun record => record.resolve? item.2
  have fromHistory : (stage.history.map fun visit => (visit.importer, visit.specifier)).filterMap
      resolved = stage.history.map (·.target) := by
    rw [List.filterMap_map, List.filterMap_eq_map_iff_forall_eq_some]
    intro visit mem
    have inRange := run.importer_lt_size visit mem
    have found : stage.builder.graph.get? visit.importer =
        some stage.builder.graph.modules[visit.importer] := List.getElem?_eq_getElem inRange
    show (stage.builder.graph.get? visit.importer).bind _ = _
    rw [found, Option.bind_some]
    exact (run.recorded.resolves _ _ found _ _).mpr mem
  rw [ModuleGraph.mentions, ← fromHistory, run.listed_of_done done last, List.filterMap_flatMap]
  congr 1
  refine List.flatMap_congr fun record mem => ?_
  rw [List.filterMap_map]
  refine List.filterMap_congr fun specifier _ => ?_
  show _ = (stage.builder.graph.get? record.id).bind _
  rw [run.wellFormed.get?_id mem]
  rfl

end Run

/-- In a successful build identities are given out breadth first.  They are the positions of the
modules; all specifiers lead somewhere, and the identities that they lead to, listed module by
module behind that of the entry, appear for the first time in increasing order.  So every module has
a depth, the length of a shortest chain of imports from the entry, and depths never decrease. -/
theorem build_order (tree : FileTree) (compiler : Compiler) (resolver : Resolver) (entry : Path)
    {graph : ModuleGraph} (built : (build tree compiler resolver entry).1 = .ok graph) :
    graph.modules.map (·.id) = List.range graph.size ∧
    (∀ record ∈ graph.modules, ∀ specifier ∈ record.specifiers,
      ∃ target, record.resolve? specifier = some target) ∧
    graph.mentions.eraseDups = List.range graph.size ∧
    (∀ id < graph.size, ∃ depth, graph.IsDepth id depth) ∧
    ∀ id other depth depth', id ≤ other → graph.IsDepth id depth → graph.IsDepth other depth' →
      depth ≤ depth' := by
  obtain ⟨stage, run, done, last, rfl⟩ := exists_run_of_build built
  refine ⟨run.wellFormed.ids, fun record mem specifier listed => ?_, ?_, fun id inRange => ?_, ?_⟩
  · obtain ⟨target, resolved⟩ := run.exists_visit_of_done done last mem listed
    have found := run.wellFormed.get?_id mem
    exact ⟨target, (run.recorded.resolves record.id record found specifier target).mpr resolved⟩
  · rw [run.mentions_eq done last]
    exact run.order
  · classical
    have exists_chain := run.exists_chain id inRange
    exact ⟨Nat.find exists_chain, Nat.find_spec exists_chain,
      fun length chain => Nat.find_min' exists_chain chain⟩
  · intro id other depth depth' le isDepth isDepth'
    obtain ⟨shorter, bound, chain⟩ := run.chain_le isDepth'.1 le
    exact Nat.le_trans (isDepth.2 shorter chain) bound

/-- Modules that import each other are numbered from the entry on. -/
theorem build_order_circle :
    ∃ graph, (build circle Compiler.listing (.new .standard) ⟨"a"⟩).1 = .ok graph ∧
      graph.mentions.eraseDups = List.range graph.size := by
  obtain ⟨graph, built⟩ := exists_build_circle
  have order := build_order circle Compiler.listing (.new .standard) ⟨"a"⟩ built
  exact ⟨graph, built, order.2.2.1⟩

end Discovery

end ModuleBundler

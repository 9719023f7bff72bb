/-
# ModuleBundler.Proofs.Discovery.Run — the stages that a build goes through.

A `Stage` is a build between two events: the module whose specifiers are being resolved, those that
are left, and a record of what has been resolved.  `Run` says what leads from one stage to the next.
At every stage the graph is well-formed, the worklist holds the identities behind the one that is
being dealt with, and an exploration has come exactly as far (`Run.explored`).
-/
import ModuleBundler.Proofs.Discovery.Exploration
import ModuleBundler.Proofs.Graph.Store

namespace ModuleBundler.Discovery

/-- A specifier of a module, with the module that it was found to lead to. -/
structure Visit where
  importer : Nat
  specifier : String
  target : Nat

/-- A build between two events. -/
structure Stage where
  builder : Builder
  /-- the module whose specifiers are being resolved -/
  id : Nat
  importer : Path
  /-- the specifiers of the module that are left -/
  todo : List String
  /-- what has been resolved -/
  history : List Visit

/-- The stages of a build as far as nothing fails. -/
inductive Run (tree : FileTree) (compiler : Compiler) (resolver : Resolver) (entry : Path) :
    Stage → Prop
  | start {path : Path} {after : Resolver} {source : String} {compiled : CompiledModule}
      (found : resolver.resolveEntry tree entry = (.ok path, after))
      (loads : Loads tree compiler path source compiled) :
      Run tree compiler resolver entry
        ⟨⟨after, ModuleGraph.empty.push path source compiled, []⟩, 0, path,
          compiled.specifiers, []⟩
  | take {builder : Builder} {id next : Nat} {importer : Path} {history : List Visit}
      {worklist : List Nat} {record : ModuleRecord}
      (run : Run tree compiler resolver entry ⟨builder, id, importer, [], history⟩)
      (queued : builder.worklist = next :: worklist)
      (registered : builder.graph.get? next = some record) :
      Run tree compiler resolver entry
        ⟨{ builder with worklist := worklist }, next, record.path, record.specifiers, history⟩
  | known {builder : Builder} {id target : Nat} {importer path : Path} {specifier : String}
      {todo : List String} {history : List Visit} {after : Resolver}
      (run : Run tree compiler resolver entry ⟨builder, id, importer, specifier :: todo, history⟩)
      (found : builder.resolver.resolve tree specifier importer = (.ok path, after))
      (known : builder.graph.idOfPath? path = some target) :
      Run tree compiler resolver entry
        ⟨⟨after, builder.graph.addMapping id specifier target, builder.worklist⟩, id, importer,
          todo, history ++ [⟨id, specifier, target⟩]⟩
  | new {builder : Builder} {id : Nat} {importer path : Path} {specifier source : String}
      {todo : List String} {history : List Visit} {after : Resolver} {compiled : CompiledModule}
      (run : Run tree compiler resolver entry ⟨builder, id, importer, specifier :: todo, history⟩)
      (found : builder.resolver.resolve tree specifier importer = (.ok path, after))
      (unknown : builder.graph.idOfPath? path = none)
      (loads : Loads tree compiler path source compiled) :
      Run tree compiler resolver entry
        ⟨⟨after,
          (builder.graph.push path source compiled).addMapping id specifier builder.graph.nextId,
          builder.worklist ++ [builder.graph.nextId]⟩, id, importer, todo,
          history ++ [⟨id, specifier, builder.graph.nextId⟩]⟩

/-- How far an exploration has come at a stage. -/
def Stage.frontier (stage : Stage) : Frontier :=
  let outline := stage.builder.graph.outline
  ⟨outline.map (·.path), importsOf stage.importer stage.todo ++
    (outline.drop (stage.id + 1)).flatMap fun record => importsOf record.path record.specifiers⟩

variable {tree : FileTree} {compiler : Compiler} {resolver : Resolver} {entry : Path}
  {stage : Stage}

namespace Run

theorem wellFormed (run : Run tree compiler resolver entry stage) :
    stage.builder.graph.WellFormed := by
  induction run with
  | start found loads => exact ModuleGraph.wellFormed_empty.push rfl _ _
  | take run queued registered ih => exact ih
  | known run found known ih => exact ih.addMapping _ _ _
  | new run found unknown loads ih => exact (ih.push unknown _ _).addMapping _ _ _

/-- What the resolver remembers does not change its answers. -/
theorem agrees (run : Run tree compiler resolver entry stage) :
    Resolver.Agrees tree resolver stage.builder.resolver := by
  induction run with
  | start found loads =>
    have agrees := Resolver.agrees_resolveFrom tree resolver tree.workingPath entry.text none
    rw [← Resolver.resolveEntry, found] at agrees
    exact agrees
  | take run queued registered ih => exact ih
  | known run found known ih => exact ih.of_resolve found
  | new run found unknown loads ih => exact ih.of_resolve found

/-- At every stage the answers are those of the resolver that the build was begun with. -/
theorem answer_eq (run : Run tree compiler resolver entry stage) {specifier : String}
    {importer : Path} {result : Except BuildError Path} {after : Resolver}
    (found : stage.builder.resolver.resolve tree specifier importer = (result, after)) :
    (resolver.resolve tree specifier importer).1 = result := by
  have same : (stage.builder.resolver.resolve tree specifier importer).1 =
      (resolver.resolve tree specifier importer).1 := run.agrees _ _ _
  rw [← same, found]

/-- The module whose specifiers are being resolved has its place in the graph. -/
theorem current (run : Run tree compiler resolver entry stage) :
    ∃ record, stage.builder.graph.outline[stage.id]? = some record ∧
      record.path = stage.importer := by
  induction run with
  | start found loads => exact ⟨_, rfl, rfl⟩
  | @take builder id next importer history worklist record run queued registered ih =>
    exact ⟨record.bare, ModuleGraph.outline_of_get? registered, rfl⟩
  | known run found known ih =>
    rw [ModuleGraph.outline_addMapping]
    exact ih
  | new run found unknown loads ih =>
    obtain ⟨record, placed, path⟩ := ih
    rw [ModuleGraph.outline_addMapping]
    exact ⟨record, ModuleGraph.outline_push_of_outline placed _ _ _, path⟩

theorem id_lt_length_outline (run : Run tree compiler resolver entry stage) :
    stage.id < stage.builder.graph.outline.length := by
  obtain ⟨record, placed, -⟩ := run.current
  exact (List.getElem?_eq_some_iff.mp placed).1

theorem id_lt_size (run : Run tree compiler resolver entry stage) :
    stage.id < stage.builder.graph.size := by
  rw [← ModuleGraph.length_outline]
  exact run.id_lt_length_outline

/-- What is taken from the front of the identities that come next. -/
theorem eq_of_cons_eq_range' {id next size : Nat} {rest : List Nat}
    (h : next :: rest = List.range' (id + 1) (size - (id + 1))) :
    next = id + 1 ∧ rest = List.range' (next + 1) (size - (next + 1)) := by
  cases left : size - (id + 1) with
  | zero =>
    rw [left] at h
    exact absurd h (List.cons_ne_nil next rest)
  | succ left' =>
    rw [left, List.range'_succ] at h
    obtain ⟨rfl, rfl⟩ := List.cons.inj h
    have fewer : size - (id + 1 + 1) = left' := by omega
    rw [fewer]
    exact ⟨rfl, rfl⟩

/-- The worklist holds the identities that come next. -/
theorem worklist_eq (run : Run tree compiler resolver entry stage) :
    stage.builder.worklist =
      List.range' (stage.id + 1) (stage.builder.graph.size - (stage.id + 1)) := by
  induction run with
  | start found loads => rfl
  | @take builder id next importer history worklist record run queued registered ih =>
    rw [queued] at ih
    exact (eq_of_cons_eq_range' ih).2
  | known run found known ih =>
    rw [ModuleGraph.size_addMapping]
    exact ih
  | @new builder id importer path specifier source todo history after compiled run found unknown
      loads ih =>
    have placed : id < builder.graph.size := run.id_lt_size
    show builder.worklist ++ [builder.graph.nextId] = _
    rw [ModuleGraph.size_addMapping, ModuleGraph.size_push, ih, run.wellFormed.nextId]
    show List.range' (id + 1) (builder.graph.size - (id + 1)) ++ [builder.graph.size] =
      List.range' (id + 1) (builder.graph.size + 1 - (id + 1))
    have more : builder.graph.size + 1 - (id + 1) = builder.graph.size - (id + 1) + 1 := by omega
    have last : builder.graph.size = id + 1 + (builder.graph.size - (id + 1)) := by omega
    rw [more, List.range'_1_concat, ← last]

/-- Modules are dealt with one behind the other. -/
theorem next_eq {next : Nat} {worklist : List Nat}
    (run : Run tree compiler resolver entry stage)
    (queued : stage.builder.worklist = next :: worklist) : next = stage.id + 1 := by
  have shape := run.worklist_eq
  rw [queued] at shape
  exact (eq_of_cons_eq_range' shape).1

/-- Every module is what its path was compiled to. -/
theorem loaded (run : Run tree compiler resolver entry stage) {record : ModuleRecord}
    (mem : record ∈ stage.builder.graph.outline) :
    ∃ source compiled, Loads tree compiler record.path source compiled ∧
      record = .ofCompiled record.id record.path source compiled := by
  induction run with
  | @start path after source compiled found loads =>
    rw [List.mem_singleton.mp mem]
    exact ⟨source, compiled, loads, rfl⟩
  | take run queued registered ih => exact ih mem
  | known run found known ih =>
    rw [ModuleGraph.outline_addMapping] at mem
    exact ih mem
  | @new builder id importer path specifier source todo history after compiled run found unknown
      loads ih =>
    rw [ModuleGraph.outline_addMapping, ModuleGraph.outline_push] at mem
    rcases List.mem_append.mp mem with mem | mem
    · exact ih mem
    · rw [List.mem_singleton.mp mem]
      exact ⟨source, compiled, loads, rfl⟩

/-- A path that the graph knows is known to the exploration, in some spelling. -/
theorem known_of_idOfPath? {graph : ModuleGraph} (wellFormed : graph.WellFormed) {path : Path}
    {id : Nat} (known : graph.idOfPath? path = some id) :
    ∃ other ∈ graph.outline.map (·.path), other.same path = true := by
  obtain ⟨record, found, same⟩ := wellFormed.idOfPath?_eq_some_iff.mp known
  refine ⟨record.path, List.mem_map.mpr ⟨record.bare, ?_, rfl⟩, same⟩
  exact ModuleGraph.mem_outline (ModuleGraph.mem_of_get? found)

/-- A path that the graph does not know is not known to the exploration. -/
theorem unlike_of_idOfPath? {graph : ModuleGraph} (wellFormed : graph.WellFormed) {path : Path}
    (unknown : graph.idOfPath? path = none) :
    ∀ other ∈ graph.outline.map (·.path), other.same path = false := by
  intro other mem
  rw [ModuleGraph.map_outline graph (·.path) fun _ => rfl] at mem
  obtain ⟨record, listed, rfl⟩ := List.mem_map.mp mem
  exact wellFormed.idOfPath?_eq_none_iff.mp unknown record listed

/-- At every stage an exploration has come as far as the build. -/
theorem explored (run : Run tree compiler resolver entry stage) :
    Explored tree compiler resolver entry stage.frontier := by
  induction run with
  | @start path after source compiled found loads =>
    have foundFirst : (resolver.resolveEntry tree entry).1 = .ok path := by rw [found]
    refine ⟨_, .opened foundFirst loads, ?_⟩
    show Relation.ReflTransGen _ _ (Frontier.mk [path] (importsOf path compiled.specifiers ++ []))
    rw [List.append_nil]
  | @take builder id next importer history worklist record run queued registered ih =>
    -- only the division of what is pending changes: the imports of the next module come first
    obtain rfl : next = id + 1 := run.next_eq queued
    have placed := ModuleGraph.outline_of_get? registered
    obtain ⟨inRange, isRecord⟩ := List.getElem?_eq_some_iff.mp placed
    have split : builder.graph.outline.drop (id + 1) =
        record.bare :: builder.graph.outline.drop (id + 1 + 1) := by
      rw [List.drop_eq_getElem_cons inRange, isRecord]
    rw [Stage.frontier, split] at ih
    exact ih
  | @known builder id target importer path specifier todo history after run found known ih =>
    obtain ⟨start, opening, steps⟩ := ih
    refine ⟨start, opening, steps.tail ?_⟩
    obtain ⟨other, mem, same⟩ := known_of_idOfPath? run.wellFormed known
    rw [Stage.frontier, Stage.frontier, ModuleGraph.outline_addMapping]
    exact .again (run.answer_eq found) mem same
  | @new builder id importer path specifier source todo history after compiled run found unknown
      loads ih =>
    obtain ⟨start, opening, steps⟩ := ih
    refine ⟨start, opening, steps.tail ?_⟩
    -- the new module stands behind those that have not been expanded yet
    have inRange : id + 1 ≤ builder.graph.outline.length := run.id_lt_length_outline
    rw [Stage.frontier, Stage.frontier, ModuleGraph.outline_addMapping, ModuleGraph.outline_push]
    dsimp only
    rw [List.map_append, List.drop_append_of_le_length inRange, List.flatMap_append,
      ← List.append_assoc, List.flatMap_singleton]
    exact .first (run.answer_eq found) (unlike_of_idOfPath? run.wellFormed unknown) loads

end Run

end ModuleBundler.Discovery

/-
# ModuleBundler.Proofs.Discovery.Outcome — what a build returns.

Resolving specifiers, expanding a module and draining the worklist all end in an `Outcome`: either
a stage of the build, or the failure that comes first in an exploration.  There are enough steps to
empty the worklist, because the modules have different paths, all of them among those that the
resolver can answer with.
-/
import Mathlib.Data.List.Perm.Subperm
import ModuleBundler.Proofs.Discovery.Run

namespace ModuleBundler.Discovery

/-! ## Finding a new module -/

/-- A new module gets the next identity and is queued. -/
theorem discover_of_loads {tree : FileTree} {compiler : Compiler} (builder : Builder) {path : Path}
    {source : String} {compiled : CompiledModule} (unknown : builder.graph.idOfPath? path = none)
    (loads : Loads tree compiler path source compiled) :
    discover tree compiler builder path =
      .ok (builder.graph.nextId, { builder with
        graph := builder.graph.push path source compiled
        worklist := builder.worklist ++ [builder.graph.nextId] }) := by
  have added : builder.graph.addModule path source compiled =
      (builder.graph.nextId, builder.graph.push path source compiled) := by
    rw [ModuleGraph.addModule, unknown]
  simp only [discover, bind, Except.bind, pure, Except.pure, loads.text, loads.accepted, added]

section

variable {tree : FileTree} {compiler : Compiler} {path : Path} {error : BuildError}

/-- A file that cannot be read is not compiled. -/
theorem discover_of_unread (builder : Builder) (unread : read tree path = .error error) :
    discover tree compiler builder path = .error error := by
  simp only [discover, bind, Except.bind, unread]

theorem discover_of_refused (builder : Builder) {source : String}
    (text : read tree path = .ok source) (refused : compiler path source = .error error) :
    discover tree compiler builder path = .error error := by
  simp only [discover, bind, Except.bind, text, refused]

end

/-- A new module is read and compiled, or one of both fails. -/
theorem discover_cases (tree : FileTree) (compiler : Compiler) (builder : Builder) (path : Path) :
    (∃ source compiled, Loads tree compiler path source compiled) ∨
      (∃ fault, read tree path = .error (.io path fault) ∧
        discover tree compiler builder path = .error (.io path fault)) ∨
      ∃ source error, read tree path = .ok source ∧ compiler path source = .error error ∧
        discover tree compiler builder path = .error error := by
  cases text : read tree path with
  | error error =>
    obtain ⟨fault, rfl⟩ := read_error text
    exact Or.inr (Or.inl ⟨fault, rfl, discover_of_unread builder text⟩)
  | ok source =>
    cases result : compiler path source with
    | error error =>
      exact Or.inr (Or.inr ⟨source, error, rfl, result, discover_of_refused builder text result⟩)
    | ok compiled => exact Or.inl ⟨source, compiled, text, result⟩

section

variable (tree : FileTree) (compiler : Compiler) (resolver : Resolver) (entry : Path)

/-! ## Outcomes -/

/-- Work on a build ends at a stage, or with the first failure; even then the graph and the worklist
are those of a stage. -/
def Outcome (final : Stage → Prop) : Except BuildError Unit × Builder → Prop
  | (.ok (), builder) =>
    ∃ stage, Run tree compiler resolver entry stage ∧ stage.builder = builder ∧ final stage
  | (.error error, builder) =>
    FirstFailure tree compiler resolver entry error ∧
      ∃ stage, Run tree compiler resolver entry stage ∧
        stage.builder.graph = builder.graph ∧ stage.builder.worklist = builder.worklist

end

variable {tree : FileTree} {compiler : Compiler} {resolver : Resolver} {entry : Path}

theorem Outcome.mono {final weaker : Stage → Prop} {result : Except BuildError Unit × Builder}
    (h : Outcome tree compiler resolver entry final result)
    (imp : ∀ stage, final stage → weaker stage) :
    Outcome tree compiler resolver entry weaker result := by
  obtain ⟨result, builder⟩ := result
  cases result with
  | ok value =>
    obtain ⟨stage, run, same, isFinal⟩ := h
    exact ⟨stage, run, same, imp stage isFinal⟩
  | error error => exact h

/-- Whatever comes out, the graph and the worklist are those of a stage. -/
theorem Outcome.exists_stage {final : Stage → Prop} {result : Except BuildError Unit × Builder}
    (h : Outcome tree compiler resolver entry final result) :
    ∃ stage, Run tree compiler resolver entry stage ∧
      stage.builder.graph = result.2.graph ∧ stage.builder.worklist = result.2.worklist := by
  obtain ⟨result, builder⟩ := result
  cases result with
  | ok value =>
    obtain ⟨stage, run, rfl, -⟩ := h
    exact ⟨stage, run, rfl, rfl⟩
  | error error => exact h.2

/-- Resolving a specifier is one event. -/
theorem outcome_link {builder : Builder} {id : Nat} {importer : Path} {specifier : String}
    {todo : List String} {history : List Visit}
    (run : Run tree compiler resolver entry ⟨builder, id, importer, specifier :: todo, history⟩) :
    Outcome tree compiler resolver entry
      (fun stage => stage.id = id ∧ stage.importer = importer ∧ stage.todo = todo)
      (link tree compiler id importer builder specifier) := by
  have frontier := run.explored
  rw [link]
  cases resolved : builder.resolver.resolve tree specifier importer with
  | mk result after =>
    have answer := run.answer_eq resolved
    cases result with
    | error error =>
      obtain ⟨fault, rfl⟩ := Resolver.answer_error answer
      exact ⟨Or.inr ⟨_, frontier, .unresolved answer⟩, _, run, rfl, rfl⟩
    | ok path =>
      dsimp only
      rw [identify]
      cases known : builder.graph.idOfPath? path with
      | some target => exact ⟨_, .known run resolved known, rfl, rfl, rfl, rfl⟩
      | none =>
        -- the graph and the exploration agree that the path is new
        have new := Run.unlike_of_idOfPath? run.wellFormed known
        dsimp only
        rcases discover_cases tree compiler { builder with resolver := after } path with
          ⟨source, compiled, loads⟩ | ⟨fault, unread, failed⟩ |
            ⟨source, error, text, refused, failed⟩
        · rw [discover_of_loads { builder with resolver := after } known loads]
          exact ⟨_, .new run resolved known loads, rfl, rfl, rfl, rfl⟩
        · rw [failed]
          exact ⟨Or.inr ⟨_, frontier, .unread answer new unread⟩, _, run, rfl, rfl⟩
        · rw [failed]
          exact ⟨Or.inr ⟨_, frontier, .refused answer new text refused⟩, _, run, rfl, rfl⟩

/-- Resolving all specifiers that are left ends with none left. -/
theorem outcome_linkAll {builder : Builder} {id : Nat} {importer : Path} {todo : List String}
    {history : List Visit}
    (run : Run tree compiler resolver entry ⟨builder, id, importer, todo, history⟩) :
    Outcome tree compiler resolver entry (fun stage => stage.id = id ∧ stage.todo = [])
      (linkAll tree compiler id importer builder todo) := by
  -- the first failure ends the list, so the induction is on what is left
  induction todo generalizing builder history with
  | nil => exact ⟨_, run, rfl, rfl, rfl⟩
  | cons specifier todo ih =>
    have outcome := outcome_link run
    rw [linkAll]
    cases linked : link tree compiler id importer builder specifier with
    | mk result after =>
      rw [linked] at outcome
      cases result with
      | error error => exact outcome
      | ok value =>
        obtain ⟨⟨builder', id', importer', todo', history'⟩, run', same, rfl, rfl, rfl⟩ := outcome
        obtain rfl : builder' = after := same
        exact ih run'

/-- Expanding the module that has just been taken. -/
theorem outcome_expand {builder : Builder} {id : Nat} (record : ModuleRecord)
    {history : List Visit}
    (run : Run tree compiler resolver entry
      ⟨builder, id, record.path, record.specifiers, history⟩)
    (registered : builder.graph.get? id = some record) :
    Outcome tree compiler resolver entry (fun stage => stage.id = id ∧ stage.todo = [])
      (expand tree compiler builder id) := by
  rw [expand, registered]
  exact outcome_linkAll run

/-- Every identity that is queued has its module. -/
theorem Run.registered {stage : Stage} (run : Run tree compiler resolver entry stage) {id : Nat}
    (queued : id ∈ stage.builder.worklist) :
    ∃ record, stage.builder.graph.get? id = some record := by
  rw [run.worklist_eq, List.mem_range'_1] at queued
  have inRange : id < stage.builder.graph.modules.length := by
    have bound : id < stage.id + 1 + (stage.builder.graph.size - (stage.id + 1)) := queued.2
    have placed := run.id_lt_size
    rw [ModuleGraph.size] at bound placed
    omega
  exact ⟨stage.builder.graph.modules[id], List.getElem?_eq_getElem inRange⟩

/-- Draining ends with an empty worklist, or all its steps have been taken. -/
theorem outcome_drain (steps : Nat) {stage : Stage}
    (run : Run tree compiler resolver entry stage) (done : stage.todo = []) :
    Outcome tree compiler resolver entry
      (fun final => final.todo = [] ∧
        (final.builder.worklist = [] ∨ stage.id + steps ≤ final.id))
      (drain tree compiler steps stage.builder) := by
  -- every step takes the next identity, so the identity counts the steps
  induction steps generalizing stage with
  | zero => exact ⟨stage, run, rfl, done, Or.inr (Nat.le_refl _)⟩
  | succ steps ih =>
    obtain ⟨builder, id, importer, todo, history⟩ := stage
    obtain rfl : todo = [] := done
    rw [drain]
    cases queued : builder.worklist with
    | nil => exact ⟨_, run, rfl, rfl, Or.inl queued⟩
    | cons next worklist =>
      have isNext : next = id + 1 := run.next_eq queued
      have isQueued : next ∈ builder.worklist := by
        rw [queued]
        exact List.mem_cons_self
      obtain ⟨record, registered⟩ := run.registered isQueued
      have outcome := outcome_expand record (.take run queued registered) registered
      dsimp only
      cases expanded : expand tree compiler { builder with worklist := worklist } next with
      | mk result after =>
        rw [expanded] at outcome
        cases result with
        | error error => exact outcome
        | ok value =>
          obtain ⟨stage', run', rfl, sameId, done'⟩ := outcome
          refine (ih run' done').mono fun final h => ⟨h.1, h.2.imp_right fun bound => ?_⟩
          show id + (steps + 1) ≤ final.id
          omega

/-- Draining from the entry on. -/
theorem outcome_drain_start (steps : Nat) {path : Path} {after : Resolver} {source : String}
    {compiled : CompiledModule} (found : resolver.resolveEntry tree entry = (.ok path, after))
    (loads : Loads tree compiler path source compiled) :
    Outcome tree compiler resolver entry
      (fun final => final.todo = [] ∧ (final.builder.worklist = [] ∨ steps ≤ final.id))
      (drain tree compiler (steps + 1)
        ⟨after, ModuleGraph.empty.push path source compiled, [0]⟩) := by
  have registered : (ModuleGraph.empty.push path source compiled).get? 0 =
      some (.ofCompiled 0 path source compiled) := rfl
  have outcome : Outcome tree compiler resolver entry (fun stage => stage.id = 0 ∧ stage.todo = [])
      (expand tree compiler ⟨after, ModuleGraph.empty.push path source compiled, []⟩ 0) :=
    outcome_expand (.ofCompiled 0 path source compiled) (.start found loads) registered
  rw [drain]
  dsimp only
  cases expanded : expand tree compiler
      ⟨after, ModuleGraph.empty.push path source compiled, []⟩ 0 with
  | mk result builder =>
    rw [expanded] at outcome
    cases result with
    | error error => exact outcome
    | ok value =>
      obtain ⟨stage, run, rfl, isEntry, done⟩ := outcome
      refine (outcome_drain steps run done).mono fun final h => ⟨h.1, h.2.imp_right fun bound => ?_⟩
      omega

/-! ## Enough steps -/

theorem Reachable.mem_sources {path : Path} (h : Reachable tree compiler resolver entry path) :
    path ∈ resolver.sources tree := by
  cases h with
  | entry found => exact Resolver.answer_mem_sources found
  | imported _ _ _ found => exact Resolver.answer_mem_sources found

/-- There are no more modules than paths that the resolver can answer with. -/
theorem Run.size_le {stage : Stage} (run : Run tree compiler resolver entry stage) :
    stage.builder.graph.size ≤ tree.entries.length + resolver.found.length := by
  -- modules have different components, so the more different paths
  have distinct : (stage.builder.graph.modules.map (·.path)).Nodup := by
    refine List.Nodup.of_map Path.components ?_
    rw [List.map_map]
    exact run.wellFormed.distinct
  have sub : stage.builder.graph.modules.map (·.path) ⊆ resolver.sources tree := by
    intro path mem
    rw [← ModuleGraph.map_outline _ (·.path) fun _ => rfl] at mem
    exact (run.explored.sound.reached path mem).mem_sources
  have bound := (List.subperm_of_subset distinct sub).length_le
  rw [List.length_map, Resolver.length_sources] at bound
  exact bound

/-- A worklist that has been drained without a failure is empty: as many modules as steps would be
more than there are paths to find. -/
theorem exists_run_of_drain {path : Path} {after : Resolver} {source : String}
    {compiled : CompiledModule} (found : resolver.resolveEntry tree entry = (.ok path, after))
    (loads : Loads tree compiler path source compiled) {builder : Builder}
    (drained : drain tree compiler (stepsFor tree after)
      ⟨after, ModuleGraph.empty.push path source compiled, [0]⟩ = (.ok (), builder)) :
    ∃ stage, Run tree compiler resolver entry stage ∧ stage.builder = builder ∧ stage.todo = [] ∧
      stage.builder.worklist = [] := by
  have outcome := outcome_drain_start (tree.entries.length + after.found.length) found loads
  rw [← stepsFor, drained] at outcome
  obtain ⟨stage, run, same, done, exhausted⟩ := outcome
  have size := run.size_le
  have placed := run.id_lt_size
  have more := Resolver.length_found_resolveFrom_le tree resolver tree.workingPath entry.text none
  rw [← Resolver.resolveEntry, found] at more
  refine ⟨stage, run, same, done, ?_⟩
  rcases exhausted with empty | bound
  · exact empty
  · dsimp only at more
    omega

/-- However the entry was discovered, draining without a failure leaves nothing queued. -/
theorem worklist_eq_nil_of_drain {path : Path} {after : Resolver} {id : Nat} {builder : Builder}
    (found : resolver.resolveEntry tree entry = (.ok path, after))
    (discovered : discover tree compiler (.start after) path = .ok (id, builder))
    (drained : (drain tree compiler (stepsFor tree after) builder).1 = .ok ()) :
    (drain tree compiler (stepsFor tree after) builder).2.worklist = [] := by
  rcases discover_cases tree compiler (.start after) path with
    ⟨source, compiled, loads⟩ | ⟨fault, -, failed⟩ | ⟨source, error, -, -, failed⟩
  · rw [discover_of_loads (.start after) rfl loads] at discovered
    obtain ⟨rfl, rfl⟩ := Prod.mk.inj (Except.ok.inj discovered)
    obtain ⟨stage, -, same, -, empty⟩ := exists_run_of_drain found loads (Prod.ext drained rfl)
    exact (congrArg Builder.worklist same).symm.trans empty
  · exact absurd (discovered.symm.trans failed) (by simp)
  · exact absurd (discovered.symm.trans failed) (by simp)

/-! ## Builds -/

/-- What a build returns: the graph of a stage with nothing left to do, or the first failure. -/
theorem build_cases (tree : FileTree) (compiler : Compiler) (resolver : Resolver) (entry : Path) :
    (∃ stage, Run tree compiler resolver entry stage ∧ stage.todo = [] ∧
        stage.id + 1 = stage.builder.graph.size ∧
        (build tree compiler resolver entry).1 = .ok stage.builder.graph) ∨
      ∃ error, FirstFailure tree compiler resolver entry error ∧
        (build tree compiler resolver entry).1 = .error error := by
  rw [build]
  cases resolved : resolver.resolveEntry tree entry with
  | mk result after =>
    have answer : (resolver.resolveEntry tree entry).1 = result := by rw [resolved]
    cases result with
    | error error =>
      obtain ⟨fault, rfl⟩ := Resolver.answer_error answer
      exact Or.inr ⟨_, Or.inl (.unresolved answer), rfl⟩
    | ok path =>
      dsimp only
      rcases discover_cases tree compiler (.start after) path with
        ⟨source, compiled, loads⟩ | ⟨fault, unread, failed⟩ |
          ⟨source, error, text, refused, failed⟩
      · have started : discover tree compiler (.start after) path =
            .ok (0, ⟨after, ModuleGraph.empty.push path source compiled, [0]⟩) :=
          discover_of_loads (.start after) rfl loads
        rw [started]
        dsimp only
        cases drained : drain tree compiler (stepsFor tree after)
            ⟨after, ModuleGraph.empty.push path source compiled, [0]⟩ with
        | mk result builder =>
          cases result with
          | error error =>
            have outcome := outcome_drain_start (tree.entries.length + after.found.length)
              resolved loads
            rw [← stepsFor, drained] at outcome
            exact Or.inr ⟨error, outcome.1, rfl⟩
          | ok value =>
            obtain ⟨stage, run, rfl, done, empty⟩ := exists_run_of_drain resolved loads drained
            have placed := run.id_lt_size
            refine Or.inl ⟨stage, run, done, ?_, rfl⟩
            -- nothing is queued behind the last module that was expanded
            rw [run.worklist_eq, List.range'_eq_nil_iff] at empty
            omega
      · rw [failed]
        exact Or.inr ⟨_, Or.inl (.unread answer unread), rfl⟩
      · rw [failed]
        exact Or.inr ⟨_, Or.inl (.refused answer text refused), rfl⟩

/-- The stage that a successful build ends at. -/
theorem exists_run_of_build {graph : ModuleGraph}
    (built : (build tree compiler resolver entry).1 = .ok graph) :
    ∃ stage, Run tree compiler resolver entry stage ∧ stage.todo = [] ∧
      stage.id + 1 = graph.size ∧ stage.builder.graph = graph := by
  rcases build_cases tree compiler resolver entry with
    ⟨stage, run, done, last, result⟩ | ⟨error, -, result⟩
  · obtain rfl := Except.ok.inj (result.symm.trans built)
    exact ⟨stage, run, done, last, rfl⟩
  · exact absurd (result.symm.trans built) nofun

/-- Two modules that import each other, one of them also through a link. -/
def circle : FileTree :=
  ⟨[(["a.js"], .file "dep ./b".toUTF8), (["again.js"], .link "a.js"),
    (["b.js"], .file "dep ./again\ndep ./a\ndep ./again".toUTF8)], []⟩

/-- Circles do not keep a build from ending. -/
theorem exists_build_circle :
    ∃ graph, (build circle Compiler.listing (.new .standard) ⟨"a"⟩).1 = .ok graph := by
  have built : (build circle Compiler.listing (.new .standard) ⟨"a"⟩).1.isOk = true := by
    decide
  cases result : (build circle Compiler.listing (.new .standard) ⟨"a"⟩).1 with
  | ok graph => exact ⟨graph, rfl⟩
  | error error =>
    rw [result] at built
    exact absurd built nofun

end ModuleBundler.Discovery

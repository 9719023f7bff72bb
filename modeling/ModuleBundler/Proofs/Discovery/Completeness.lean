/-
# ModuleBundler.Proofs.Discovery.Completeness — a build finds what is reachable, or fails first.

A build that succeeds holds the reachable modules, each once (`build_records`).  It succeeds exactly
if everything that is reachable is accepted, and otherwise its error is that of the first event that
fails (`build_succeeds_iff`).
-/
import ModuleBundler.Proofs.Discovery.Outcome

namespace ModuleBundler.Discovery

variable {tree : FileTree} {compiler : Compiler} {resolver : Resolver} {entry : Path}

/-- An exploration ends where a successful build ends, with nothing pending. -/
theorem explored_of_build {graph : ModuleGraph}
    (built : (build tree compiler resolver entry).1 = .ok graph) :
    Explored tree compiler resolver entry ⟨graph.modules.map (·.path), []⟩ := by
  obtain ⟨stage, run, done, last, rfl⟩ := exists_run_of_build built
  have explored := run.explored
  have nothingLeft : stage.builder.graph.outline.drop (stage.id + 1) = [] := by
    rw [last, ← ModuleGraph.length_outline]
    exact List.drop_length
  rw [Stage.frontier, done, nothingLeft] at explored
  rw [← ModuleGraph.map_outline _ (·.path) fun _ => rfl]
  exact explored

/-- What a module carries is what its path was compiled to. -/
theorem loads_of_build {graph : ModuleGraph}
    (built : (build tree compiler resolver entry).1 = .ok graph) {record : ModuleRecord}
    (mem : record ∈ graph.modules) :
    ∃ source compiled, Loads tree compiler record.path source compiled ∧
      record.specifiers = compiled.specifiers ∧ record.code = compiled.code ∧
      record.contentHash = Digest.ofText source := by
  obtain ⟨stage, run, -, -, rfl⟩ := exists_run_of_build built
  obtain ⟨source, compiled, loads, same⟩ := run.loaded (ModuleGraph.mem_outline mem)
  refine ⟨source, compiled, loads, ?_, ?_, ?_⟩
  · exact congrArg ModuleRecord.specifiers same
  · exact congrArg ModuleRecord.code same
  · exact congrArg ModuleRecord.contentHash same

/-- The modules of a build that succeeds are those that are reachable. -/
theorem reachable_iff_of_build {policy : ExtensionPolicy} {graph : ModuleGraph}
    (built : (build tree compiler (.new policy) entry).1 = .ok graph) (path : Path) :
    Reachable tree compiler (.new policy) entry path ↔
      ∃ record ∈ graph.modules, record.path = path := by
  rw [← (explored_of_build built).mem_known_iff, List.mem_map]

/-- A successful build holds exactly the modules that are reachable from the entry, which comes
first.  No two have the same path in any spelling, the paths are canonical, and every module
carries what the compiler gives for the text of its file. -/
theorem build_records (tree : FileTree) (compiler : Compiler) (policy : ExtensionPolicy)
    (entry : Path) {graph : ModuleGraph}
    (built : (build tree compiler (.new policy) entry).1 = .ok graph) :
    (∀ path, Reachable tree compiler (.new policy) entry path ↔
      ∃ record ∈ graph.modules, record.path = path) ∧
    (graph.modules.map (·.path.components)).Nodup ∧
    (∃ record, graph.get? 0 = some record ∧
      ((Resolver.new policy).resolveEntry tree entry).1 = .ok record.path) ∧
    ∀ record ∈ graph.modules,
      tree.canonical? record.path = some record.path ∧
      ∃ source compiled, read tree record.path = .ok source ∧
        compiler record.path source = .ok compiled ∧
        record.specifiers = compiled.specifiers ∧ record.code = compiled.code ∧
        record.contentHash = Digest.ofText source := by
  have explored := explored_of_build built
  have mem_iff := reachable_iff_of_build built
  refine ⟨mem_iff, ?_, ?_, fun record mem => ⟨?_, ?_⟩⟩
  · obtain ⟨stage, run, -, -, rfl⟩ := exists_run_of_build built
    exact run.wellFormed.distinct
  · obtain ⟨path, isFirst, found⟩ := explored.sound.opened
    rw [List.head?_map, Option.map_eq_some_iff] at isFirst
    obtain ⟨record, isFirst, rfl⟩ := isFirst
    rw [List.head?_eq_getElem?] at isFirst
    exact ⟨record, isFirst, found⟩
  · exact ((mem_iff record.path).mpr ⟨record, mem, rfl⟩).isCanonicalFile.canonical?
  · obtain ⟨source, compiled, loads, same⟩ := loads_of_build built mem
    exact ⟨source, compiled, loads.text, loads.accepted, same⟩

/-- Two modules that import each other, one of them also through a link. -/
theorem build_records_circle :
    ∃ graph, (build circle Compiler.listing (.new .standard) ⟨"a"⟩).1 = .ok graph ∧
      (∀ path, Reachable circle Compiler.listing (.new .standard) ⟨"a"⟩ path ↔
        ∃ record ∈ graph.modules, record.path = path) ∧
      (graph.modules.map (·.path.components)).Nodup ∧
      (graph.modules.map fun record => (record.path.text, record.specifiers, record.code)) =
        [("/a.js", ["./b"], "dep ./b"),
          ("/b.js", ["./again", "./a", "./again"], "dep ./again\ndep ./a\ndep ./again")] ∧
      (∃ record, graph.get? 0 = some record ∧
        ((Resolver.new .standard).resolveEntry circle ⟨"a"⟩).1 = .ok record.path) ∧
      ∀ record ∈ graph.modules,
        circle.canonical? record.path = some record.path ∧
        ∃ source compiled, read circle record.path = .ok source ∧
          Compiler.listing record.path source = .ok compiled ∧
          record.specifiers = compiled.specifiers ∧ record.code = compiled.code ∧
          record.contentHash = Digest.ofText source := by
  have listed : (build circle Compiler.listing (.new .standard) ⟨"a"⟩).1.toOption.map
      (fun graph => graph.modules.map fun record =>
        (record.path.text, record.specifiers, record.code)) =
      some [("/a.js", ["./b"], "dep ./b"),
        ("/b.js", ["./again", "./a", "./again"], "dep ./again\ndep ./a\ndep ./again")] := by
    decide +kernel
  obtain ⟨graph, built⟩ := exists_build_circle
  obtain ⟨reached, distinct, first, each⟩ :=
    build_records circle Compiler.listing .standard ⟨"a"⟩ built
  rw [built] at listed
  exact ⟨graph, built, reached, distinct, Option.some.inj listed, first, each⟩

/-- A build succeeds exactly if the entry is found and everything that it leads to is accepted.
Otherwise its error is that of the first event that fails.  The events are the imports of the
modules in the order in which these are found, which is that of their identities, and the modules
are known by canonical paths. -/
theorem build_succeeds_iff (tree : FileTree) (compiler : Compiler) (policy : ExtensionPolicy)
    (entry : Path) :
    ((∃ graph, (build tree compiler (.new policy) entry).1 = .ok graph) ↔
      (∃ path, ((Resolver.new policy).resolveEntry tree entry).1 = .ok path) ∧
      ∀ path, Reachable tree compiler (.new policy) entry path →
        Accepted tree compiler (.new policy) path) ∧
    (∀ error, (build tree compiler (.new policy) entry).1 = .error error ↔
      FirstFailure tree compiler (.new policy) entry error) ∧
    (∀ graph, (build tree compiler (.new policy) entry).1 = .ok graph →
      Explored tree compiler (.new policy) entry ⟨graph.modules.map (·.path), []⟩) ∧
    ∀ frontier, Explored tree compiler (.new policy) entry frontier →
      ∀ path ∈ frontier.known, tree.canonical? path = some path := by
  refine ⟨⟨?_, ?_⟩, fun error => ⟨?_, ?_⟩, fun graph built => explored_of_build built, ?_⟩
  · rintro ⟨graph, built⟩
    have explored := explored_of_build built
    obtain ⟨path, -, found⟩ := explored.sound.opened
    refine ⟨⟨path, found⟩, fun path reached => ?_⟩
    exact explored.accepted (explored.mem_known_iff.mpr reached)
  · rintro ⟨found, accepted⟩
    rcases build_cases tree compiler (.new policy) entry with
      ⟨stage, -, -, -, built⟩ | ⟨error, failure, -⟩
    · exact ⟨stage.builder.graph, built⟩
    · obtain ⟨path, reached, notAccepted⟩ := failure.exists_not_accepted found
      exact absurd (accepted path reached) notAccepted
  · intro failed
    rcases build_cases tree compiler (.new policy) entry with
      ⟨stage, -, -, -, built⟩ | ⟨error', failure, result⟩
    · exact absurd (built.symm.trans failed) nofun
    · obtain rfl := Except.error.inj (result.symm.trans failed)
      exact failure
  · intro failure
    rcases build_cases tree compiler (.new policy) entry with
      ⟨stage, -, -, -, built⟩ | ⟨error', failure', result⟩
    · exact absurd failure (explored_of_build built).not_firstFailure
    · rw [failure.unique failure']
      exact result
  · intro frontier explored path mem
    exact (explored.sound.reached path mem).isCanonicalFile.canonical?

end ModuleBundler.Discovery

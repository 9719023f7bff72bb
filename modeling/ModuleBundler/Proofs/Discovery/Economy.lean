/-
# ModuleBundler.Proofs.Discovery.Economy — a build ends, and does nothing twice.

At every stage of a build the compiler has been called once for each module of the graph, each
identity has entered the worklist once, and the modules up to the one that is being dealt with have
been expanded (`Accounts`).  A build that fails adds one call of the compiler at most, for a path
that is new.  Since the loop ends when the worklist is empty, and the paths that can be found are
finitely many, every build comes to an end (`build_economical`).
-/
import ModuleBundler.Proofs.Discovery.Actions

namespace ModuleBundler.Discovery

/-- The actions that lead to a graph whose first modules have been expanded. -/
structure Accounts (graph : ModuleGraph) (turns : Nat) (actions : List Action) : Prop where
  compiled : compiledPaths actions = graph.outline.map (·.path)
  queued : queuedIds actions = List.range graph.size
  expanded : expandedIds actions = List.range turns

namespace Accounts

variable {graph : ModuleGraph} {turns : Nat} {actions : List Action}

/-- The module that comes first is compiled and queued. -/
theorem start (path : Path) (source : String) (compiled : CompiledModule) :
    Accounts (ModuleGraph.empty.push path source compiled) 0 [.compile path, .queue 0] :=
  ⟨rfl, rfl, rfl⟩

/-- Mappings take no action. -/
theorem addMapping (h : Accounts graph turns actions) (id : Nat) (specifier : String)
    (target : Nat) : Accounts (graph.addMapping id specifier target) turns actions := by
  refine ⟨?_, ?_, h.expanded⟩
  · rw [ModuleGraph.outline_addMapping]
    exact h.compiled
  · rw [ModuleGraph.size_addMapping]
    exact h.queued

/-- A new module is compiled and queued. -/
theorem push (h : Accounts graph turns actions) (wellFormed : graph.WellFormed) (path : Path)
    (source : String) (compiled : CompiledModule) :
    Accounts (graph.push path source compiled) turns
      (actions ++ [.compile path, .queue graph.nextId]) := by
  constructor
  · rw [compiledPaths_append, h.compiled, ModuleGraph.outline_push, List.map_append]
    rfl
  · rw [queuedIds_append, h.queued, ModuleGraph.size_push, List.range_succ, wellFormed.nextId]
    rfl
  · rw [expandedIds_append, h.expanded]
    exact List.append_nil _

/-- The next module is expanded. -/
theorem expand (h : Accounts graph turns actions) :
    Accounts graph (turns + 1) (actions ++ [.expand turns]) := by
  constructor
  · rw [compiledPaths_append, h.compiled]
    exact List.append_nil _
  · rw [queuedIds_append, h.queued]
    exact List.append_nil _
  · rw [expandedIds_append, h.expanded, List.range_succ]
    rfl

end Accounts

section

variable (tree : FileTree) (compiler : Compiler) (resolver : Resolver) (entry : Path)

/-- Actions of which none is taken twice: no path is compiled again in any spelling, identities
enter the worklist in order, and they are expanded in order, perhaps not all of them. -/
structure Economical (actions : List Action) (size turns : Nat) : Prop where
  distinct : ((compiledPaths actions).map Path.components).Nodup
  reached : ∀ path ∈ compiledPaths actions, Reachable tree compiler resolver entry path
  queued : queuedIds actions = List.range size
  expanded : expandedIds actions = List.range turns
  le : turns ≤ size

/-- Work on a build ends at a stage that all actions lead to, or it fails without having done
anything twice. -/
def LoggedOutcome (final : Stage → Prop) :
    (Except BuildError Unit × Builder) × List Action → Prop
  | ((.ok (), builder), actions) =>
    ∃ stage, Run tree compiler resolver entry stage ∧ stage.builder = builder ∧ final stage ∧
      Accounts stage.builder.graph (stage.id + 1) actions
  | ((.error _, _), actions) =>
    ∃ size turns, Economical tree compiler resolver entry actions size turns

end

variable {tree : FileTree} {compiler : Compiler} {resolver : Resolver} {entry : Path}

/-- The actions that lead to a stage are taken once. -/
theorem Run.economical {stage : Stage} (run : Run tree compiler resolver entry stage)
    {actions : List Action} (accounts : Accounts stage.builder.graph (stage.id + 1) actions) :
    Economical tree compiler resolver entry actions stage.builder.graph.size (stage.id + 1) := by
  refine ⟨?_, fun path mem => ?_, accounts.queued, accounts.expanded, run.id_lt_size⟩
  · rw [accounts.compiled, ModuleGraph.map_outline _ (·.path) fun _ => rfl, List.map_map]
    exact run.wellFormed.distinct
  · rw [accounts.compiled] at mem
    exact run.explored.sound.reached path mem

/-- A call of the compiler for a path that the graph does not know repeats no other. -/
theorem Economical.compile {actions : List Action} {size turns : Nat}
    (h : Economical tree compiler resolver entry actions size turns) {path : Path}
    (reached : Reachable tree compiler resolver entry path)
    (new : ∀ other ∈ compiledPaths actions, other.same path = false) :
    Economical tree compiler resolver entry (actions ++ [.compile path]) size turns := by
  have compiled : compiledPaths (actions ++ [.compile path]) = compiledPaths actions ++ [path] :=
    compiledPaths_append _ _
  exact
    { distinct := by
        rw [compiled, List.map_append]
        refine h.distinct.append (List.nodup_singleton _) (List.disjoint_singleton.mpr ?_)
        exact ModuleGraph.components_not_mem_map new
      reached := by
        rw [compiled]
        intro other mem
        rcases List.mem_append.mp mem with mem | mem
        · exact h.reached other mem
        · rw [List.mem_singleton.mp mem]
          exact reached
      queued := by
        rw [queuedIds_append, h.queued]
        exact List.append_nil _
      expanded := by
        rw [expandedIds_append, h.expanded]
        exact List.append_nil _
      le := h.le }

/-- What the specifier that is next in turn leads to is reachable. -/
theorem Run.reachable_next {builder : Builder} {id : Nat} {importer path : Path}
    {specifier : String} {todo : List String} {history : List Visit} {after : Resolver}
    (run : Run tree compiler resolver entry ⟨builder, id, importer, specifier :: todo, history⟩)
    (found : builder.resolver.resolve tree specifier importer = (.ok path, after)) :
    Reachable tree compiler resolver entry path := by
  have sound := run.explored.sound
  obtain ⟨mem, source, compiled, loads, listed⟩ :=
    sound.listed (importer, specifier) List.mem_cons_self
  exact .imported (sound.reached importer mem) loads listed (run.answer_eq found)

/-! ## Steps -/

/-- A new module that loads is compiled and queued. -/
theorem discoverLogged_of_loads (builder : Builder) {path : Path} {source : String}
    {compiled : CompiledModule} (unknown : builder.graph.idOfPath? path = none)
    (loads : Loads tree compiler path source compiled) :
    discoverLogged tree compiler builder path =
      (.ok (builder.graph.nextId, { builder with
        graph := builder.graph.push path source compiled
        worklist := builder.worklist ++ [builder.graph.nextId] }),
        [.compile path, .queue builder.graph.nextId]) := by
  have added : builder.graph.addModule path source compiled =
      (builder.graph.nextId, builder.graph.push path source compiled) := by
    rw [ModuleGraph.addModule, unknown]
  simp only [discoverLogged, loads.text, loads.accepted, added]

/-- A new module loads, or it is compiled once at most. -/
theorem discoverLogged_cases (tree : FileTree) (compiler : Compiler) (builder : Builder)
    (path : Path) :
    (∃ source compiled, Loads tree compiler path source compiled) ∨
      ∃ error actions, discoverLogged tree compiler builder path = (.error error, actions) ∧
        (actions = [] ∨ actions = [.compile path]) := by
  cases text : read tree path with
  | error error => exact Or.inr ⟨error, [], by simp only [discoverLogged, text], Or.inl rfl⟩
  | ok source =>
    cases result : compiler path source with
    | error error =>
      exact Or.inr ⟨error, _, by simp only [discoverLogged, text, result], Or.inr rfl⟩
    | ok compiled => exact Or.inl ⟨source, compiled, text, result⟩

/-- Resolving a specifier compiles and queues one module at most, which is new. -/
theorem loggedOutcome_link {builder : Builder} {id : Nat} {importer : Path} {specifier : String}
    {todo : List String} {history : List Visit} {before : List Action}
    (run : Run tree compiler resolver entry ⟨builder, id, importer, specifier :: todo, history⟩)
    (accounts : Accounts builder.graph (id + 1) before) :
    LoggedOutcome tree compiler resolver entry
      (fun stage => stage.id = id ∧ stage.importer = importer ∧ stage.todo = todo)
      ((linkLogged tree compiler id importer builder specifier).1,
        before ++ (linkLogged tree compiler id importer builder specifier).2) := by
  have economical : Economical tree compiler resolver entry before builder.graph.size (id + 1) :=
    run.economical accounts
  rw [linkLogged]
  cases resolved : builder.resolver.resolve tree specifier importer with
  | mk result after =>
    cases result with
    | error error =>
      dsimp only
      rw [List.append_nil]
      exact ⟨_, _, economical⟩
    | ok path =>
      dsimp only
      rw [identifyLogged]
      cases known : builder.graph.idOfPath? path with
      | some target =>
        dsimp only
        rw [List.append_nil]
        exact ⟨_, .known run resolved known, rfl, ⟨rfl, rfl, rfl⟩, accounts.addMapping _ _ _⟩
      | none =>
        dsimp only
        rcases discoverLogged_cases tree compiler { builder with resolver := after } path with
          ⟨source, compiled, loads⟩ | ⟨error, actions, failed, few⟩
        · rw [discoverLogged_of_loads { builder with resolver := after } known loads]
          exact ⟨_, .new run resolved known loads, rfl, ⟨rfl, rfl, rfl⟩,
            (accounts.push run.wellFormed path source compiled).addMapping _ _ _⟩
        · have new : ∀ other ∈ compiledPaths before, other.same path = false := by
            rw [accounts.compiled]
            exact Run.unlike_of_idOfPath? run.wellFormed known
          rw [failed]
          dsimp only
          rcases few with rfl | rfl
          · rw [List.append_nil]
            exact ⟨_, _, economical⟩
          · exact ⟨_, _, economical.compile (run.reachable_next resolved) new⟩

/-- Resolving the specifiers that are left compiles and queues the modules that are new. -/
theorem loggedOutcome_linkAll {builder : Builder} {id : Nat} {importer : Path}
    {todo : List String} {history : List Visit} {before : List Action}
    (run : Run tree compiler resolver entry ⟨builder, id, importer, todo, history⟩)
    (accounts : Accounts builder.graph (id + 1) before) :
    LoggedOutcome tree compiler resolver entry (fun stage => stage.id = id ∧ stage.todo = [])
      ((linkAllLogged tree compiler id importer builder todo).1,
        before ++ (linkAllLogged tree compiler id importer builder todo).2) := by
  induction todo generalizing builder history before with
  | nil =>
    rw [linkAllLogged, List.append_nil]
    exact ⟨_, run, rfl, ⟨rfl, rfl⟩, accounts⟩
  | cons specifier todo ih =>
    have outcome := loggedOutcome_link run accounts
    rw [linkAllLogged]
    cases linked : linkLogged tree compiler id importer builder specifier with
    | mk reached actions =>
      obtain ⟨result, after⟩ := reached
      rw [linked] at outcome
      cases result with
      | error error => exact outcome
      | ok value =>
        obtain ⟨⟨builder', id', importer', todo', history'⟩, run', same, ⟨rfl, rfl, rfl⟩,
          accounts'⟩ := outcome
        obtain rfl : builder' = after := same
        dsimp only
        rw [← List.append_assoc]
        exact ih run' accounts'

/-- Expanding the module that has just been taken from the worklist. -/
theorem loggedOutcome_expand {builder : Builder} {id : Nat} {record : ModuleRecord}
    {history : List Visit} {before : List Action}
    (run : Run tree compiler resolver entry
      ⟨builder, id, record.path, record.specifiers, history⟩)
    (registered : builder.graph.get? id = some record)
    (accounts : Accounts builder.graph id before) :
    LoggedOutcome tree compiler resolver entry (fun stage => stage.id = id ∧ stage.todo = [])
      ((expandLogged tree compiler builder id).1,
        before ++ (expandLogged tree compiler builder id).2) := by
  rw [expandLogged, registered]
  dsimp only
  rw [← List.singleton_append, ← List.append_assoc]
  exact loggedOutcome_linkAll run accounts.expand

/-- Draining the worklist expands the modules that are left, and all that are found on the way. -/
theorem Drains.loggedOutcome {builder : Builder} {actions : List Action}
    {result : Except BuildError Unit × Builder}
    (drains : Drains tree compiler builder actions result) {stage : Stage}
    (run : Run tree compiler resolver entry stage) (same : stage.builder = builder)
    (done : stage.todo = []) {before : List Action}
    (accounts : Accounts stage.builder.graph (stage.id + 1) before) :
    LoggedOutcome tree compiler resolver entry
      (fun final => final.todo = [] ∧ final.builder.worklist = []) (result, before ++ actions) := by
  -- on the loop; every turn takes the next identity, so the turns are counted by the identities
  induction drains generalizing stage before with
  | finished empty =>
    rw [List.append_nil]
    subst same
    exact ⟨stage, run, rfl, ⟨done, empty⟩, accounts⟩
  | @failed builder last id worklist error actions queued expanded =>
    subst same
    obtain ⟨builder, current, importer, todo, history⟩ := stage
    obtain rfl : todo = [] := done
    obtain rfl : id = current + 1 := run.next_eq queued
    obtain ⟨record, registered⟩ := run.registered (queued ▸ List.mem_cons_self)
    have outcome := loggedOutcome_expand (.take run queued registered) registered accounts
    rw [expanded] at outcome
    exact outcome
  | @step builder next id worklist actions others result queued expanded drains ih =>
    subst same
    obtain ⟨builder, current, importer, todo, history⟩ := stage
    obtain rfl : todo = [] := done
    obtain rfl : id = current + 1 := run.next_eq queued
    obtain ⟨record, registered⟩ := run.registered (queued ▸ List.mem_cons_self)
    have outcome := loggedOutcome_expand (.take run queued registered) registered accounts
    rw [expanded] at outcome
    obtain ⟨stage, run', same, ⟨-, done'⟩, accounts'⟩ := outcome
    rw [← List.append_assoc]
    exact ih run' same done' accounts'

/-- Draining the worklist from the entry on. -/
theorem Drains.loggedOutcome_start {path : Path} {after : Resolver} {source : String}
    {compiled : CompiledModule} {actions : List Action}
    {result : Except BuildError Unit × Builder}
    (drains : Drains tree compiler
      ⟨after, ModuleGraph.empty.push path source compiled, [0]⟩ actions result)
    (found : resolver.resolveEntry tree entry = (.ok path, after))
    (loads : Loads tree compiler path source compiled) :
    LoggedOutcome tree compiler resolver entry
      (fun final => final.todo = [] ∧ final.builder.worklist = [])
      (result, [.compile path, .queue 0] ++ actions) := by
  have registered : (ModuleGraph.empty.push path source compiled).get? 0 =
      some (.ofCompiled 0 path source compiled) := rfl
  have outcome : LoggedOutcome tree compiler resolver entry
      (fun stage => stage.id = 0 ∧ stage.todo = [])
      ((expandLogged tree compiler ⟨after, ModuleGraph.empty.push path source compiled, []⟩ 0).1,
        [.compile path, .queue 0] ++
          (expandLogged tree compiler
            ⟨after, ModuleGraph.empty.push path source compiled, []⟩ 0).2) :=
    loggedOutcome_expand (.start found loads) registered (.start path source compiled)
  cases drains with
  | finished empty => exact absurd empty (List.cons_ne_nil _ _)
  | failed queued expanded =>
    obtain ⟨rfl, rfl⟩ := List.cons.inj queued
    rw [expanded] at outcome
    exact outcome
  | step queued expanded drains =>
    obtain ⟨rfl, rfl⟩ := List.cons.inj queued
    rw [expanded] at outcome
    obtain ⟨stage, run, same, ⟨-, done⟩, accounts⟩ := outcome
    rw [← List.append_assoc]
    exact drains.loggedOutcome run same done accounts

/-! ## Builds -/

/-- Every build comes to an end. -/
theorem exists_builds (tree : FileTree) (compiler : Compiler) (resolver : Resolver)
    (entry : Path) :
    ∃ actions, Builds tree compiler resolver entry actions
      (build tree compiler resolver entry) := by
  rw [build]
  cases found : resolver.resolveEntry tree entry with
  | mk result after =>
    cases result with
    | error error => exact ⟨[], .unresolved found⟩
    | ok path =>
      dsimp only
      have erased := fst_discoverLogged tree compiler (.start after) path
      cases discovered : discoverLogged tree compiler (.start after) path with
      | mk identified actions =>
        rw [discovered] at erased
        rw [← erased]
        cases identified with
        | error error => exact ⟨actions, .refused found discovered⟩
        | ok started =>
          obtain ⟨id, builder⟩ := started
          -- the steps do not run out before the worklist is empty
          have ended := worklist_eq_nil_of_drain found erased.symm
          obtain ⟨others, drains⟩ := exists_drains_of_drain tree compiler _ builder ended
          dsimp only
          cases drained : drain tree compiler (stepsFor tree after) builder with
          | mk outcome last =>
            rw [drained] at drains
            refine ⟨actions ++ others, ?_⟩
            cases outcome with
            | error error => exact .drained found discovered drains
            | ok value => exact .drained found discovered drains

/-- What a build does, and what it returns. -/
theorem Builds.economical {actions : List Action} {result : Except BuildError ModuleGraph × Resolver}
    (builds : Builds tree compiler resolver entry actions result) :
    ∃ size turns, Economical tree compiler resolver entry actions size turns ∧
      ∀ graph, result.1 = .ok graph →
        compiledPaths actions = graph.modules.map (·.path) ∧ size = graph.size ∧
          turns = graph.size := by
  have nothing : Economical tree compiler resolver entry [] 0 0 :=
    ⟨List.nodup_nil, fun path mem => absurd mem List.not_mem_nil, rfl, rfl, Nat.le_refl 0⟩
  cases builds with
  | unresolved found => exact ⟨0, 0, nothing, fun graph built => absurd built nofun⟩
  | @refused path after error actions found refused =>
    have reached : Reachable tree compiler resolver entry path := .entry (by rw [found])
    have new : ∀ other ∈ compiledPaths [], other.same path = false :=
      fun other mem => absurd mem List.not_mem_nil
    refine ⟨0, 0, ?_, fun graph built => absurd built nofun⟩
    rcases discoverLogged_cases tree compiler (.start after) path with
      ⟨source, compiled, loads⟩ | ⟨fault, few, failed, isFew⟩
    · rw [discoverLogged_of_loads (.start after) rfl loads] at refused
      exact absurd (congrArg Prod.fst refused) nofun
    · obtain ⟨-, rfl⟩ := Prod.mk.inj (refused.symm.trans failed)
      rcases isFew with rfl | rfl
      · exact nothing
      · exact nothing.compile reached new
  | @drained path after id builder last result actions others found discovered drains =>
    rcases discoverLogged_cases tree compiler (.start after) path with
      ⟨source, compiled, loads⟩ | ⟨fault, few, failed, -⟩
    · rw [discoverLogged_of_loads (.start after) rfl loads] at discovered
      obtain ⟨isNew, rfl⟩ := Prod.mk.inj discovered.symm
      obtain ⟨rfl, rfl⟩ := Prod.mk.inj (Except.ok.inj isNew)
      have outcome := Drains.loggedOutcome_start drains found loads
      cases result with
      | error error =>
        obtain ⟨size, turns, economical⟩ := outcome
        exact ⟨size, turns, economical, fun graph built => absurd built nofun⟩
      | ok value =>
        obtain ⟨stage, run, rfl, ⟨-, empty⟩, accounts⟩ := outcome
        refine ⟨_, _, run.economical accounts, fun graph built => ?_⟩
        obtain rfl := Except.ok.inj built
        refine ⟨?_, rfl, ?_⟩
        · rw [← ModuleGraph.map_outline _ (·.path) fun _ => rfl]
          exact accounts.compiled
        · -- nothing is queued behind the last module that was expanded
          have placed := run.id_lt_size
          rw [run.worklist_eq, List.range'_eq_nil_iff] at empty
          show stage.id + 1 = stage.builder.graph.size
          omega
    · exact absurd (congrArg Prod.fst (discovered.symm.trans failed)) nofun

/-- Every build comes to an end.  However it ends, the compiler is called for canonical paths and for
none of them twice, every identity enters the worklist once and in order, and the identities are
expanded in order, none of them twice.  If it succeeds, the paths are those of the modules, and all
identities of the graph have been queued and expanded. -/
theorem build_economical (tree : FileTree) (compiler : Compiler) (policy : ExtensionPolicy)
    (entry : Path) :
    (∃ actions, Builds tree compiler (.new policy) entry actions
      (build tree compiler (.new policy) entry)) ∧
    ∀ actions result, Builds tree compiler (.new policy) entry actions result →
      (∀ path ∈ compiledPaths actions, tree.canonical? path = some path) ∧
      ((compiledPaths actions).map Path.components).Nodup ∧
      (∃ size turns, turns ≤ size ∧ queuedIds actions = List.range size ∧
        expandedIds actions = List.range turns) ∧
      ∀ graph, result.1 = .ok graph →
        compiledPaths actions = graph.modules.map (·.path) ∧
        queuedIds actions = List.range graph.size ∧ expandedIds actions = List.range graph.size := by
  refine ⟨exists_builds tree compiler (.new policy) entry, fun actions result builds => ?_⟩
  obtain ⟨size, turns, economical, succeeded⟩ := builds.economical
  refine ⟨fun path mem => ?_, economical.distinct,
    ⟨size, turns, economical.le, economical.queued, economical.expanded⟩, fun graph built => ?_⟩
  · exact (economical.reached path mem).isCanonicalFile.canonical?
  · obtain ⟨compiled, rfl, rfl⟩ := succeeded graph built
    exact ⟨compiled, economical.queued, economical.expanded⟩

/-- Two modules that import each other are compiled and expanded once each. -/
theorem build_economical_circle :
    ∃ actions graph,
      Builds circle Compiler.listing (.new .standard) ⟨"a"⟩ actions
        (build circle Compiler.listing (.new .standard) ⟨"a"⟩) ∧
      (build circle Compiler.listing (.new .standard) ⟨"a"⟩).1 = .ok graph ∧
      compiledPaths actions = graph.modules.map (·.path) ∧
      expandedIds actions = List.range graph.size := by
  obtain ⟨graph, built⟩ := exists_build_circle
  have economical := build_economical circle Compiler.listing .standard ⟨"a"⟩
  obtain ⟨actions, builds⟩ := economical.1
  obtain ⟨-, -, -, succeeded⟩ := economical.2 actions _ builds
  exact ⟨actions, graph, builds, built, (succeeded graph built).1, (succeeded graph built).2.2⟩

end ModuleBundler.Discovery

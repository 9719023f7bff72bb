/-
# ModuleBundler.Proofs.Discovery.Correspondence — two builds that go the same way.

Two builds of which the second finds the same files under other paths.  Where the questions of the
first are answered by corresponding answers in the second, the builds stay side by side: after every
step the graphs differ in their paths alone, and the same identities are queued (`Paired`).  So both
give graphs that correspond, or both fail (`build_corresponds`).

The correspondence is a parameter.  If paths stay as they are, it compares two builds of the same
files by resolvers that remember different things.
-/
import Mathlib.Data.List.Find
import ModuleBundler.Proofs.Discovery.Outcome

namespace ModuleBundler

/-- Two results that correspond: values that do, or errors that do. -/
inductive Alike {α β : Type} (values : α → β → Prop) (errors : BuildError → BuildError → Prop) :
    Except BuildError α → Except BuildError β → Prop
  | ok {a : α} {b : β} (h : values a b) : Alike values errors (.ok a) (.ok b)
  | error {error other : BuildError} (h : errors error other) :
      Alike values errors (.error error) (.error other)

section

variable {α β : Type} {values : α → β → Prop} {errors : BuildError → BuildError → Prop}
variable {result : Except BuildError α} {result' : Except BuildError β}

theorem Alike.exists_ok {a : α} (h : Alike values errors (.ok a) result') :
    ∃ b, result' = .ok b ∧ values a b := by
  cases h with
  | ok related => exact ⟨_, rfl, related⟩

theorem Alike.exists_error {error : BuildError} (h : Alike values errors (.error error) result') :
    ∃ other, result' = .error other ∧ errors error other := by
  cases h with
  | error related => exact ⟨_, rfl, related⟩

/-- Whether values correspond may depend on where they come from. -/
theorem Alike.imp {values' : α → β → Prop} (h : Alike values errors result result')
    (imp : ∀ a b, result = .ok a → result' = .ok b → values a b → values' a b) :
    Alike values' errors result result' := by
  cases h with
  | ok values => exact .ok (imp _ _ rfl rfl values)
  | error errors => exact .error errors

end

/-! ## Graphs with other paths -/

/-- A module under another path. -/
def ModuleRecord.moved (move : Path → Path) (record : ModuleRecord) : ModuleRecord :=
  { record with path := move record.path }

theorem ModuleRecord.moved_addMapping (move : Path → Path) (record : ModuleRecord)
    (specifier : String) (target : Nat) :
    (record.addMapping specifier target).moved move =
      (record.moved move).addMapping specifier target := by
  have same : (record.moved move).resolve? specifier = record.resolve? specifier := rfl
  rw [addMapping, addMapping, same]
  split
  · rfl
  · rfl

namespace ModuleGraph

/-- A graph whose modules stand under other paths. -/
def moved (move : Path → Path) (graph : ModuleGraph) : ModuleGraph :=
  { modules := graph.modules.map (ModuleRecord.moved move)
    identities := graph.identities.map fun entry => (move entry.1, entry.2)
    nextId := graph.nextId }

theorem moved_id (graph : ModuleGraph) : graph.moved id = graph := by
  have modules : graph.modules.map (ModuleRecord.moved id) = graph.modules := List.map_id _
  have identities : (graph.identities.map fun entry => (id entry.1, entry.2)) = graph.identities :=
    List.map_id _
  rw [moved, modules, identities]

theorem get?_moved (move : Path → Path) (graph : ModuleGraph) (id : Nat) :
    (graph.moved move).get? id = (graph.get? id).map (ModuleRecord.moved move) :=
  List.getElem?_map

theorem moved_push (move : Path → Path) (graph : ModuleGraph) (path : Path) (source : String)
    (compiled : CompiledModule) :
    (graph.push path source compiled).moved move =
      (graph.moved move).push (move path) source compiled := by
  simp [moved, push, ModuleRecord.moved, ModuleRecord.ofCompiled]

theorem moved_addMapping (move : Path → Path) (graph : ModuleGraph) (id : Nat) (specifier : String)
    (target : Nat) : (graph.addMapping id specifier target).moved move =
      (graph.moved move).addMapping id specifier target := by
  have modules : (graph.modules.modify id fun record => record.addMapping specifier target).map
      (ModuleRecord.moved move) =
        (graph.modules.map (ModuleRecord.moved move)).modify id fun record =>
          record.addMapping specifier target := by
    refine List.ext_getElem? fun place => ?_
    simp only [List.getElem?_map, List.getElem?_modify]
    split <;> cases graph.modules[place]? <;> simp [ModuleRecord.moved_addMapping]
  simp only [moved, addMapping, modules]

/-- Paths that are told apart as before are found as before. -/
theorem idOfPath?_moved {move : Path → Path} {graph : ModuleGraph} {path : Path}
    (same : ∀ entry ∈ graph.identities, (move entry.1).same (move path) = entry.1.same path) :
    (graph.moved move).idOfPath? (move path) = graph.idOfPath? path := by
  rw [idOfPath?, idOfPath?, moved, List.find?_map, Option.map_map]
  have tests : graph.identities.find? ((fun entry => entry.1.same (move path)) ∘
      fun entry => (move entry.1, entry.2)) =
        graph.identities.find? fun entry => entry.1.same path :=
    List.find?_congr same
  rw [tests]
  rfl

end ModuleGraph

namespace Discovery

/-- What is asked in one build has corresponding answers in another, in which every path stands
elsewhere.  Nothing is said but of paths that are known to come up, and of specifiers that modules
under these paths have. -/
structure Corresponds (tree tree' : FileTree) (compiler compiler' : Compiler)
    (resolver resolver' : Resolver) (move : Path → Path) (known : Path → Prop)
    (errors : BuildError → BuildError → Prop) : Prop where
  same : ∀ path other, known path → known other → (move path).same (move other) = path.same other
  reads : ∀ path, known path →
    Alike (fun text text' => text' = text) errors (read tree path) (read tree' (move path))
  compiles : ∀ path source, known path →
    Alike (fun compiled compiled' => compiled' = compiled) errors (compiler path source)
      (compiler' (move path) source)
  resolves : ∀ path source compiled specifier, known path →
    Loads tree compiler path source compiled → specifier ∈ compiled.specifiers →
      Alike (fun found found' => known found ∧ found' = move found) errors
        (resolver.resolve tree specifier path).1 (resolver'.resolve tree' specifier (move path)).1

variable {tree tree' : FileTree} {compiler compiler' : Compiler} {resolver resolver' : Resolver}
variable {move : Path → Path} {known : Path → Prop} {errors : BuildError → BuildError → Prop}

/-- Two builds stand side by side. -/
structure Corresponds.Paired
    (_ : Corresponds tree tree' compiler compiler' resolver resolver' move known errors)
    (builder builder' : Builder) : Prop where
  graph : builder'.graph = builder.graph.moved move
  worklist : builder'.worklist = builder.worklist
  /-- what the resolvers remember changes none of their answers -/
  agrees : Resolver.Agrees tree resolver builder.resolver
  agrees' : Resolver.Agrees tree' resolver' builder'.resolver
  wellFormed : builder.graph.WellFormed
  queued : ∀ id ∈ builder.worklist, id < builder.graph.size
  paths : ∀ entry ∈ builder.graph.identities, known entry.1
  loaded : ∀ record ∈ builder.graph.modules, known record.path ∧
    ∃ source compiled, Loads tree compiler record.path source compiled ∧
      record.specifiers = compiled.specifiers

namespace Corresponds.Paired

variable {c : Corresponds tree tree' compiler compiler' resolver resolver' move known errors}
variable {builder builder' : Builder}

/-- Builds stay side by side when both get a module. -/
theorem push (paired : c.Paired builder builder') {path : Path} {source : String}
    {compiled : CompiledModule} (isKnown : known path)
    (isNew : builder.graph.idOfPath? path = none)
    (loads : Loads tree compiler path source compiled) :
    builder'.graph.nextId = builder.graph.nextId ∧
      c.Paired
        { builder with
          graph := builder.graph.push path source compiled
          worklist := builder.worklist ++ [builder.graph.nextId] }
        { builder' with
          graph := builder'.graph.push (move path) source compiled
          worklist := builder'.worklist ++ [builder'.graph.nextId] } := by
  have nextId : builder'.graph.nextId = builder.graph.nextId := by
    rw [paired.graph]
    rfl
  refine ⟨nextId, ?_⟩
  exact
    { graph := by
        show builder'.graph.push _ _ _ = (builder.graph.push _ _ _).moved move
        rw [ModuleGraph.moved_push, paired.graph]
      worklist := by
        show builder'.worklist ++ _ = builder.worklist ++ _
        rw [paired.worklist, nextId]
      agrees := paired.agrees
      agrees' := paired.agrees'
      wellFormed := paired.wellFormed.push isNew source compiled
      queued := by
        intro id mem
        dsimp only
        rw [ModuleGraph.size_push]
        rcases List.mem_append.mp mem with mem | mem
        · exact Nat.lt_succ_of_lt (paired.queued id mem)
        · rw [List.mem_singleton.mp mem, paired.wellFormed.nextId]
          exact Nat.lt_succ_self _
      paths := by
        intro entry mem
        rcases List.mem_append.mp mem with mem | mem
        · exact paired.paths entry mem
        · rw [List.mem_singleton.mp mem]
          exact isKnown
      loaded := by
        intro record mem
        rcases List.mem_append.mp mem with mem | mem
        · exact paired.loaded record mem
        · rw [List.mem_singleton.mp mem]
          exact ⟨isKnown, source, compiled, loads, rfl⟩ }

/-- What resolvers remember of an answer keeps builds side by side. -/
theorem remember (paired : c.Paired builder builder') {importer importer' : Path}
    {specifier : String} {result result' : Except BuildError Path} {after after' : Resolver}
    (asked : builder.resolver.resolve tree specifier importer = (result, after))
    (asked' : builder'.resolver.resolve tree' specifier importer' = (result', after')) :
    c.Paired { builder with resolver := after } { builder' with resolver := after' } where
  graph := paired.graph
  worklist := paired.worklist
  agrees := paired.agrees.of_resolve asked
  agrees' := paired.agrees'.of_resolve asked'
  wellFormed := paired.wellFormed
  queued := paired.queued
  paths := paired.paths
  loaded := paired.loaded

/-- So does a mapping that is recorded in both. -/
theorem addMapping (paired : c.Paired builder builder') (id : Nat) (specifier : String)
    (target : Nat) :
    c.Paired { builder with graph := builder.graph.addMapping id specifier target }
      { builder' with graph := builder'.graph.addMapping id specifier target } where
  graph := by
    show builder'.graph.addMapping _ _ _ = (builder.graph.addMapping _ _ _).moved move
    rw [ModuleGraph.moved_addMapping, paired.graph]
  worklist := paired.worklist
  agrees := paired.agrees
  agrees' := paired.agrees'
  wellFormed := paired.wellFormed.addMapping _ _ _
  queued := by
    intro id mem
    dsimp only
    rw [ModuleGraph.size_addMapping]
    exact paired.queued id mem
  paths := paired.paths
  loaded := by
    -- apart from its mapping the module is one that was there before
    intro record mem
    have bare := ModuleGraph.mem_outline mem
    rw [ModuleGraph.outline_addMapping] at bare
    obtain ⟨before, listed, same⟩ := List.mem_map.mp bare
    have isLoaded := paired.loaded before listed
    have path : before.bare.path = record.bare.path := congrArg _ same
    have specifiers : before.bare.specifiers = record.bare.specifiers := congrArg _ same
    rw [ModuleRecord.bare, ModuleRecord.bare] at path specifiers
    rwa [path, specifiers] at isLoaded

end Corresponds.Paired

section

variable (c : Corresponds tree tree' compiler compiler' resolver resolver' move known errors)
variable {builder builder' : Builder}

include c

theorem idOfPath?_eq (paired : c.Paired builder builder')
    {path : Path} (isKnown : known path) :
    builder'.graph.idOfPath? (move path) = builder.graph.idOfPath? path := by
  rw [paired.graph]
  apply ModuleGraph.idOfPath?_moved
  intro entry mem
  exact c.same entry.1 path (paired.paths entry mem) isKnown

/-- A file that one build loads is loaded by the other. -/
theorem Corresponds.loads {path : Path} {source : String} {compiled : CompiledModule}
    (isKnown : known path) (loads : Loads tree compiler path source compiled) :
    Loads tree' compiler' (move path) source compiled := by
  have reads := c.reads path isKnown
  have compiles := c.compiles path source isKnown
  rw [loads.text] at reads
  rw [loads.accepted] at compiles
  obtain ⟨_, text, rfl⟩ := reads.exists_ok
  obtain ⟨_, accepted, rfl⟩ := compiles.exists_ok
  exact ⟨text, accepted⟩

/-- Finding a new module keeps builds side by side, or fails in both. -/
theorem paired_discover
    (paired : c.Paired builder builder')
    {path : Path} (isKnown : known path) (isNew : builder.graph.idOfPath? path = none) :
    Alike (fun made made' => made'.1 = made.1 ∧
        c.Paired made.2 made'.2) errors
      (discover tree compiler builder path) (discover tree' compiler' builder' (move path)) := by
  have isNew' : builder'.graph.idOfPath? (move path) = none := by
    rw [idOfPath?_eq c paired isKnown]
    exact isNew
  have reads := c.reads path isKnown
  rcases discover_cases tree compiler builder path with
    ⟨source, compiled, loads⟩ | ⟨fault, unread, failed⟩ | ⟨source, error, text, refused, failed⟩
  · rw [discover_of_loads builder isNew loads,
      discover_of_loads builder' isNew' (c.loads isKnown loads)]
    exact .ok (paired.push isKnown isNew loads)
  · rw [unread] at reads
    obtain ⟨other, unread', related⟩ := reads.exists_error
    rw [failed, discover_of_unread builder' unread']
    exact .error related
  · have compiles := c.compiles path source isKnown
    rw [text] at reads
    rw [refused] at compiles
    obtain ⟨_, text', rfl⟩ := reads.exists_ok
    obtain ⟨other, refused', related⟩ := compiles.exists_error
    rw [failed, discover_of_refused builder' text' refused']
    exact .error related

/-- The module under a path is known in both builds or new in both. -/
theorem paired_identify
    (paired : c.Paired builder builder')
    {path : Path} (isKnown : known path) :
    Alike (fun made made' => made'.1 = made.1 ∧
        c.Paired made.2 made'.2) errors
      (identify tree compiler builder path) (identify tree' compiler' builder' (move path)) := by
  rw [identify, identify, idOfPath?_eq c paired isKnown]
  cases found : builder.graph.idOfPath? path with
  | some id => exact .ok ⟨rfl, paired⟩
  | none => exact paired_discover c paired isKnown found

/-- A specifier is resolved alike, whatever the resolvers remember. -/
theorem paired_resolve (paired : c.Paired builder builder') {importer : Path}
    {source specifier : String} {compiled : CompiledModule} (isKnown : known importer)
    (loads : Loads tree compiler importer source compiled)
    (listed : specifier ∈ compiled.specifiers) :
    Alike (fun found found' => known found ∧ found' = move found) errors
      (builder.resolver.resolve tree specifier importer).1
      (builder'.resolver.resolve tree' specifier (move importer)).1 := by
  have resolves := c.resolves importer source compiled specifier isKnown loads listed
  have answer : (builder.resolver.resolve tree specifier importer).1 = _ := paired.agrees _ _ _
  have answer' : (builder'.resolver.resolve tree' specifier (move importer)).1 = _ :=
    paired.agrees' _ _ _
  rw [← Resolver.resolve] at answer answer'
  rwa [← answer, ← answer'] at resolves

/-- Resolving a specifier keeps builds side by side, or fails in both. -/
theorem paired_link
    (paired : c.Paired builder builder')
    (id : Nat) {importer : Path} {source specifier : String} {compiled : CompiledModule}
    (isKnown : known importer) (loads : Loads tree compiler importer source compiled)
    (listed : specifier ∈ compiled.specifiers) :
    Alike (fun _ _ => c.Paired (link tree compiler id importer builder specifier).2
        (link tree' compiler' id (move importer) builder' specifier).2) errors
      (link tree compiler id importer builder specifier).1
      (link tree' compiler' id (move importer) builder' specifier).1 := by
  have resolves := paired_resolve c paired isKnown loads listed
  rw [link, link]
  cases asked : builder.resolver.resolve tree specifier importer with
  | mk result after =>
    cases asked' : builder'.resolver.resolve tree' specifier (move importer) with
    | mk result' after' =>
      have later := paired.remember asked asked'
      rw [asked, asked'] at resolves
      cases resolves with
      | error related => exact .error related
      | @ok path _ found =>
        obtain ⟨isKnown', rfl⟩ := found
        have identified := paired_identify c later isKnown'
        dsimp only at identified ⊢
        generalize identify tree compiler _ path = made at identified ⊢
        generalize identify tree' compiler' _ (move path) = made' at identified ⊢
        cases identified with
        | error related => exact .error related
        | @ok made made' both =>
          obtain ⟨target, next⟩ := made
          obtain ⟨target', next'⟩ := made'
          obtain ⟨sameTarget, both⟩ := both
          obtain rfl : target' = target := sameTarget
          exact .ok (both.addMapping id specifier _)

/-- So does resolving all specifiers of a module. -/
theorem paired_linkAll
    (paired : c.Paired builder builder')
    (id : Nat) {importer : Path} {source : String} {compiled : CompiledModule}
    (isKnown : known importer) (loads : Loads tree compiler importer source compiled)
    {specifiers : List String} (listed : specifiers ⊆ compiled.specifiers) :
    Alike (fun _ _ => c.Paired (linkAll tree compiler id importer builder specifiers).2
        (linkAll tree' compiler' id (move importer) builder' specifiers).2) errors
      (linkAll tree compiler id importer builder specifiers).1
      (linkAll tree' compiler' id (move importer) builder' specifiers).1 := by
  induction specifiers generalizing builder builder' with
  | nil => exact .ok paired
  | cons specifier specifiers ih =>
    have first := paired_link c paired id isKnown loads (listed List.mem_cons_self)
    rw [linkAll, linkAll]
    cases linked : link tree compiler id importer builder specifier with
    | mk result next =>
      cases linked' : link tree' compiler' id (move importer) builder' specifier with
      | mk result' next' =>
        rw [linked, linked'] at first
        cases first with
        | error related => exact .error related
        | ok later => exact ih later (List.subset_of_cons_subset listed)

/-- So does expanding a module. -/
theorem paired_expand
    (paired : c.Paired builder builder')
    {id : Nat} (inside : id < builder.graph.size) :
    Alike (fun _ _ => c.Paired (expand tree compiler builder id).2
        (expand tree' compiler' builder' id).2) errors
      (expand tree compiler builder id).1 (expand tree' compiler' builder' id).1 := by
  obtain ⟨record, found⟩ : ∃ record, builder.graph.get? id = some record :=
    ⟨_, List.getElem?_eq_getElem inside⟩
  have found' : builder'.graph.get? id = some (record.moved move) := by
    rw [paired.graph, ModuleGraph.get?_moved, found]
    rfl
  obtain ⟨isKnown, source, compiled, loads, specifiers⟩ :=
    paired.loaded record (ModuleGraph.mem_of_get? found)
  have linked := paired_linkAll c paired id isKnown loads (List.Subset.refl _)
  rw [← specifiers] at linked
  rw [expand, expand, found, found']
  exact linked

/-- So does draining the worklist, step by step. -/
theorem paired_drain (paired : c.Paired builder builder') (steps : Nat) :
    Alike (fun _ _ => c.Paired (drain tree compiler steps builder).2
        (drain tree' compiler' steps builder').2) errors
      (drain tree compiler steps builder).1 (drain tree' compiler' steps builder').1 := by
  induction steps generalizing builder builder' with
  | zero => exact .ok paired
  | succ steps ih =>
    rw [drain, drain, paired.worklist]
    cases queued : builder.worklist with
    | nil => exact .ok paired
    | cons id worklist =>
      have inside : id < builder.graph.size := paired.queued id (by simp [queued])
      have later : c.Paired { builder with worklist := worklist }
          { builder' with worklist := worklist } :=
        ⟨paired.graph, rfl, paired.agrees, paired.agrees', paired.wellFormed,
          fun id mem => paired.queued id (by simp [queued, mem]), paired.paths, paired.loaded⟩
      have first := paired_expand c later inside
      dsimp only
      cases expanded : expand tree compiler { builder with worklist := worklist } id with
      | mk result next =>
        cases expanded' : expand tree' compiler' { builder' with worklist := worklist } id with
        | mk result' next' =>
          rw [expanded, expanded'] at first
          cases first with
          | error related => exact .error related
          | ok both => exact ih both

omit c in
/-- Steps beyond the end of a loop change nothing. -/
theorem drain_add {steps : Nat} (more : Nat) {builder : Builder}
    (ended : (drain tree compiler steps builder).1 = .ok () →
      (drain tree compiler steps builder).2.worklist = []) :
    drain tree compiler (steps + more) builder = drain tree compiler steps builder := by
  induction steps generalizing builder with
  | zero =>
    have empty : builder.worklist = [] := ended rfl
    cases more with
    | zero => rfl
    | succ more => rw [Nat.zero_add, drain, drain, empty]
  | succ steps ih =>
    rw [Nat.succ_add, drain, drain]
    rw [drain] at ended
    cases queued : builder.worklist with
    | nil => rfl
    | cons id worklist =>
      rw [queued] at ended
      dsimp only at ended ⊢
      cases expanded : expand tree compiler { builder with worklist := worklist } id with
      | mk result next =>
        rw [expanded] at ended
        cases result with
        | error error => rfl
        | ok value => exact ih ended

/-- Two loops with bounds of their own go the same way if neither uses up its bound. -/
theorem paired_drains (paired : c.Paired builder builder') {steps steps' : Nat}
    (ended : (drain tree compiler steps builder).1 = .ok () →
      (drain tree compiler steps builder).2.worklist = [])
    (ended' : (drain tree' compiler' steps' builder').1 = .ok () →
      (drain tree' compiler' steps' builder').2.worklist = []) :
    Alike (fun _ _ => c.Paired (drain tree compiler steps builder).2
        (drain tree' compiler' steps' builder').2) errors
      (drain tree compiler steps builder).1 (drain tree' compiler' steps' builder').1 := by
  have drained := paired_drain c paired (steps + steps')
  rwa [drain_add _ ended, Nat.add_comm, drain_add _ ended'] at drained

/-- A build that has found its entry goes on alike. -/
theorem build_corresponds_of_entry {entry entry' path : Path} {after after' : Resolver}
    (asked : resolver.resolveEntry tree entry = (.ok path, after))
    (asked' : resolver'.resolveEntry tree' entry' = (.ok (move path), after'))
    (start : c.Paired (.start after) (.start after')) (isKnown : known path) :
    Alike (fun graph graph' => graph' = graph.moved move) errors
      (build tree compiler resolver entry).1 (build tree' compiler' resolver' entry').1 := by
  have first := paired_discover c start isKnown rfl
  rw [build, build, asked, asked']
  dsimp only
  cases discovered : discover tree compiler (.start after) path with
  | error error =>
    rw [discovered] at first
    obtain ⟨other, failed, related⟩ := first.exists_error
    rw [failed]
    exact .error related
  | ok made =>
    obtain ⟨id, builder⟩ := made
    rw [discovered] at first
    obtain ⟨⟨id', builder'⟩, discovered', -, both⟩ := first.exists_ok
    have drained := paired_drains c both (worklist_eq_nil_of_drain asked discovered)
      (worklist_eq_nil_of_drain asked' discovered')
    rw [discovered']
    dsimp only at drained ⊢
    cases left : drain tree compiler (stepsFor tree after) builder with
    | mk result last =>
      cases right : drain tree' compiler' (stepsFor tree' after') builder' with
      | mk result' last' =>
        rw [left, right] at drained
        cases drained with
        | error related => exact .error related
        | ok paired => exact .ok paired.graph

/-- Builds whose questions are answered alike, that of the entry included, give graphs that differ
in their paths alone, or both fail. -/
theorem build_corresponds {entry entry' : Path}
    (opens : Alike (fun found found' => known found ∧ found' = move found) errors
      (resolver.resolveEntry tree entry).1 (resolver'.resolveEntry tree' entry').1) :
    Alike (fun graph graph' => graph' = graph.moved move) errors
      (build tree compiler resolver entry).1 (build tree' compiler' resolver' entry').1 := by
  have agrees := Resolver.agrees_resolveFrom tree resolver tree.workingPath entry.text none
  have agrees' := Resolver.agrees_resolveFrom tree' resolver' tree'.workingPath entry'.text none
  rw [← Resolver.resolveEntry] at agrees agrees'
  cases asked : resolver.resolveEntry tree entry with
  | mk result after =>
    cases asked' : resolver'.resolveEntry tree' entry' with
    | mk result' after' =>
      rw [asked, asked'] at opens
      rw [asked] at agrees
      rw [asked'] at agrees'
      cases opens with
      | error related =>
        rw [build, build, asked, asked']
        exact .error related
      | ok found =>
        obtain ⟨isKnown, rfl⟩ := found
        refine build_corresponds_of_entry c asked asked' ?_ isKnown
        exact
          { graph := rfl
            worklist := rfl
            agrees := agrees
            agrees' := agrees'
            wellFormed := ModuleGraph.wellFormed_empty
            queued := by simp [Builder.start]
            paths := by simp [Builder.start, ModuleGraph.empty]
            loaded := by simp [Builder.start, ModuleGraph.empty] }

end

end Discovery

end ModuleBundler

/-
# ModuleBundler.Proofs.Discovery.Exploration — what a build has to find, and where it has to fail.

`Reachable` is the least set of paths that holds the entry and is closed under imports.  An
exploration goes through the imports of all modules in the order in which the modules were found,
one `Event` for each import; it knows no identities, no tables and no memory.  It is deterministic,
so that there is at most one `FirstFailure`; everything it knows is reachable, and when nothing is
pending it knows everything that is reachable.
-/
import Mathlib.Logic.Relation
import ModuleBundler.Discovery
import ModuleBundler.Proofs.Resolver.Memory

namespace ModuleBundler.Discovery

/-- A path holds a text that the compiler takes. -/
structure Loads (tree : FileTree) (compiler : Compiler) (path : Path) (source : String)
    (compiled : CompiledModule) : Prop where
  text : read tree path = .ok source
  accepted : compiler path source = .ok compiled

/-- A file can be read and compiled in one way at most. -/
theorem Loads.unique {tree : FileTree} {compiler : Compiler} {path : Path} {source other : String}
    {compiled compiled' : CompiledModule} (h : Loads tree compiler path source compiled)
    (h' : Loads tree compiler path other compiled') : source = other ∧ compiled = compiled' := by
  obtain rfl : source = other := Except.ok.inj (h.text.symm.trans h'.text)
  exact ⟨rfl, Except.ok.inj (h.accepted.symm.trans h'.accepted)⟩

theorem loads_iff {tree : FileTree} {compiler : Compiler} {path : Path} {source : String}
    {compiled : CompiledModule} : Loads tree compiler path source compiled ↔
      read tree path = .ok source ∧ compiler path source = .ok compiled :=
  ⟨fun h => ⟨h.text, h.accepted⟩, fun h => ⟨h.1, h.2⟩⟩

/-- Reading fails with an error of the file that is read. -/
theorem read_error {tree : FileTree} {path : Path} {error : BuildError}
    (h : read tree path = .error error) : ∃ fault, error = .io path fault := by
  rw [read] at h
  split at h
  · split at h
    · simp only [reduceCtorEq] at h
    · exact ⟨_, (Except.error.inj h).symm⟩
  · exact ⟨_, (Except.error.inj h).symm⟩
  · exact ⟨_, (Except.error.inj h).symm⟩

/-- The paths that an entry leads to: the entry itself, and with every module what its specifiers
resolve to. -/
inductive Reachable (tree : FileTree) (compiler : Compiler) (resolver : Resolver) (entry : Path) :
    Path → Prop
  | entry {path : Path} (found : (resolver.resolveEntry tree entry).1 = .ok path) :
      Reachable tree compiler resolver entry path
  | imported {importer path : Path} {source specifier : String} {compiled : CompiledModule}
      (reached : Reachable tree compiler resolver entry importer)
      (loads : Loads tree compiler importer source compiled)
      (listed : specifier ∈ compiled.specifiers)
      (found : (resolver.resolve tree specifier importer).1 = .ok path) :
      Reachable tree compiler resolver entry path

/-- How far an exploration has come. -/
structure Frontier where
  /-- the modules in the order in which they were found -/
  known : List Path
  /-- the imports that have not been looked at, each with the module that it stands in -/
  pending : List (Path × String)

/-- The imports of a module. -/
def importsOf (path : Path) (specifiers : List String) : List (Path × String) :=
  specifiers.map fun specifier => (path, specifier)

/-- What comes of an entry. -/
inductive Opening (tree : FileTree) (compiler : Compiler) (resolver : Resolver) (entry : Path) :
    Except BuildError Frontier → Prop
  | unresolved {fault : ResolutionFault}
      (unfound : (resolver.resolveEntry tree entry).1 =
        .error (.resolution entry.text none fault)) :
      Opening tree compiler resolver entry (.error (.resolution entry.text none fault))
  | unread {path : Path} {fault : ReadFault}
      (found : (resolver.resolveEntry tree entry).1 = .ok path)
      (unread : read tree path = .error (.io path fault)) :
      Opening tree compiler resolver entry (.error (.io path fault))
  | refused {path : Path} {source : String} {error : BuildError}
      (found : (resolver.resolveEntry tree entry).1 = .ok path)
      (text : read tree path = .ok source) (refused : compiler path source = .error error) :
      Opening tree compiler resolver entry (.error error)
  | opened {path : Path} {source : String} {compiled : CompiledModule}
      (found : (resolver.resolveEntry tree entry).1 = .ok path)
      (loads : Loads tree compiler path source compiled) :
      Opening tree compiler resolver entry
        (.ok ⟨[path], importsOf path compiled.specifiers⟩)

/-- What comes of the first import that is pending. -/
inductive Event (tree : FileTree) (compiler : Compiler) (resolver : Resolver) :
    Frontier → Except BuildError Frontier → Prop
  | unresolved {known : List Path} {pending : List (Path × String)} {importer : Path}
      {specifier : String} {fault : ResolutionFault}
      (unfound : (resolver.resolve tree specifier importer).1 =
        .error (.resolution specifier (some importer) fault)) :
      Event tree compiler resolver ⟨known, (importer, specifier) :: pending⟩
        (.error (.resolution specifier (some importer) fault))
  | again {known : List Path} {pending : List (Path × String)} {importer path other : Path}
      {specifier : String} (found : (resolver.resolve tree specifier importer).1 = .ok path)
      (mem : other ∈ known) (same : other.same path = true) :
      Event tree compiler resolver ⟨known, (importer, specifier) :: pending⟩ (.ok ⟨known, pending⟩)
  | unread {known : List Path} {pending : List (Path × String)} {importer path : Path}
      {specifier : String} {fault : ReadFault}
      (found : (resolver.resolve tree specifier importer).1 = .ok path)
      (new : ∀ other ∈ known, other.same path = false)
      (unread : read tree path = .error (.io path fault)) :
      Event tree compiler resolver ⟨known, (importer, specifier) :: pending⟩
        (.error (.io path fault))
  | refused {known : List Path} {pending : List (Path × String)} {importer path : Path}
      {specifier source : String} {error : BuildError}
      (found : (resolver.resolve tree specifier importer).1 = .ok path)
      (new : ∀ other ∈ known, other.same path = false)
      (text : read tree path = .ok source) (refused : compiler path source = .error error) :
      Event tree compiler resolver ⟨known, (importer, specifier) :: pending⟩ (.error error)
  | first {known : List Path} {pending : List (Path × String)} {importer path : Path}
      {specifier source : String} {compiled : CompiledModule}
      (found : (resolver.resolve tree specifier importer).1 = .ok path)
      (new : ∀ other ∈ known, other.same path = false)
      (loads : Loads tree compiler path source compiled) :
      Event tree compiler resolver ⟨known, (importer, specifier) :: pending⟩
        (.ok ⟨known ++ [path], pending ++ importsOf path compiled.specifiers⟩)

section

variable (tree : FileTree) (compiler : Compiler) (resolver : Resolver) (entry : Path)

/-- An exploration of an entry comes this far. -/
def Explored (frontier : Frontier) : Prop :=
  ∃ start, Opening tree compiler resolver entry (.ok start) ∧
    Relation.ReflTransGen (fun before after => Event tree compiler resolver before (.ok after))
      start frontier

/-- The error of the first event that fails: resolving, reading or compiling the entry, or what the
imports of the known modules, taken in order, lead to. -/
def FirstFailure (error : BuildError) : Prop :=
  Opening tree compiler resolver entry (.error error) ∨
    ∃ frontier, Explored tree compiler resolver entry frontier ∧
      Event tree compiler resolver frontier (.error error)

/-- A path is a file of valid text that the compiler takes, and all its specifiers resolve. -/
def Accepted (path : Path) : Prop :=
  ∃ content source compiled,
    tree.find? path = some (.file content) ∧ String.fromUTF8? content = some source ∧
      compiler path source = .ok compiled ∧
      ∀ specifier ∈ compiled.specifiers, ∃ target,
        (resolver.resolve tree specifier path).1 = .ok target

end

section

variable {tree : FileTree} {compiler : Compiler} {resolver : Resolver} {entry : Path}

/-! ## Explorations are deterministic -/

/-- An entry comes out in one way at most. -/
theorem Opening.unique {result other : Except BuildError Frontier}
    (h : Opening tree compiler resolver entry result)
    (h' : Opening tree compiler resolver entry other) : result = other := by
  cases h with
  | unresolved unfound => cases h' <;> simp_all
  | unread found unread => cases h' <;> simp_all [loads_iff]
  | refused found text refused => cases h' <;> simp_all [loads_iff]
  | opened found loads => cases h' <;> simp_all [loads_iff]

/-- An import comes out in one way at most. -/
theorem Event.unique {frontier : Frontier} {result other : Except BuildError Frontier}
    (h : Event tree compiler resolver frontier result)
    (h' : Event tree compiler resolver frontier other) : result = other := by
  cases h with
  | unresolved unfound => cases h' <;> simp_all
  | again found mem same => cases h' <;> simp_all
  | unread found new unread => cases h' <;> simp_all [loads_iff]
  | refused found new text refused => cases h' <;> simp_all [loads_iff]
  | first found new loads => cases h' <;> simp_all [loads_iff]

/-- Of two explorations of an entry one goes on from the other. -/
theorem Explored.total {first second : Frontier}
    (h : Explored tree compiler resolver entry first)
    (h' : Explored tree compiler resolver entry second) :
    Relation.ReflTransGen (fun before after => Event tree compiler resolver before (.ok after))
        first second ∨
      Relation.ReflTransGen (fun before after => Event tree compiler resolver before (.ok after))
        second first := by
  obtain ⟨start, opening, steps⟩ := h
  obtain ⟨start', opening', steps'⟩ := h'
  obtain rfl := Except.ok.inj (opening.unique opening')
  refine Relation.ReflTransGen.total_of_right_unique ?_ steps steps'
  intro before after after' event event'
  exact Except.ok.inj (event.unique event')

/-- Two explorations that both end at the same entry without going on end alike. -/
theorem Explored.unique_of_stuck {first second : Frontier}
    (h : Explored tree compiler resolver entry first)
    (h' : Explored tree compiler resolver entry second)
    (stuck : ∀ after, ¬ Event tree compiler resolver first (.ok after))
    (stuck' : ∀ after, ¬ Event tree compiler resolver second (.ok after)) : first = second := by
  -- one goes on from the other, and it cannot have gone any further
  rcases h.total h' with steps | steps
  · rcases Relation.ReflTransGen.cases_head steps with same | ⟨after, event, -⟩
    · exact same
    · exact absurd event (stuck after)
  · rcases Relation.ReflTransGen.cases_head steps with same | ⟨after, event, -⟩
    · exact same.symm
    · exact absurd event (stuck' after)

/-- Where an event fails an exploration does not go on. -/
theorem Event.stuck {frontier : Frontier} {error : BuildError}
    (h : Event tree compiler resolver frontier (.error error)) (after : Frontier) :
    ¬ Event tree compiler resolver frontier (.ok after) := by
  intro event
  exact absurd (h.unique event) nofun

/-- An exploration with nothing pending does not go on. -/
theorem not_event_of_done {known : List Path} {result : Except BuildError Frontier} :
    ¬ Event tree compiler resolver ⟨known, []⟩ result := by
  intro event
  cases event

/-- There is only one failure that comes first. -/
theorem FirstFailure.unique {error other : BuildError}
    (h : FirstFailure tree compiler resolver entry error)
    (h' : FirstFailure tree compiler resolver entry other) : error = other := by
  rcases h with opening | ⟨frontier, explored, event⟩
  · rcases h' with opening' | ⟨frontier', ⟨start, opening', -⟩, -⟩
    · exact Except.error.inj (opening.unique opening')
    · exact absurd (opening.unique opening') nofun
  · rcases h' with opening' | ⟨frontier', explored', event'⟩
    · obtain ⟨start, opening, -⟩ := explored
      exact absurd (opening.unique opening') nofun
    · obtain rfl := explored.unique_of_stuck explored' event.stuck event'.stuck
      exact Except.error.inj (event.unique event')

/-- Where an exploration comes to its end nothing fails. -/
theorem Explored.not_firstFailure {known : List Path} {error : BuildError}
    (h : Explored tree compiler resolver entry ⟨known, []⟩) :
    ¬ FirstFailure tree compiler resolver entry error := by
  rintro (opening | ⟨frontier, explored, event⟩)
  · obtain ⟨start, opening', -⟩ := h
    exact absurd (opening.unique opening') nofun
  · obtain rfl := h.unique_of_stuck explored (fun _ => not_event_of_done) event.stuck
    exact not_event_of_done event

/-! ## What is known and what is pending -/

/-- An import leads to a path that is known. -/
def Leads (tree : FileTree) (resolver : Resolver) (known : List Path) (importer : Path)
    (specifier : String) : Prop :=
  ∃ path, (resolver.resolve tree specifier importer).1 = .ok path ∧
    ∃ other ∈ known, other.same path = true

/-- What is known is reachable and has been compiled, and its imports are those that lead to what is
known and those that are pending. -/
structure Frontier.Sound (tree : FileTree) (compiler : Compiler) (resolver : Resolver)
    (entry : Path) (frontier : Frontier) : Prop where
  /-- what the entry leads to is known first -/
  opened : ∃ path, frontier.known.head? = some path ∧
    (resolver.resolveEntry tree entry).1 = .ok path
  reached : ∀ path ∈ frontier.known, Reachable tree compiler resolver entry path
  loaded : ∀ path ∈ frontier.known, ∃ source compiled,
    Loads tree compiler path source compiled ∧
      ∀ specifier ∈ compiled.specifiers,
        (path, specifier) ∈ frontier.pending ∨ Leads tree resolver frontier.known path specifier
  listed : ∀ item ∈ frontier.pending, item.1 ∈ frontier.known ∧
    ∃ source compiled, Loads tree compiler item.1 source compiled ∧ item.2 ∈ compiled.specifiers

theorem Leads.mono {known more : List Path} {importer : Path} {specifier : String}
    (h : Leads tree resolver known importer specifier) (sub : known ⊆ more) :
    Leads tree resolver more importer specifier := by
  obtain ⟨path, found, other, mem, same⟩ := h
  exact ⟨path, found, other, sub mem, same⟩

theorem mem_importsOf {item : Path × String} {path : Path} {specifiers : List String} :
    item ∈ importsOf path specifiers ↔ item.1 = path ∧ item.2 ∈ specifiers := by
  rw [importsOf, List.mem_map]
  constructor
  · rintro ⟨specifier, mem, rfl⟩
    exact ⟨rfl, mem⟩
  · rintro ⟨rfl, mem⟩
    exact ⟨item.2, mem, rfl⟩

theorem Opening.sound {frontier : Frontier}
    (h : Opening tree compiler resolver entry (.ok frontier)) :
    frontier.Sound tree compiler resolver entry := by
  cases h with
  | @opened path source compiled found loads =>
    refine ⟨⟨path, rfl, found⟩, ?_, ?_, ?_⟩
    · intro other mem
      rw [List.mem_singleton.mp mem]
      exact .entry found
    · intro other mem
      rw [List.mem_singleton.mp mem]
      refine ⟨source, compiled, loads, fun specifier listed => Or.inl ?_⟩
      exact mem_importsOf.mpr ⟨rfl, listed⟩
    · intro item mem
      obtain ⟨importer, listed⟩ := mem_importsOf.mp mem
      rw [importer]
      exact ⟨List.mem_singleton_self path, source, compiled, loads, listed⟩

/-- The imports of what is known are accounted for when the first that is pending is dealt with. -/
theorem Frontier.Sound.loaded_of_leads {known more : List Path}
    {pending later : List (Path × String)} {importer : Path} {specifier : String}
    (sound : Frontier.Sound tree compiler resolver entry ⟨known, (importer, specifier) :: pending⟩)
    (leads : Leads tree resolver more importer specifier) (subKnown : known ⊆ more)
    (subPending : pending ⊆ later) {path : Path} (mem : path ∈ known) :
    ∃ source compiled, Loads tree compiler path source compiled ∧
      ∀ specifier ∈ compiled.specifiers,
        (path, specifier) ∈ later ∨ Leads tree resolver more path specifier := by
  obtain ⟨source, compiled, loads, imports⟩ := sound.loaded path mem
  refine ⟨source, compiled, loads, fun specifier' listed => ?_⟩
  rcases imports specifier' listed with isPending | alreadyLeads
  · rcases List.mem_cons.mp isPending with isFirst | isPending
    · obtain ⟨rfl, rfl⟩ := Prod.mk.inj isFirst
      exact Or.inr leads
    · exact Or.inl (subPending isPending)
  · exact Or.inr (alreadyLeads.mono subKnown)

theorem Event.sound {before after : Frontier}
    (h : Event tree compiler resolver before (.ok after))
    (sound : before.Sound tree compiler resolver entry) :
    after.Sound tree compiler resolver entry := by
  cases h with
  | @again known pending importer path other specifier found mem same =>
    refine ⟨sound.opened, sound.reached, fun module mem' => ?_, fun item mem' => ?_⟩
    · exact sound.loaded_of_leads ⟨path, found, other, mem, same⟩ (List.Subset.refl known)
        (List.Subset.refl pending) mem'
    · exact sound.listed item (List.mem_cons_of_mem _ mem')
  | @first known pending importer path specifier source compiled found new loads =>
    obtain ⟨importerKnown, source', compiled', loads', listed⟩ :=
      sound.listed (importer, specifier) List.mem_cons_self
    have isKnown : path ∈ known ++ [path] := List.mem_append_right _ (List.mem_singleton_self path)
    refine ⟨?_, ?_, ?_, ?_⟩
    · obtain ⟨opened, isFirst, foundEntry⟩ := sound.opened
      refine ⟨opened, ?_, foundEntry⟩
      rw [List.head?_append, isFirst]
      rfl
    · -- the new module is reached by the import that led to it
      intro module mem
      rcases List.mem_append.mp mem with mem | mem
      · exact sound.reached module mem
      · rw [List.mem_singleton.mp mem]
        exact .imported (sound.reached importer importerKnown) loads' listed found
    · intro module mem
      rcases List.mem_append.mp mem with mem | mem
      · exact sound.loaded_of_leads ⟨path, found, path, isKnown, Path.same_refl path⟩
          (List.subset_append_left known [path]) (List.subset_append_left pending _) mem
      · rw [List.mem_singleton.mp mem]
        refine ⟨source, compiled, loads, fun specifier' listed => Or.inl ?_⟩
        exact List.mem_append_right _ (mem_importsOf.mpr ⟨rfl, listed⟩)
    · intro item mem
      rcases List.mem_append.mp mem with mem | mem
      · obtain ⟨mem, rest⟩ := sound.listed item (List.mem_cons_of_mem _ mem)
        exact ⟨List.mem_append_left _ mem, rest⟩
      · obtain ⟨importer, listed⟩ := mem_importsOf.mp mem
        rw [importer]
        exact ⟨isKnown, source, compiled, loads, listed⟩

/-- However far an exploration comes, it is sound. -/
theorem Explored.sound {frontier : Frontier}
    (h : Explored tree compiler resolver entry frontier) :
    frontier.Sound tree compiler resolver entry := by
  obtain ⟨start, opening, steps⟩ := h
  induction steps with
  | refl => exact opening.sound
  | tail _ event ih => exact event.sound ih

/-! ## New resolvers -/

/-- What a new resolver finds are canonical paths. -/
theorem Reachable.isCanonicalFile {policy : ExtensionPolicy} {path : Path}
    (h : Reachable tree compiler (.new policy) entry path) : tree.IsCanonicalFile path := by
  induction h with
  | entry found => exact Resolver.isCanonicalFile_of_new (FileTree.isAbsolute_pathOf _) found
  | imported _ _ _ found ih =>
    exact Resolver.isCanonicalFile_of_new (Resolver.isAbsolute_directoryOf ih.isAbsolute) found

theorem Reachable.eq_of_same {policy : ExtensionPolicy} {path other : Path}
    (h : Reachable tree compiler (.new policy) entry path)
    (h' : Reachable tree compiler (.new policy) entry other) (same : path.same other = true) :
    path = other :=
  h.isCanonicalFile.eq_of_same h'.isCanonicalFile same

/-- An exploration that has come to its end knows everything that is reachable. -/
theorem Explored.mem_known_iff {policy : ExtensionPolicy} {known : List Path} {path : Path}
    (h : Explored tree compiler (.new policy) entry ⟨known, []⟩) :
    path ∈ known ↔ Reachable tree compiler (.new policy) entry path := by
  refine ⟨h.sound.reached path, fun reached => ?_⟩
  induction reached with
  | entry found =>
    obtain ⟨opened, isFirst, foundOpened⟩ := h.sound.opened
    rw [Except.ok.inj (found.symm.trans foundOpened)]
    exact List.mem_of_head? isFirst
  | @imported importer path source specifier compiled reached loads listed found ih =>
    obtain ⟨source', compiled', loads', imports⟩ := h.sound.loaded importer ih
    rw [(loads.unique loads').2] at listed
    -- nothing is pending, so the import leads to a known path, and in the same spelling
    rcases imports specifier listed with pending | ⟨target, leads, other, mem, same⟩
    · exact absurd pending List.not_mem_nil
    · obtain rfl := Except.ok.inj (found.symm.trans leads)
      have reachedOther := h.sound.reached other mem
      have reachedPath := Reachable.imported reached loads (by rwa [(loads.unique loads').2]) found
      rw [← reachedOther.eq_of_same reachedPath same]
      exact mem

/-! ## Accepted paths -/

theorem read_eq_ok_iff {path : Path} {source : String} :
    read tree path = .ok source ↔
      ∃ content, tree.find? path = some (.file content) ∧
        String.fromUTF8? content = some source := by
  rw [read]
  constructor
  · intro h
    split at h
    · rename_i content isFile
      split at h
      · rename_i text valid
        obtain rfl := Except.ok.inj h
        exact ⟨content, isFile, valid⟩
      · simp only [reduceCtorEq] at h
    · simp only [reduceCtorEq] at h
    · simp only [reduceCtorEq] at h
  · rintro ⟨content, isFile, valid⟩
    rw [isFile]
    dsimp only
    rw [valid]

theorem accepted_iff {path : Path} :
    Accepted tree compiler resolver path ↔
      ∃ source compiled, Loads tree compiler path source compiled ∧
        ∀ specifier ∈ compiled.specifiers, ∃ target,
          (resolver.resolve tree specifier path).1 = .ok target := by
  constructor
  · rintro ⟨content, source, compiled, isFile, valid, accepted, imports⟩
    exact ⟨source, compiled, ⟨read_eq_ok_iff.mpr ⟨content, isFile, valid⟩, accepted⟩, imports⟩
  · rintro ⟨source, compiled, loads, imports⟩
    obtain ⟨content, isFile, valid⟩ := read_eq_ok_iff.mp loads.text
    exact ⟨content, source, compiled, isFile, valid, loads.accepted, imports⟩

/-- What an exploration that has come to its end knows is accepted. -/
theorem Explored.accepted {known : List Path} {path : Path}
    (h : Explored tree compiler resolver entry ⟨known, []⟩) (mem : path ∈ known) :
    Accepted tree compiler resolver path := by
  obtain ⟨source, compiled, loads, imports⟩ := h.sound.loaded path mem
  refine accepted_iff.mpr ⟨source, compiled, loads, fun specifier listed => ?_⟩
  rcases imports specifier listed with pending | ⟨target, leads, -⟩
  · exact absurd pending List.not_mem_nil
  · exact ⟨target, leads⟩

/-- Nothing fails if the entry is found and all that it leads to is accepted. -/
theorem FirstFailure.exists_not_accepted {error : BuildError}
    (h : FirstFailure tree compiler resolver entry error)
    (found : ∃ path, (resolver.resolveEntry tree entry).1 = .ok path) :
    ∃ path, Reachable tree compiler resolver entry path ∧
      ¬ Accepted tree compiler resolver path := by
  obtain ⟨first, found⟩ := found
  rcases h with opening | ⟨frontier, explored, event⟩
  · refine ⟨first, .entry found, fun accepted => ?_⟩
    obtain ⟨source, compiled, loads, -⟩ := accepted_iff.mp accepted
    exact absurd (opening.unique (.opened found loads)) nofun
  · cases event with
    | @unresolved known pending importer specifier fault unfound =>
      obtain ⟨mem, source, compiled, loads, listed⟩ :=
        explored.sound.listed (importer, specifier) List.mem_cons_self
      refine ⟨importer, explored.sound.reached importer mem, fun accepted => ?_⟩
      obtain ⟨source', compiled', loads', imports⟩ := accepted_iff.mp accepted
      rw [(loads.unique loads').2] at listed
      obtain ⟨target, found⟩ := imports specifier listed
      exact absurd (unfound.symm.trans found) nofun
    | @unread known pending importer path specifier fault found new unread =>
      obtain ⟨mem, source, compiled, loads, listed⟩ :=
        explored.sound.listed (importer, specifier) List.mem_cons_self
      refine ⟨path, .imported (explored.sound.reached importer mem) loads listed found,
        fun accepted => ?_⟩
      obtain ⟨source', compiled', loads', -⟩ := accepted_iff.mp accepted
      exact absurd (unread.symm.trans loads'.text) nofun
    | @refused known pending importer path specifier source error found new text refused =>
      obtain ⟨mem, source, compiled, loads, listed⟩ :=
        explored.sound.listed (importer, specifier) List.mem_cons_self
      refine ⟨path, .imported (explored.sound.reached importer mem) loads listed found,
        fun accepted => ?_⟩
      obtain ⟨source', compiled', loads', -⟩ := accepted_iff.mp accepted
      obtain rfl := Except.ok.inj (text.symm.trans loads'.text)
      exact absurd (refused.symm.trans loads'.accepted) nofun

end

end ModuleBundler.Discovery

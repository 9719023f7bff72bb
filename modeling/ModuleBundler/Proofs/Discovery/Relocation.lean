/-
# ModuleBundler.Proofs.Discovery.Relocation — the same project found in two directories.

A specifier is taken from the directory of its module by its text alone, so below any root it leads
to the same place (`candidates_placed`).  Where a project stands in two directories, searches for it
end at corresponding files (`search_relocated`), and by `build_corresponds` the two builds go side by
side: the graphs differ in the root of their paths alone, or both builds fail (`build_relocated`).

Two things tie a project to its directory, and `Movable` rules them out: an extension with slashes,
which is put behind a name after points have been removed, and a directory so deep that paths below
it are too long to be opened.
-/
import ModuleBundler.Proofs.Discovery.Completeness
import ModuleBundler.Proofs.Discovery.Correspondence
import ModuleBundler.Proofs.FileTree.Placement

namespace ModuleBundler

open ModuleBundler.FileTree

namespace Compiler

/-- The built-in compiler reads nothing of a path but its extension; the rest shows in its errors
alone. -/
theorem standard_congr {path other : Path} (source : String)
    (h : other.extension? = path.extension?) :
    Alike (fun compiled compiled' => compiled' = compiled) (fun _ _ => True)
      (standard path source) (standard other source) := by
  have typed : isTyped other = isTyped path := by
    rw [isTyped, isTyped, h]
  rw [standard, standard, h, typed]
  split
  · exact .ok rfl
  · dsimp only
    split
    · exact .ok rfl
    · exact .error trivial
    · exact .error trivial

end Compiler

namespace Discovery

/-- The path of a file below one root, for the path below another. -/
def relocated (first second : List String) (path : Path) : Path :=
  match path.relativeTo? (pathOf first) with
  | some rest => (pathOf second).join rest
  | none => path

/-- Whether a specifier, taken by its text from a place below a root, stays strictly below it. -/
def staysInside (place : List String) (specifier : String) : Bool :=
  (descend? place (⟨specifier⟩ : Path).components).any fun below => !below.isEmpty

/-- A project without links, two directories for it, and extensions without slashes. -/
structure Movable (project : List (List String × FileEntry)) (policy : ExtensionPolicy)
    (first second : List String) : Prop where
  linkFree : LinkFree project
  named : ∀ name ∈ first, IsName name
  named' : ∀ name ∈ second, IsName name
  noSlash : ∀ ext ∈ policy.extensions, '/' ∉ ext.toList
  /-- no path of a file is too long to be opened in one directory alone -/
  openable : ∀ place content, (place, .file content) ∈ project →
    isNameable (pathOf (first ++ place)) = isNameable (pathOf (second ++ place))

/-- The entry and the specifiers of all modules that are reached from it stay below the root. -/
structure SelfContained (project : List (List String × FileEntry)) (policy : ExtensionPolicy)
    (entry : Path) (root : List String) : Prop where
  opening : staysInside [] entry.text = true
  imports : ∀ place source compiled specifier, (∀ name ∈ place, IsName name) →
    Reachable (placed project root) Compiler.standard (.new policy) entry (pathOf (root ++ place)) →
    Loads (placed project root) Compiler.standard (pathOf (root ++ place)) source compiled →
    specifier ∈ compiled.specifiers → staysInside place.dropLast specifier = true

theorem exists_of_staysInside {place : List String} {specifier : String}
    (h : staysInside place specifier = true) :
    ∃ below, descend? place (⟨specifier⟩ : Path).components = some below ∧ below ≠ [] := by
  rw [staysInside, Option.any_eq_true] at h
  obtain ⟨below, descends, proper⟩ := h
  exact ⟨below, descends, by simpa using proper⟩

theorem relocated_pathOf {first second place : List String}
    (named : ∀ name ∈ first ++ place, IsName name)
    (named' : ∀ name ∈ second ++ place, IsName name) (proper : place ≠ []) :
    relocated first second (pathOf (first ++ place)) = pathOf (second ++ place) := by
  have base := components_pathOf_of_names fun name mem => named name (List.mem_append_left place mem)
  rw [relocated, relativeTo?_pathOf base named]
  exact join_pathOf String.toList_ofList named' proper

variable {project : List (List String × FileEntry)} {policy : ExtensionPolicy}
variable {first second : List String}

/-- A path that leads to a file of a project where the project stands, and would do so elsewhere. -/
structure FileAt (project : List (List String × FileEntry)) (first second : List String)
    (place : List String) (path : Path) : Prop where
  path : path = pathOf (first ++ place)
  proper : place ≠ []
  named : ∀ name ∈ place, IsName name
  file : ∃ content, HasFile project place content
  nameable : isNameable (pathOf (first ++ place)) = true
  nameable' : isNameable (pathOf (second ++ place)) = true

theorem mem_of_hasFile {place : List String} {content : ByteArray}
    (h : HasFile project place content) : (place, .file content) ∈ project := by
  have found := h.2
  rw [entryAt?, if_neg (by rw [List.isEmpty_iff]; exact ne_nil_of_isFile h.2)] at found
  obtain ⟨entry, isFound, same⟩ := Option.map_eq_some_iff.mp found
  have listed := List.mem_of_find?_eq_some isFound
  have spelled := List.find?_some isFound
  rw [placed, List.length_nil, List.range_zero, List.map_nil, List.nil_append] at listed
  obtain ⟨item, mem, rfl⟩ := List.mem_map.mp listed
  obtain rfl : item.1 = place := beq_iff_eq.mp spelled
  rwa [← same]

section

variable (movable : Movable project policy first second)

include movable

theorem FileAt.names {place : List String} {path : Path}
    (stands : FileAt project first second place path) : ∀ name ∈ first ++ place, IsName name :=
  List.forall_mem_append.mpr ⟨movable.named, stands.named⟩

theorem FileAt.names' {place : List String} {path : Path}
    (stands : FileAt project first second place path) : ∀ name ∈ second ++ place, IsName name :=
  List.forall_mem_append.mpr ⟨movable.named', stands.named⟩

theorem FileAt.relocated_eq {place : List String} {path : Path}
    (stands : FileAt project first second place path) :
    relocated first second path = pathOf (second ++ place) := by
  rw [stands.path]
  exact relocated_pathOf (stands.names movable) (stands.names' movable) stands.proper

/-- Whether there is a file at a place does not depend on the root. -/
theorem isFile_placed {place : List String} (named : ∀ name ∈ place, IsName name)
    (proper : place ≠ []) :
    (placed project first).isFile (pathOf (first ++ place)) =
      (placed project second).isFile (pathOf (second ++ place)) := by
  rw [Bool.eq_iff_iff, isFile_iff, isFile_iff]
  simp only [find?_placed movable.linkFree (List.forall_mem_append.mpr ⟨movable.named, named⟩) proper,
    find?_placed movable.linkFree (List.forall_mem_append.mpr ⟨movable.named', named⟩) proper]
  refine exists_congr fun content => and_congr_right fun isFile => ?_
  rw [movable.openable place content (mem_of_hasFile isFile)]

/-- A file is found under corresponding paths. -/
theorem FileAt.find? {place : List String} {path : Path}
    (stands : FileAt project first second place path) :
    ∃ content, (placed project first).find? path = some (.file content) ∧
      (placed project second).find? (relocated first second path) = some (.file content) := by
  obtain ⟨content, isFile⟩ := stands.file
  refine ⟨content, ?_, ?_⟩
  · rw [stands.path, find?_placed movable.linkFree (stands.names movable) stands.proper]
    exact ⟨isFile, stands.nameable⟩
  · rw [stands.relocated_eq movable,
      find?_placed movable.linkFree (stands.names' movable) stands.proper]
    exact ⟨isFile, stands.nameable'⟩

theorem fileAt_of_isFile {place : List String} (named : ∀ name ∈ place, IsName name)
    (proper : place ≠ []) (isFile : (placed project first).isFile (pathOf (first ++ place)) = true) :
    FileAt project first second place (pathOf (first ++ place)) := by
  have named' := List.forall_mem_append.mpr ⟨movable.named, named⟩
  obtain ⟨content, found⟩ := isFile_iff.mp isFile
  obtain ⟨isFile, nameable⟩ := (find?_placed movable.linkFree named' proper).mp found
  exact ⟨rfl, proper, named, ⟨content, isFile⟩, nameable,
    movable.openable place content (mem_of_hasFile isFile) ▸ nameable⟩

/-- The path of a file is canonical. -/
theorem FileAt.canonical? {place : List String} {path : Path}
    (stands : FileAt project first second place path) :
    (placed project first).canonical? path = some path ∧
      (placed project second).canonical? (relocated first second path) =
        some (relocated first second path) := by
  obtain ⟨content, isFile⟩ := stands.file
  have canonical : ∀ root : List String, (∀ name ∈ root, IsName name) →
      isNameable (pathOf (root ++ place)) = true →
        (placed project root).canonical? (pathOf (root ++ place)) = some (pathOf (root ++ place)) := by
    intro root named nameable
    refine IsCanonicalFile.canonical? ⟨root ++ place, content, rfl, ?_, ?_, nameable⟩
    · exact (grounded_placed_iff named).mpr isFile.1
    · rw [entryAt?_placed stands.proper]
      exact isFile.2
  rw [stands.relocated_eq movable, stands.path]
  exact ⟨canonical first movable.named stands.nameable,
    canonical second movable.named' stands.nameable'⟩

omit movable in
/-- The candidates for a specifier from below a root are the places to try, below that root. -/
theorem candidates_placed {root place below : List String} {specifier : String}
    (noSlash : ∀ ext ∈ policy.extensions, '/' ∉ ext.toList) (rooted : ∀ name ∈ root, IsName name)
    (named : ∀ name ∈ place, IsName name)
    (descends : descend? place (⟨specifier⟩ : Path).components = some below) (proper : below ≠ []) :
    Resolver.candidates policy (pathOf (root ++ place)) specifier =
      (policy.places below).map fun spot => pathOf (root ++ spot) := by
  have belowNamed := isName_of_descend?_components named descends
  rw [Resolver.candidates, normalized_join (List.forall_mem_append.mpr ⟨rooted, named⟩) descends,
    ExtensionPolicy.candidates_pathOf noSlash (List.forall_mem_append.mpr ⟨rooted, belowNamed⟩) proper]

section

omit movable

variable {tree : FileTree} {root place : List String} {specifier : String}
variable {spots : List (List String)}

/-- Where no place that is tried has a file, the search fails. -/
theorem search_of_no_spot (importer : Option Path)
    (candidates : Resolver.candidates policy (pathOf (root ++ place)) specifier =
      spots.map fun spot => pathOf (root ++ spot))
    (unfound : spots.find? (fun spot => tree.isFile (pathOf (root ++ spot))) = none) :
    ∃ error, Resolver.search tree policy (pathOf (root ++ place)) specifier importer =
      .error error := by
  refine ⟨_, Resolver.search_of_unfound importer ?_⟩
  rw [candidates, List.find?_map, Function.comp_def, unfound]
  rfl

/-- Otherwise it ends at the first that has one. -/
theorem search_of_first_spot {spot : List String} (importer : Option Path)
    (candidates : Resolver.candidates policy (pathOf (root ++ place)) specifier =
      spots.map fun spot => pathOf (root ++ spot))
    (found : spots.find? (fun spot => tree.isFile (pathOf (root ++ spot))) = some spot)
    (canonical : tree.canonical? (pathOf (root ++ spot)) = some (pathOf (root ++ spot))) :
    Resolver.search tree policy (pathOf (root ++ place)) specifier importer =
      .ok (pathOf (root ++ spot)) := by
  refine Resolver.search_eq_ok_iff.mpr ⟨pathOf (root ++ spot), ?_, canonical⟩
  rw [candidates, List.find?_map, Function.comp_def, found]
  rfl

end

/-- Searches for a specifier from corresponding directories end at corresponding files, or fail. -/
theorem search_relocated {place : List String} {specifier : String}
    (named : ∀ name ∈ place, IsName name) (inside : staysInside place specifier = true)
    (importer importer' : Option Path) :
    Alike (fun found found' => (∃ below, FileAt project first second below found) ∧
        found' = relocated first second found) (fun _ _ => True)
      (Resolver.search (placed project first) policy (pathOf (first ++ place)) specifier importer)
      (Resolver.search (placed project second) policy (pathOf (second ++ place)) specifier
        importer') := by
  obtain ⟨below, descends, proper⟩ := exists_of_staysInside inside
  have belowNamed := isName_of_descend?_components named descends
  have spots : ∀ spot ∈ policy.places below, spot ≠ [] ∧ ∀ name ∈ spot, IsName name := fun spot =>
    ExtensionPolicy.isName_of_mem_places movable.noSlash belowNamed proper
  have candidates := candidates_placed movable.noSlash movable.named named descends proper
  have candidates' := candidates_placed movable.noSlash movable.named' named descends proper
  -- both searches stop at the same place
  have tests : (policy.places below).find?
      (fun spot => (placed project second).isFile (pathOf (second ++ spot))) =
        (policy.places below).find?
          fun spot => (placed project first).isFile (pathOf (first ++ spot)) := by
    refine List.find?_congr fun spot mem => ?_
    obtain ⟨isProper, isNamed⟩ := spots spot mem
    exact (isFile_placed movable isNamed isProper).symm
  cases found : (policy.places below).find?
      fun spot => (placed project first).isFile (pathOf (first ++ spot)) with
  | none =>
    obtain ⟨error, fails⟩ := search_of_no_spot importer candidates found
    obtain ⟨error', fails'⟩ := search_of_no_spot importer' candidates' (tests.trans found)
    rw [fails, fails']
    exact .error trivial
  | some spot =>
    obtain ⟨isProper, isNamed⟩ := spots spot (List.mem_of_find?_eq_some found)
    have isFile := List.find?_some found
    have stands := fileAt_of_isFile movable isNamed isProper isFile
    have moved := stands.relocated_eq movable
    obtain ⟨canonical, canonical'⟩ := stands.canonical? movable
    rw [moved] at canonical'
    rw [search_of_first_spot importer candidates found canonical,
      search_of_first_spot importer' candidates' (tests.trans found) canonical', ← moved]
    exact .ok ⟨⟨spot, stands⟩, rfl⟩

/-- So does resolving a specifier of a file, if the specifier stays inside. -/
theorem resolve_relocated {place : List String} {importer : Path} {specifier : String}
    (stands : FileAt project first second place importer)
    (inside : staysInside place.dropLast specifier = true) :
    Alike (fun found found' => (∃ below, FileAt project first second below found) ∧
        found' = relocated first second found) (fun _ _ => True)
      ((Resolver.new policy).resolve (placed project first) specifier importer).1
      ((Resolver.new policy).resolve (placed project second) specifier
        (relocated first second importer)).1 := by
  have above : ∀ root : List String, (∀ name ∈ root ++ place, IsName name) →
      Resolver.directoryOf (pathOf (root ++ place)) = pathOf (root ++ place.dropLast) := by
    intro root named
    rw [directoryOf_pathOf (List.append_ne_nil_of_right_ne_nil root stands.proper) named,
      List.dropLast_append_of_ne_nil stands.proper]
  rw [Resolver.resolve, Resolver.resolve, Resolver.answer_eq, Resolver.answer_eq,
    Resolver.remembered?_new, Resolver.remembered?_new, stands.relocated_eq movable, stands.path,
    above first (stands.names movable), above second (stands.names' movable)]
  exact search_relocated movable (fun name mem => stands.named name (List.dropLast_subset place mem))
    inside _ _

/-- So does resolving the entry, from the root itself. -/
theorem resolveEntry_relocated {entry : Path} (inside : staysInside [] entry.text = true) :
    Alike (fun found found' => (∃ below, FileAt project first second below found) ∧
        found' = relocated first second found) (fun _ _ => True)
      ((Resolver.new policy).resolveEntry (placed project first) entry).1
      ((Resolver.new policy).resolveEntry (placed project second) entry).1 := by
  have searched := search_relocated movable (fun _ mem => absurd mem List.not_mem_nil) inside none none
  rw [List.append_nil, List.append_nil] at searched
  rw [Resolver.resolveEntry, Resolver.resolveEntry, Resolver.answer_eq, Resolver.answer_eq]
  exact searched

section

variable {entry : Path} (contained : SelfContained project policy entry first)

include contained

/-- Everything that is reached is a file of the project. -/
theorem fileAt_of_reachable {path : Path}
    (reached : Reachable (placed project first) Compiler.standard (.new policy) entry path) :
    ∃ place, FileAt project first second place path := by
  induction reached with
  | entry found =>
    have alike := resolveEntry_relocated movable contained.opening
    rw [found] at alike
    generalize ((Resolver.new policy).resolveEntry (placed project second) entry).1 = other at alike
    cases alike with
    | ok both => exact both.1
  | @imported importer path source specifier compiled reached loads listed found ih =>
    obtain ⟨place, stands⟩ := ih
    have alike := resolve_relocated movable stands
      (contained.imports place source compiled specifier stands.named (stands.path ▸ reached)
        (stands.path ▸ loads) listed)
    rw [found] at alike
    generalize ((Resolver.new policy).resolve (placed project second) specifier
      (relocated first second importer)).1 = other at alike
    cases alike with
    | ok both => exact both.1

/-- The same project in two directories is found alike, module by module. -/
theorem corresponds :
    Corresponds (placed project first) (placed project second) Compiler.standard Compiler.standard
      (.new policy) (.new policy) (relocated first second)
      (Reachable (placed project first) Compiler.standard (.new policy) entry) (fun _ _ => True) where
  same path other reached reached' := by
    obtain ⟨place, stands⟩ := fileAt_of_reachable movable contained reached
    obtain ⟨place', stands'⟩ := fileAt_of_reachable movable contained reached'
    rw [Bool.eq_iff_iff, Path.same_iff, Path.same_iff, stands.relocated_eq movable,
      stands'.relocated_eq movable, stands.path, stands'.path,
      components_pathOf_of_names (stands.names movable),
      components_pathOf_of_names (stands.names' movable),
      components_pathOf_of_names (stands'.names movable),
      components_pathOf_of_names (stands'.names' movable)]
    simp
  reads path reached := by
    obtain ⟨place, stands⟩ := fileAt_of_reachable movable contained reached
    obtain ⟨content, found, found'⟩ := stands.find? movable
    rw [read, read, found, found']
    dsimp only
    split
    · exact .ok rfl
    · exact .error trivial
  compiles path source reached := by
    obtain ⟨place, stands⟩ := fileAt_of_reachable movable contained reached
    obtain ⟨above, name, rfl⟩ : ∃ above name, place = above ++ [name] :=
      ⟨place.dropLast, place.getLast stands.proper, (List.dropLast_concat_getLast stands.proper).symm⟩
    have named := stands.names movable
    have named' := stands.names' movable
    apply Compiler.standard_congr
    rw [stands.relocated_eq movable, stands.path]
    rw [← List.append_assoc] at named named'
    rw [← List.append_assoc, ← List.append_assoc, extension?_pathOf named, extension?_pathOf named']
  resolves path source compiled specifier reached loads listed := by
    obtain ⟨place, stands⟩ := fileAt_of_reachable movable contained reached
    have inside := contained.imports place source compiled specifier stands.named
      (stands.path ▸ reached) (stands.path ▸ loads) listed
    exact (resolve_relocated movable stands inside).imp fun found found' answered _ both =>
      ⟨.imported reached loads listed answered, both.2⟩

/-- The graphs of the same project in two directories differ in the root of their paths alone, or
both builds fail. -/
theorem build_relocated :
    Alike (fun graph graph' => (∀ record ∈ graph.modules, ∃ place,
          FileAt project first second place record.path) ∧
        graph' = graph.moved (relocated first second)) (fun _ _ => True)
      (build (placed project first) Compiler.standard (.new policy) entry).1
      (build (placed project second) Compiler.standard (.new policy) entry).1 := by
  have opens := (resolveEntry_relocated movable contained.opening).imp
    fun found found' answered _ both =>
      (⟨.entry answered, both.2⟩ : Reachable (placed project first) Compiler.standard (.new policy)
        entry found ∧ found' = relocated first second found)
  refine (build_corresponds (corresponds movable contained) opens).imp
    fun graph graph' built _ same => ⟨fun record mem => ?_, same⟩
  have reached := (reachable_iff_of_build built record.path).mpr ⟨record, mem, rfl⟩
  exact fileAt_of_reachable movable contained reached

end

end

/-! ## Projects that are self-contained -/

/-- The names behind a root in a path. -/
def namesBelow (root : List String) (path : Path) : List String :=
  (path.components.drop (root.length + 1)).map fun component => String.ofList component.text

theorem namesBelow_pathOf {root place : List String} (named : ∀ name ∈ root ++ place, IsName name) :
    namesBelow root (pathOf (root ++ place)) = place := by
  have dropped : ((root ++ place).map Path.Component.name).drop root.length =
      place.map .name := by
    rw [List.map_append, List.drop_append_of_le_length (by rw [List.length_map]),
      List.drop_eq_nil_of_le (by rw [List.length_map]), List.nil_append]
  rw [namesBelow, components_pathOf_of_names named, List.drop_succ_cons, dropped, List.map_map]
  exact List.map_id'' (fun name => String.ofList_toList) place

/-- Whether a project is self-contained can be read off the graph of a build that succeeds. -/
theorem selfContained_of_build {entry : Path} {root : List String} {graph : ModuleGraph}
    (rooted : ∀ name ∈ root, IsName name) (opening : staysInside [] entry.text = true)
    (built : (build (placed project root) Compiler.standard (.new policy) entry).1 = .ok graph)
    (inside : (graph.modules.all fun record => record.specifiers.all
      (staysInside (namesBelow root record.path).dropLast)) = true) :
    SelfContained project policy entry root := by
  refine ⟨opening, fun place source compiled specifier named reached loads listed => ?_⟩
  obtain ⟨record, mem, path⟩ := (reachable_iff_of_build built _).mp reached
  obtain ⟨source', compiled', loads', specifiers, -⟩ := loads_of_build built mem
  rw [path] at loads'
  obtain ⟨-, same⟩ := loads'.unique loads
  rw [← same, ← specifiers] at listed
  have all := List.all_eq_true.mp (List.all_eq_true.mp inside record mem) specifier listed
  rwa [path, namesBelow_pathOf (List.forall_mem_append.mpr ⟨rooted, named⟩)] at all

/-- A project whose entry is not found leads nowhere. -/
theorem selfContained_of_unresolved {entry : Path} {root : List String} {error : BuildError}
    (opening : staysInside [] entry.text = true)
    (unresolved : ((Resolver.new policy).resolveEntry (placed project root) entry).1 = .error error) :
    SelfContained project policy entry root := by
  have unreached : ∀ path, ¬ Reachable (placed project root) Compiler.standard (.new policy) entry
      path := by
    intro path reached
    induction reached with
    | entry found =>
      rw [unresolved] at found
      cases found
    | imported _ _ _ _ ih => exact ih
  exact ⟨opening, fun _ _ _ _ _ reached => absurd reached (unreached _)⟩

/-- Nothing is found in a directory below which every path is too long. -/
theorem resolveEntry_of_deep {entry : Path} {root : List String} (linkFree : LinkFree project)
    (noSlash : ∀ ext ∈ policy.extensions, '/' ∉ ext.toList) (rooted : ∀ name ∈ root, IsName name)
    (opening : staysInside [] entry.text = true)
    (deep : ∀ place ≠ [], (∀ name ∈ place, IsName name) →
      isNameable (pathOf (root ++ place)) = false) :
    ∃ error, ((Resolver.new policy).resolveEntry (placed project root) entry).1 = .error error := by
  obtain ⟨below, descends, proper⟩ := exists_of_staysInside opening
  have named : ∀ name ∈ ([] : List String), IsName name := fun _ mem => absurd mem List.not_mem_nil
  have belowNamed := isName_of_descend?_components named descends
  have candidates := candidates_placed noSlash rooted named descends proper
  have unfound : (Resolver.candidates policy (pathOf (root ++ [])) entry.text).find?
      (placed project root).isFile = none := by
    rw [candidates, List.find?_eq_none]
    intro candidate mem isFile
    obtain ⟨spot, listed, rfl⟩ := List.mem_map.mp mem
    obtain ⟨isProper, isNamed⟩ :=
      ExtensionPolicy.isName_of_mem_places noSlash belowNamed proper listed
    obtain ⟨content, found⟩ := isFile_iff.mp isFile
    rw [find?_placed linkFree (List.forall_mem_append.mpr ⟨rooted, isNamed⟩) isProper,
      deep spot isProper isNamed] at found
    exact absurd found.2 Bool.false_ne_true
  rw [List.append_nil] at unfound
  rw [Resolver.resolveEntry, Resolver.answer_eq]
  exact ⟨_, Resolver.search_of_unfound none unfound⟩

/-- Where the entry is not found, nothing is built. -/
theorem build_of_unresolved {tree : FileTree} {compiler : Compiler} {resolver : Resolver}
    {entry : Path} {error : BuildError}
    (unresolved : (resolver.resolveEntry tree entry).1 = .error error) :
    (build tree compiler resolver entry).1 = .error error := by
  rw [build]
  cases asked : resolver.resolveEntry tree entry with
  | mk result after =>
    rw [asked] at unresolved
    obtain rfl : result = .error error := unresolved
    rfl

end Discovery

end ModuleBundler

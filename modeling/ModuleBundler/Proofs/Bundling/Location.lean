/-
# ModuleBundler.Proofs.Bundling.Location — bundles do not depend on where a project stands.

The same project is placed in two directories and bundled from both.  The graphs differ in the root
of their paths alone, so what becomes of circular imports is the same (`checkCycles_moved`).  A path
shows in a bundle only where comments name the files, and there behind the directory of the entry
(`comment_relocated`).  So the bundles are the same text, if there are no comments or all modules
stand below the directory of the entry (`bundle_relocated`).
-/
import ModuleBundler.Proofs.Bundling.Policy
import ModuleBundler.Proofs.Discovery.Relocation

namespace ModuleBundler

open ModuleBundler.FileTree

/-! ## Graphs under other paths -/

namespace ModuleGraph

variable (move : Path → Path) (graph : ModuleGraph)

theorem size_moved : (graph.moved move).size = graph.size :=
  List.length_map _

theorem targets_get?_moved (id : Nat) :
    ((graph.moved move).get? id).map ModuleRecord.targets =
      (graph.get? id).map ModuleRecord.targets := by
  rw [get?_moved, Option.map_map]
  rfl

theorem edges_moved : (graph.moved move).edges = graph.edges :=
  List.flatMap_map _ _ _

theorem grow_moved (steps : Nat) (pending found : List Nat) :
    (graph.moved move).grow steps pending found = graph.grow steps pending found := by
  induction steps generalizing pending found with
  | zero => rw [grow, grow]
  | succ steps ih =>
    cases pending with
    | nil => rw [grow, grow] <;> simp
    | cons id pending => rw [grow, grow, targets_get?_moved, ih]

/-- Who imports whom does not depend on the paths, and so the circles do not either. -/
theorem cycles?_moved : (graph.moved move).cycles? = graph.cycles? := by
  have closed : (graph.moved move).isClosed = graph.isClosed := by
    rw [isClosed, isClosed, edges_moved, size_moved]
  have reached : ∀ id, (graph.moved move).reached id = graph.reached id := by
    intro id
    rw [ModuleGraph.reached, ModuleGraph.reached, size_moved, grow_moved]
  rw [cycles?, cycles?, closed, size_moved]
  simp only [reached]

end ModuleGraph

namespace Registry

/-- Under other paths the modules of a graph are written alike if their comments are, or if there
are none. -/
theorem text_moved {options : RuntimeOptions} {move : Path → Path} {graph : ModuleGraph}
    (alike : options.moduleComments = true → ∀ first ∈ graph.entryModule?,
      ∀ record ∈ graph.modules,
        comment (move first.path).parent? (record.moved move) = comment first.path.parent? record) :
    text options (graph.moved move) = text options graph := by
  cases start : graph.modules with
  | nil => simp [text, ModuleGraph.moved, ModuleGraph.entryModule?, start]
  | cons first others =>
    have entries : ∀ record ∈ graph.modules,
        entry options (move first.path).parent? (record.moved move) =
          entry options first.path.parent? record := by
      intro record mem
      rw [entry, entry]
      split
      · rename_i comments
        have isFirst : first ∈ graph.entryModule? := by
          rw [ModuleGraph.entryModule?, start]
          rfl
        rw [alike comments first isFirst record mem]
        rfl
      · rfl
    have base : (graph.moved move).entryModule?.bind (fun record => record.path.parent?) =
        (move first.path).parent? := by
      simp [ModuleGraph.entryModule?, ModuleGraph.moved, start, ModuleRecord.moved]
    have base' : graph.entryModule?.bind (fun record => record.path.parent?) =
        first.path.parent? := by
      simp [ModuleGraph.entryModule?, start]
    have written : (graph.moved move).modules.map (entry options (move first.path).parent?) =
        graph.modules.map (entry options first.path.parent?) := by
      rw [ModuleGraph.moved, List.map_map]
      exact List.map_congr_left entries
    rw [text, text, base, base', written]

end Registry

namespace Bundling

open ModuleBundler.Discovery

variable {project : List (List String × FileEntry)} {policy : ExtensionPolicy}
variable {first second : List String}

/-- A file below the directory of another one stands there in every root. -/
theorem exists_rest_of_prefix {root above place : List String} {name : String}
    (named : ∀ word ∈ (root ++ above) ++ [name], IsName word)
    (other : ∀ word ∈ root ++ place, IsName word)
    (below : (Resolver.directoryOf (pathOf (root ++ above ++ [name]))).components <+:
      (pathOf (root ++ place)).components) : ∃ rest, place = above ++ rest := by
  rw [Resolver.directoryOf, parent?_pathOf named, Option.getD_some, components_pathOf_of_names other,
    components_pathOf_of_names fun _ mem => named _ (List.mem_append_left _ mem),
    List.cons_prefix_cons, List.map_append, List.map_append, List.prefix_append_right_inj] at below
  obtain ⟨behind, same⟩ := below.2
  obtain ⟨front, rest, split, sameFront, -⟩ := List.map_eq_append_iff.mp same.symm
  have sameNames : front = above :=
    List.map_inj_right (fun _ _ => Path.Component.name.inj) |>.mp sameFront
  exact ⟨rest, by rw [split, sameNames]⟩

/-- A comment shows the path of a module from a directory above it. -/
theorem comment_pathOf {base rest : List String} {name : String} {record : ModuleRecord}
    (path : record.path = pathOf (base ++ rest)) (named : ∀ word ∈ base ++ [name], IsName word)
    (other : ∀ word ∈ base ++ rest, IsName word) :
    Registry.comment (pathOf (base ++ [name])).parent? record =
      "/* " ++ String.ofList (Registry.commentSafe
        (Path.ofPieces false (rest.map String.toList)).text.toList) ++ " */\n" := by
  have shown : record.path.relativeTo? (pathOf base) =
      some (Path.ofPieces false (rest.map String.toList)) := by
    rw [path]
    exact relativeTo?_pathOf
      (components_pathOf_of_names fun _ mem => named _ (List.mem_append_left _ mem)) other
  rw [Registry.comment, parent?_pathOf named, Option.bind_some, shown]
  rfl

/-- Behind the directory of one file, the path of another below it shows in a comment without the
root. -/
theorem comment_relocated {start : Path} {record : ModuleRecord} {place place' : List String}
    (movable : Movable project policy first second)
    (stands : FileAt project first second place start)
    (stands' : FileAt project first second place' record.path)
    (below : (Resolver.directoryOf start).components <+: record.path.components) :
    Registry.comment (relocated first second start).parent? (record.moved (relocated first second)) =
      Registry.comment start.parent? record := by
  obtain ⟨above, name, rfl⟩ : ∃ above name, place = above ++ [name] :=
    ⟨place.dropLast, place.getLast stands.proper, (List.dropLast_concat_getLast stands.proper).symm⟩
  have named := stands.names movable
  have named' := stands.names' movable
  have other := stands'.names movable
  have other' := stands'.names' movable
  rw [← List.append_assoc] at named named'
  obtain ⟨rest, rfl⟩ : ∃ rest, place' = above ++ rest := by
    rw [stands.path, ← List.append_assoc, stands'.path] at below
    exact exists_rest_of_prefix named other below
  rw [← List.append_assoc] at other other'
  have path : record.path = pathOf (first ++ above ++ rest) := by
    rw [stands'.path, List.append_assoc]
  have path' : (record.moved (relocated first second)).path = pathOf (second ++ above ++ rest) := by
    rw [List.append_assoc]
    exact stands'.relocated_eq movable
  rw [stands.relocated_eq movable, stands.path, ← List.append_assoc, ← List.append_assoc,
    comment_pathOf path named other, comment_pathOf path' named' other']

/-- What becomes of circular imports does not depend on the paths. -/
theorem checkCycles_moved (settings : Settings) (move : Path → Path) (graph : ModuleGraph) :
    Alike (fun _ _ => True) (fun _ _ => True) (checkCycles settings graph)
      (checkCycles settings (graph.moved move)) := by
  rw [checkCycles, checkCycles, ModuleGraph.cycles?_moved]
  cases graph.cycles?.getD [] with
  | nil => exact .ok trivial
  | cons group groups =>
    simp only [List.map_cons]
    split
    · exact .error trivial
    · exact .ok trivial

/-- What is generated from a graph that was built, if anything is. -/
theorem generate_of_build {tree : FileTree} {compiler : Compiler} {settings : Settings} {entry : Path}
    {graph : ModuleGraph}
    (built : (build tree compiler (.new settings.extensionPolicy) entry).1 = .ok graph) :
    (generate settings graph).1 =
      (checkCycles settings graph).map fun _ => ⟨graph.bundle settings.runtimeOptions, graph⟩ := by
  obtain ⟨refused, made⟩ := generate_of_checkCycles settings (validate_of_build built)
  cases checked : checkCycles settings graph with
  | error error => exact refused error checked
  | ok found => exact (made found checked).1

/-- A project without links stands in two directories, and the same entry is bundled from both.  If
the specifiers stay below the root, extensions have no slashes, and no path is too long to be opened
in one directory alone, both runs succeed or both fail.  If they succeed, all modules stand below the
root, and the graphs are equal up to the root of the paths.  The bundles are the same text if there
are no comments, or if all modules stand below the directory of the entry. -/
theorem bundle_relocated (project : List (List String × FileEntry)) (settings : Settings)
    (entry : Path) (first second : List String)
    (movable : Movable project settings.extensionPolicy first second)
    (contained : SelfContained project settings.extensionPolicy entry first) :
    Alike
      (fun made made' =>
        (∀ record ∈ made.graph.modules, ∃ place ≠ [], record.path = pathOf (first ++ place) ∧
          relocated first second record.path = pathOf (second ++ place)) ∧
        made'.graph = made.graph.moved (relocated first second) ∧
        (settings.moduleComments = false → made'.code = made.code) ∧
        ((∀ start ∈ made.graph.entryModule?, ∀ record ∈ made.graph.modules,
            (Resolver.directoryOf start.path).components <+: record.path.components) →
          made'.code = made.code))
      (fun _ _ => True)
      (bundle (placed project first) settings Compiler.standard entry).1
      (bundle (placed project second) settings Compiler.standard entry).1 := by
  have builds := build_relocated movable contained
  rw [fst_bundle, fst_bundle]
  generalize built : (build (placed project first) Compiler.standard
    (.new settings.extensionPolicy) entry).1 = result at builds ⊢
  generalize built' : (build (placed project second) Compiler.standard
    (.new settings.extensionPolicy) entry).1 = result' at builds ⊢
  cases builds with
  | error => exact .error trivial
  | @ok graph _ both =>
    obtain ⟨files, rfl⟩ := both
    have checked := checkCycles_moved settings (relocated first second) graph
    dsimp only
    rw [generate_of_build built, generate_of_build built']
    generalize checkCycles settings graph = checks at checked ⊢
    generalize checkCycles settings (graph.moved (relocated first second)) = checks' at checked ⊢
    cases checked with
    | error => exact .error trivial
    | ok =>
      have written : (settings.runtimeOptions.moduleComments = true → ∀ start ∈ graph.entryModule?,
          ∀ record ∈ graph.modules,
            (Resolver.directoryOf start.path).components <+: record.path.components) →
          (graph.moved (relocated first second)).bundle settings.runtimeOptions =
            graph.bundle settings.runtimeOptions := by
        intro below
        rw [ModuleGraph.bundle, ModuleGraph.bundle, Registry.text_moved]
        intro comments start isStart record mem
        obtain ⟨place, stands⟩ := files start (List.mem_of_mem_head? isStart)
        obtain ⟨place', stands'⟩ := files record mem
        exact comment_relocated movable stands stands' (below comments start isStart record mem)
      refine .ok ⟨?_, rfl, ?_, ?_⟩
      · intro record mem
        obtain ⟨place, stands⟩ := files record mem
        exact ⟨place, stands.proper, stands.path, stands.relocated_eq movable⟩
      · intro noComments
        exact written fun comments => absurd (noComments.symm.trans comments) Bool.false_ne_true
      · exact fun below => written fun _ => below

/-! ## Examples -/

/-- Two files in one directory, of which one imports the other. -/
def neighbours : List (List String × FileEntry) :=
  [(["src"], .directory), (["src", "a.js"], .file "require('./b')".toUTF8),
    (["src", "b.js"], .file "".toUTF8)]

theorem movable_neighbours :
    Movable neighbours Settings.standard.extensionPolicy ["r"] ["home", "me"] where
  linkFree := by simp [LinkFree, neighbours]
  named := by decide
  named' := by decide
  noSlash := by decide
  openable place content mem := by
    have all : ∀ item ∈ neighbours, isNameable (pathOf (["r"] ++ item.1)) =
        isNameable (pathOf (["home", "me"] ++ item.1)) := by
      decide
    exact all (place, .file content) mem

theorem selfContained_neighbours :
    SelfContained neighbours Settings.standard.extensionPolicy ⟨"src/a"⟩ ["r"] := by
  have checked : (build (placed neighbours ["r"]) Compiler.standard
      (.new Settings.standard.extensionPolicy) ⟨"src/a"⟩).1.toOption.any (fun graph =>
        graph.modules.all fun record => record.specifiers.all
          (staysInside (namesBelow ["r"] record.path).dropLast)) = true := by
    decide +kernel
  obtain ⟨graph, built, inside⟩ := exists_ok_of_any checked
  exact selfContained_of_build (by decide) (by decide) built inside

/-- Both files are bundled to the same text from either directory, comments included. -/
theorem bundle_relocated_neighbours :
    ∃ made made',
      (bundle (placed neighbours ["r"]) .standard Compiler.standard ⟨"src/a"⟩).1 = .ok made ∧
      (bundle (placed neighbours ["home", "me"]) .standard Compiler.standard ⟨"src/a"⟩).1 =
        .ok made' ∧
      made'.graph = made.graph.moved (relocated ["r"] ["home", "me"]) ∧ made'.code = made.code := by
  have alike := bundle_relocated neighbours .standard ⟨"src/a"⟩ ["r"] ["home", "me"]
    movable_neighbours selfContained_neighbours
  have checked : (bundle (placed neighbours ["r"]) .standard Compiler.standard
      ⟨"src/a"⟩).1.toOption.any (fun made => made.graph.modules.all fun record =>
        made.graph.entryModule?.all fun start =>
          (Resolver.directoryOf start.path).components.isPrefixOf record.path.components) = true := by
    decide +kernel
  obtain ⟨made, succeeds, below⟩ := exists_ok_of_any checked
  rw [succeeds] at alike
  generalize (bundle (placed neighbours ["home", "me"]) .standard Compiler.standard
    ⟨"src/a"⟩).1 = result at alike ⊢
  cases alike with
  | @ok _ made' both =>
    refine ⟨made, made', succeeds, rfl, both.2.1, both.2.2.2 fun start isStart record mem => ?_⟩
    have all := List.all_eq_true.mp below record mem
    rw [Option.all_eq_true] at all
    exact List.isPrefixOf_iff_prefix.mp (all start isStart)

/-- A file, and a directory whose name begins like that of the entry. -/
def besideDirectory : List (List String × FileEntry) :=
  [(["main.x"], .directory), (["main.x", "k.js"], .file "".toUTF8), (["b.js"], .file "1".toUTF8)]

/-- An extension that leads above the root and down again. -/
def winding : Settings :=
  { Settings.standard with extensions := [".x/../../r/b.js"] }

theorem exists_error_of_toOption {α : Type} {result : Except BuildError α}
    (h : result.toOption.isNone = true) : ∃ error, result = .error error := by
  cases result with
  | error error => exact ⟨error, rfl⟩
  | ok value => exact absurd h Bool.false_ne_true

theorem selfContained_besideDirectory :
    SelfContained besideDirectory winding.extensionPolicy ⟨"main"⟩ ["r"] ∧
      SelfContained besideDirectory winding.extensionPolicy ⟨"main"⟩ ["s"] := by
  have checked : (build (placed besideDirectory ["r"]) Compiler.standard
      (.new winding.extensionPolicy) ⟨"main"⟩).1.toOption.any (fun graph =>
        graph.modules.all fun record => record.specifiers.all
          (staysInside (namesBelow ["r"] record.path).dropLast)) = true := by
    decide
  have unfound : ((Resolver.new winding.extensionPolicy).resolveEntry (placed besideDirectory ["s"])
      ⟨"main"⟩).1.toOption.isNone = true := by
    decide
  obtain ⟨graph, built, inside⟩ := exists_ok_of_any checked
  obtain ⟨error, unresolved⟩ := exists_error_of_toOption unfound
  exact ⟨selfContained_of_build (by decide) (by decide) built inside,
    selfContained_of_unresolved (by decide) unresolved⟩

/-- A name of some letters. -/
def letters (count : Nat) : String :=
  String.ofList (List.replicate count 'd')

theorem utf8ByteSize_letters (count : Nat) : (letters count).utf8ByteSize = count := by
  induction count with
  | zero => rfl
  | succ count ih =>
    have longer : letters (count + 1) = "d" ++ letters count := by
      rw [← String.toList_inj]
      simp [letters, List.replicate_succ]
    have letter : "d".utf8ByteSize = 1 := by decide
    rw [longer, String.utf8ByteSize_append, ih, letter, Nat.add_comm]

theorem mem_letters {count : Nat} {c : Char} (h : c ∈ (letters count).toList) : c = 'd' := by
  rw [letters, String.toList_ofList] at h
  exact List.eq_of_mem_replicate h

theorem isName_letters (count : Nat) : IsName (letters (count + 1)) := by
  have first : 'd' ∈ (letters (count + 1)).toList := by
    rw [letters, String.toList_ofList]
    exact List.mem_replicate.mpr ⟨Nat.succ_ne_zero _, rfl⟩
  constructor
  · exact fun slash => absurd (mem_letters slash) (by decide)
  · rw [Bool.eq_false_iff, Ne, isIdle_iff]
    rintro (empty | point)
    · rw [empty] at first
      exact absurd first (by decide)
    · rw [point] at first
      exact absurd first (by decide)
  · intro points
    rw [points] at first
    exact absurd first (by decide)

/-- A directory that can be opened itself, although no path below it can. -/
def deep : List String :=
  List.replicate 15 (letters 255) ++ [letters 253]

theorem mem_deep {name : String} (h : name ∈ deep) : name = letters 255 ∨ name = letters 253 := by
  rcases List.mem_append.mp h with h | h
  · exact .inl (List.eq_of_mem_replicate h)
  · exact .inr (List.mem_singleton.mp h)

theorem isName_deep : ∀ name ∈ deep, IsName name := by
  intro name mem
  rcases mem_deep mem with rfl | rfl
  · exact isName_letters 254
  · exact isName_letters 252

theorem size_deep : (deep.map fun name => name.utf8ByteSize + 1).sum = 4094 := by
  rw [deep, List.map_append, List.map_replicate, List.map_singleton, utf8ByteSize_letters,
    utf8ByteSize_letters]
  decide

theorem isNameable_deep : isNameable (pathOf deep) = true := by
  rw [isNameable_pathOf_iff isName_deep (List.append_ne_nil_of_right_ne_nil _ (by simp)), size_deep]
  refine ⟨by decide, fun name mem => ?_⟩
  have size : name.utf8ByteSize ≤ 255 ∧ ∀ c ∈ name.toList, c = 'd' := by
    rcases mem_deep mem with rfl | rfl
    · exact ⟨by rw [utf8ByteSize_letters], fun c => mem_letters⟩
    · exact ⟨by rw [utf8ByteSize_letters]; decide, fun c => mem_letters⟩
  exact ⟨fun zero => absurd (size.2 _ zero) (by decide), size.1⟩

theorem not_isNameable_below_deep {place : List String} (proper : place ≠ [])
    (named : ∀ name ∈ place, IsName name) : isNameable (pathOf (deep ++ place)) = false := by
  rw [Bool.eq_false_iff, Ne, isNameable_pathOf_iff (List.forall_mem_append.mpr ⟨isName_deep, named⟩)
    (List.append_ne_nil_of_right_ne_nil deep proper)]
  rintro ⟨short, -⟩
  -- a slash and a letter are too much
  obtain ⟨name, others, rfl⟩ := List.exists_cons_of_ne_nil proper
  have letter : 0 < name.utf8ByteSize := by
    rw [Nat.pos_iff_ne_zero, Ne, String.utf8ByteSize_eq_zero_iff]
    intro empty
    apply (named name List.mem_cons_self).ne_nil
    rw [empty]
    rfl
  rw [List.map_append, List.sum_append, size_deep, List.map_cons, List.sum_cons] at short
  omega

/-- Both provisos are needed.  An extension with slashes leads back through the name of the root, and
a directory can be so deep that it can be opened itself and nothing below it can. -/
theorem bundle_tied :
    (LinkFree besideDirectory ∧
      SelfContained besideDirectory winding.extensionPolicy ⟨"main"⟩ ["r"] ∧
      SelfContained besideDirectory winding.extensionPolicy ⟨"main"⟩ ["s"] ∧
      (∃ made, (bundle (placed besideDirectory ["r"]) winding Compiler.standard ⟨"main"⟩).1 =
        .ok made) ∧
      ∃ error, (bundle (placed besideDirectory ["s"]) winding Compiler.standard ⟨"main"⟩).1 =
        .error error) ∧
    (LinkFree neighbours ∧ (∀ name ∈ deep, IsName name) ∧ isNameable (pathOf deep) = true ∧
      SelfContained neighbours Settings.standard.extensionPolicy ⟨"src/a"⟩ ["r"] ∧
      SelfContained neighbours Settings.standard.extensionPolicy ⟨"src/a"⟩ deep ∧
      (∃ made, (bundle (placed neighbours ["r"]) .standard Compiler.standard ⟨"src/a"⟩).1 =
        .ok made) ∧
      ∃ error, (bundle (placed neighbours deep) .standard Compiler.standard ⟨"src/a"⟩).1 =
        .error error) := by
  have windingMade : (bundle (placed besideDirectory ["r"]) winding Compiler.standard
      ⟨"main"⟩).1.toOption.any (fun _ => true) = true := by
    decide +kernel
  have windingFailed : (bundle (placed besideDirectory ["s"]) winding Compiler.standard
      ⟨"main"⟩).1.toOption.isNone = true := by
    decide +kernel
  have made : (bundle (placed neighbours ["r"]) .standard Compiler.standard
      ⟨"src/a"⟩).1.toOption.any (fun _ => true) = true := by
    decide +kernel
  obtain ⟨first, windingMade, -⟩ := exists_ok_of_any windingMade
  obtain ⟨second, made, -⟩ := exists_ok_of_any made
  obtain ⟨error, unresolved⟩ := resolveEntry_of_deep movable_neighbours.linkFree
    movable_neighbours.noSlash isName_deep selfContained_neighbours.opening
    (fun _ => not_isNameable_below_deep)
  have failed : (bundle (placed neighbours deep) .standard Compiler.standard ⟨"src/a"⟩).1 =
      .error error := by
    rw [fst_bundle, build_of_unresolved unresolved]
  exact ⟨⟨by simp [LinkFree, besideDirectory], selfContained_besideDirectory.1,
      selfContained_besideDirectory.2, ⟨first, windingMade⟩, exists_error_of_toOption windingFailed⟩,
    movable_neighbours.linkFree, isName_deep, isNameable_deep, selfContained_neighbours,
    selfContained_of_unresolved selfContained_neighbours.opening unresolved, ⟨second, made⟩,
    error, failed⟩

end Bundling

end ModuleBundler

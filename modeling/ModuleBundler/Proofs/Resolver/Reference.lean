/-
# ModuleBundler.Proofs.Resolver.Reference — what a specifier means, by its text and the files.

The components of the importer's directory and of the specifier are walked by the text alone, and
lead to a place (`target?`).  From the place and the policy come the names to try (`probes`), spelled
out without points.  A new resolver answers with the path, without links, of the first of them that is
a file, and fails if none is (`resolve_reference`).  Only a file so deep below a link that its path
without links is too long cannot be answered with (`resolve_too_deep`).
-/
import Mathlib.Data.List.DropRight
import ModuleBundler.Proofs.Bundling.Location
import ModuleBundler.Proofs.Path.Walking
import ModuleBundler.Proofs.Resolver.Memory

namespace ModuleBundler

open ModuleBundler.Path (Component pieces isIdle trimEnd ofPieces bodyComponents)
open ModuleBundler.FileTree (pathOf descend? stackOf isNameable)

/-! ## The directory of a module -/

namespace Path

theorem bodyComponents_trimEnd (parts : List (List Char)) :
    bodyComponents (trimEnd parts) = bodyComponents parts := by
  have idle : bodyComponents (parts.rtakeWhile isIdle) = [] := by
    rw [bodyComponents, List.map_eq_nil_iff, List.filter_eq_nil_iff]
    intro part mem
    simp [List.mem_rtakeWhile_imp mem]
  have split : trimEnd parts ++ parts.rtakeWhile isIdle = parts :=
    List.rdropWhile_append_rtakeWhile
  conv_rhs => rw [← split, bodyComponents_append, idle, List.append_nil]

theorem noSlash_trimEnd {parts : List (List Char)} (noSlash : ∀ part ∈ parts, '/' ∉ part) :
    ∀ part ∈ trimEnd parts, '/' ∉ part :=
  fun part mem => noSlash part ((List.rdropWhile_prefix isIdle parts).subset mem)

theorem components_of_isAbsolute_eq {path : Path} (absolute : path.isAbsolute = true) :
    path.components = .root :: path.moves := by
  rw [components_eq_lead_append, lead, if_pos absolute]
  rfl

/-- The last piece without idle ones behind it adds the last component. -/
theorem bodyComponents_dropLast_trimEnd (parts : List (List Char)) :
    bodyComponents (trimEnd parts).dropLast = (bodyComponents parts).dropLast := by
  rw [← bodyComponents_trimEnd parts]
  by_cases empty : trimEnd parts = []
  · rw [empty]
    rfl
  · have split := List.dropLast_concat_getLast empty
    have notIdle : isIdle ((trimEnd parts).getLast empty) = false :=
      Bool.eq_false_iff.mpr (List.rdropWhile_last_not isIdle parts empty)
    have last : bodyComponents [(trimEnd parts).getLast empty] =
        [Component.ofPiece ((trimEnd parts).getLast empty)] := by
      simp [bodyComponents, notIdle]
    conv_rhs => rw [← split, bodyComponents_append, last, List.dropLast_concat]

end Path

namespace Resolver

theorem moves_directoryOf {importer : Path} (absolute : importer.isAbsolute = true) :
    (directoryOf importer).moves = importer.moves.dropLast := by
  obtain ⟨rest, text⟩ := (Path.isAbsolute_iff importer).mp absolute
  have body : importer.body = pieces rest := by
    rw [Path.body, if_pos absolute, text, Path.pieces_slash, List.drop_one, List.tail_cons]
  have moves : importer.moves = bodyComponents (pieces rest) := by
    rw [Path.moves, text, Path.pieces_slash]
    rfl
  -- what stands behind the last name goes with it, so one component is left out, not one piece
  have parent : importer.parent? =
      if trimEnd (pieces rest) = [] then none
      else some (ofPieces true (trimEnd (trimEnd (pieces rest)).dropLast)) := by
    rw [Path.parent?, absolute, body, Path.parentPieces?]
    cases trimEnd (pieces rest) with
    | nil => rfl
    | cons first others => simp
  rw [moves, directoryOf, parent, ← Path.bodyComponents_dropLast_trimEnd]
  split
  · rename_i empty
    rw [empty]
    rfl
  · have noSlash : ∀ part ∈ trimEnd (trimEnd (pieces rest)).dropLast, '/' ∉ part :=
      Path.noSlash_trimEnd fun part mem =>
        Path.noSlash_trimEnd (fun _ => Path.slash_not_mem_of_mem_pieces) part
          (List.dropLast_subset _ mem)
    rw [Option.getD_some, Path.moves_ofPieces true noSlash, Path.bodyComponents_trimEnd]

/-! ## The place that is meant -/

/-- What is walked from the root for a specifier of a module: the components of the module's
directory and then those of the specifier, or those of an absolute specifier alone. -/
def walked (importer : Path) (specifier : String) : List Component :=
  if (⟨specifier⟩ : Path).isAbsolute then (⟨specifier⟩ : Path).components.drop 1
  else (importer.components.drop 1).dropLast ++ (⟨specifier⟩ : Path).components

/-- The place that a specifier of a module means by its text; `none` if a component leads above the
root. -/
def target? (importer : Path) (specifier : String) : Option (List String) :=
  descend? [] (walked importer specifier)

end Resolver

namespace FileTree

theorem descend?_append (place : List String) (front back : List Component) :
    descend? place (front ++ back) =
      (descend? place front).bind fun place => descend? place back := by
  induction front generalizing place with
  | nil => rfl
  | cons component front ih =>
    cases component with
    | root => rfl
    | here => exact ih place
    | name text => exact ih (place ++ [text])
    | up =>
      rw [List.cons_append, descend?, descend?]
      split
      · rfl
      · exact ih place.dropLast

/-- A leading point leads nowhere. -/
theorem descend?_components_eq {path : Path} (relative : path.isAbsolute = false)
    (place : List String) : descend? place path.components = descend? place path.moves := by
  rw [Path.components_eq_lead_append, Path.lead, relative, if_neg Bool.false_ne_true]
  split <;> rfl

/-- An absolute path that leads never above the root is the path of a place without points. -/
theorem normalized_of_descend? {path : Path} {place : List String}
    (absolute : path.isAbsolute = true) (descends : descend? [] path.moves = some place) :
    path.normalized = pathOf place := by
  have collapsed : path.moves.foldl Path.collapseStep [.root] = stackOf place :=
    @collapse_descend? [] [] path.moves place descends
  rw [Path.normalized, Path.components_of_isAbsolute_eq absolute, List.foldl_cons]
  show Path.ofComponents (path.moves.foldl Path.collapseStep [.root]).reverse = _
  rw [collapsed, stackOf, List.reverse_reverse]
  show ofPieces true ((place.map Component.name).map Component.text) = _
  rw [List.map_map]
  rfl

end FileTree

namespace Resolver

variable {importer : Path} {specifier : String} {place : List String}

/-- The path that is joined for a specifier leads to the place that is meant. -/
theorem normalized_of_target? (absolute : importer.isAbsolute = true)
    (target : target? importer specifier = some place) :
    ((directoryOf importer).join ⟨specifier⟩).normalized = pathOf place ∧
      ∀ name ∈ place, IsName name := by
  have isDirectory := isAbsolute_directoryOf absolute
  have joinedAbsolute := Path.isAbsolute_join ⟨specifier⟩ isDirectory
  have descends : descend? [] ((directoryOf importer).join ⟨specifier⟩).moves = some place := by
    rw [target?, walked] at target
    split at target
    · -- nothing is left of the directory
      rename_i isAbsolute
      rw [Path.components_of_isAbsolute_eq isAbsolute] at target
      rw [Path.join_of_isAbsolute _ isAbsolute]
      exact target
    · -- the specifier is walked from where the directory leads
      rename_i isRelative
      have relative : (⟨specifier⟩ : Path).isAbsolute = false := Bool.eq_false_iff.mpr isRelative
      have spelled : (directoryOf importer).text ≠ "" := by
        rw [Ne, ← Path.components_eq_nil_iff, Path.components_of_isAbsolute_eq isDirectory]
        exact List.cons_ne_nil _ _
      have joined := Path.components_join relative spelled
      rw [Path.components_of_isAbsolute_eq joinedAbsolute, Path.components_of_isAbsolute_eq isDirectory,
        moves_directoryOf absolute] at joined
      have moves : ((directoryOf importer).join ⟨specifier⟩).moves =
          importer.moves.dropLast ++ (⟨specifier⟩ : Path).moves := (List.cons.inj joined).2
      rw [Path.components_of_isAbsolute_eq absolute, List.drop_one, List.tail_cons,
        FileTree.descend?_append] at target
      simp only [FileTree.descend?_components_eq relative] at target
      rw [moves, FileTree.descend?_append, target]
  refine ⟨FileTree.normalized_of_descend? joinedAbsolute descends, ?_⟩
  exact FileTree.isName_of_descend? (fun _ mem => absurd mem List.not_mem_nil)
    (fun _ => isName_of_mem_bodyComponents) descends

end Resolver

namespace ExtensionPolicy

/-- The names to try for a place, in order: the name of the place if it has an extension, which is a
point behind its first letter, and with each extension of the policy else; then the index files. -/
def probes (policy : ExtensionPolicy) (place : List String) : List Path :=
  let named :=
    if '.' ∈ (place.getLastD "").toList.tail then [pathOf place]
    else policy.extensions.map fun ext => ⟨(pathOf place).text ++ ext⟩
  let indices :=
    if policy.indexFiles then policy.extensions.map fun ext => pathOf (place ++ ["index" ++ ext])
    else []
  named ++ indices

end ExtensionPolicy

namespace Path

/-- A name has an extension if there is a point behind its first letter. -/
theorem isSome_extensionOf?_iff (name : List Char) :
    (extensionOf? name).isSome = true ↔ '.' ∈ name.tail := by
  have split : name.rdropWhile (· != '.') ++ name.rtakeWhile (· != '.') = name :=
    List.rdropWhile_append_rtakeWhile
  have behind : '.' ∉ name.rtakeWhile (· != '.') := fun mem => by
    simpa using List.mem_rtakeWhile_imp mem
  have isSome : (extensionOf? name).isSome = true ↔ 1 < (name.rdropWhile (· != '.')).length := by
    have length := congrArg List.length split
    rw [List.length_append] at length
    rw [extensionOf?]
    show (if (name.rtakeWhile (· != '.')).length + 1 < name.length then _ else _ : Option _).isSome =
      true ↔ _
    split
    · simp; omega
    · simp; omega
  have tail := congrArg List.tail split
  rw [isSome, ← tail]
  cases front : name.rdropWhile (· != '.') with
  | nil => simpa using fun mem => behind (List.mem_of_mem_tail mem)
  | cons first rest =>
    cases rest with
    | nil => simpa using behind
    | cons second more =>
      -- the text that the behind is cut off from ends in a point
      have last := List.rdropWhile_last_not (· != '.') name (by rw [front]; exact List.cons_ne_nil _ _)
      simp only [front, List.getLast_cons_cons] at last
      have mem : '.' ∈ second :: more := by
        have isPoint : (second :: more).getLast (List.cons_ne_nil _ _) = '.' := by simpa using last
        exact isPoint ▸ List.getLast_mem _
      refine ⟨fun _ => List.mem_append_left _ mem, fun _ => ?_⟩
      simp

end Path

namespace ExtensionPolicy

variable {policy : ExtensionPolicy} {place : List String}

theorem extension?_pathOf_iff (named : ∀ name ∈ place, IsName name) :
    (pathOf place).extension?.isSome = true ↔ '.' ∈ (place.getLastD "").toList.tail := by
  by_cases isRoot : place = []
  · rw [isRoot]
    decide
  · obtain ⟨above, last, rfl⟩ : ∃ above last, place = above ++ [last] :=
      ⟨place.dropLast, place.getLast isRoot, (List.dropLast_concat_getLast isRoot).symm⟩
    have lastName : (above ++ [last]).getLastD "" = last := by simp
    rw [FileTree.extension?_pathOf named, Option.isSome_map, Path.isSome_extensionOf?_iff, lastName]

/-- The index file of a place. -/
theorem join_index (named : ∀ name ∈ place, IsName name) (ext : String) :
    (pathOf place).join ⟨"index" ++ ext⟩ = pathOf (place ++ ["index" ++ ext]) := by
  have relative : (⟨"index" ++ ext⟩ : Path).isAbsolute = false := by
    rw [Path.isAbsolute, String.toList_append]
    rfl
  exact FileTree.join_pathOf_of_relative rfl relative named (List.cons_ne_nil _ _)

theorem candidates_eq_probes (policy : ExtensionPolicy) (named : ∀ name ∈ place, IsName name) :
    policy.candidates (pathOf place) = policy.probes place := by
  rw [candidates, probes]
  simp only [extension?_pathOf_iff named, join_index named]

end ExtensionPolicy

namespace Resolver

/-- The first of some candidates that is a file, and the place that it leads to behind links. -/
structure FirstFile (tree : FileTree) (tried : List Path) (candidate : Path) (place : List String) :
    Prop where
  first : ∃ before after, tried = before ++ candidate :: after ∧
    ∀ other ∈ before, tree.isFile other = false
  leads : tree.place? candidate = some place
  isFile : ∃ content, tree.entryAt? place = some (.file content)

variable {tree : FileTree} {policy : ExtensionPolicy} {tried : List Path} {candidate : Path}
  {importer : Path} {specifier : String} {place stop : List String}

theorem isFile_iff {path : Path} : tree.isFile path = true ↔
    ∃ stop content, tree.place? path = some stop ∧ tree.entryAt? stop = some (.file content) := by
  rw [FileTree.isFile, FileTree.find?]
  constructor
  · intro isFile
    split at isFile
    · rename_i content found
      obtain ⟨stop, leads, entry⟩ := Option.bind_eq_some_iff.mp found
      exact ⟨stop, content, leads, entry⟩
    · exact absurd isFile Bool.false_ne_true
  · rintro ⟨stop, content, leads, entry⟩
    rw [leads, Option.bind_some, entry]

theorem FirstFile.find?_eq (h : FirstFile tree tried candidate stop) :
    tried.find? tree.isFile = some candidate := by
  obtain ⟨before, after, split, notFile⟩ := h.first
  obtain ⟨content, isFile⟩ := h.isFile
  rw [List.find?_eq_some_iff_append]
  exact ⟨isFile_iff.mpr ⟨stop, content, h.leads, isFile⟩, before, after, split, fun other mem => by
    rw [notFile other mem]
    rfl⟩

theorem exists_firstFile (h : tried.find? tree.isFile = some candidate) :
    ∃ stop, FirstFile tree tried candidate stop := by
  obtain ⟨isFile, before, after, split, notFile⟩ := List.find?_eq_some_iff_append.mp h
  obtain ⟨stop, content, leads, entry⟩ := isFile_iff.mp isFile
  exact ⟨stop, ⟨before, after, split, fun other mem => by simpa using notFile other mem⟩, leads,
    content, entry⟩

/-- The path without links of the first file. -/
theorem FirstFile.canonical?_eq (h : FirstFile tree tried candidate stop) :
    tree.canonical? candidate = if isNameable (pathOf stop) then some (pathOf stop) else none := by
  rw [FileTree.canonical?, h.leads, Option.map_some, Option.filter_some]

variable {directory path : Path} {given : Option Path}

/-- A search ends with the first file: with its path, if that is short enough. -/
theorem search_of_firstFile
    (h : FirstFile tree (candidates policy directory specifier) candidate stop) :
    search tree policy directory specifier given =
      if isNameable (pathOf stop) then .ok (pathOf stop)
      else .error (.resolution specifier given (.noCanonicalPath candidate)) := by
  unfold search
  dsimp only
  rw [h.find?_eq]
  simp only [h.canonical?_eq]
  by_cases nameable : isNameable (pathOf stop) = true
  · simp only [if_pos nameable]
  · simp only [if_neg nameable]

/-- A search answers with the path of the first file. -/
theorem search_eq_ok_iff_firstFile : search tree policy directory specifier given = .ok path ↔
    ∃ candidate stop, FirstFile tree (candidates policy directory specifier) candidate stop ∧
      path = pathOf stop ∧ isNameable path = true := by
  rw [search_eq_ok_iff]
  constructor
  · rintro ⟨candidate, found, canonical⟩
    obtain ⟨stop, first⟩ := exists_firstFile found
    rw [first.canonical?_eq] at canonical
    split at canonical
    · rename_i nameable
      obtain rfl := Option.some.inj canonical
      exact ⟨candidate, stop, first, rfl, nameable⟩
    · exact absurd canonical nofun
  · rintro ⟨candidate, stop, first, rfl, nameable⟩
    exact ⟨candidate, first.find?_eq, by rw [first.canonical?_eq, if_pos nameable]⟩

/-- A search fails for want of a file, or since the first file has no path that is short enough. -/
theorem search_error_cases {error : BuildError}
    (failed : search tree policy directory specifier given = .error error) :
    (∀ candidate ∈ candidates policy directory specifier, tree.isFile candidate = false) ∧
        error = .resolution specifier given (.noSuchFile (candidates policy directory specifier)) ∨
      ∃ candidate stop, FirstFile tree (candidates policy directory specifier) candidate stop ∧
        isNameable (pathOf stop) = false ∧
        error = .resolution specifier given (.noCanonicalPath candidate) := by
  cases found : (candidates policy directory specifier).find? tree.isFile with
  | none =>
    rw [search_of_unfound given found] at failed
    exact .inl ⟨fun candidate mem => by simpa using List.find?_eq_none.mp found candidate mem,
      (Except.error.inj failed).symm⟩
  | some candidate =>
    obtain ⟨stop, first⟩ := exists_firstFile found
    rw [search_of_firstFile first] at failed
    split at failed
    · exact absurd failed nofun
    · rename_i notNameable
      exact .inr ⟨candidate, stop, first, Bool.eq_false_iff.mpr notNameable,
        (Except.error.inj failed).symm⟩

/-- A search fails with all its candidates exactly if none is a file. -/
theorem search_eq_noSuchFile_iff : search tree policy directory specifier given =
      .error (.resolution specifier given (.noSuchFile (candidates policy directory specifier))) ↔
    ∀ candidate ∈ candidates policy directory specifier, tree.isFile candidate = false := by
  constructor
  · intro failed
    rcases search_error_cases failed with ⟨noFile, -⟩ | ⟨candidate, stop, -, -, other⟩
    · exact noFile
    · exact absurd (BuildError.resolution.inj other).2.2 nofun
  · intro noFile
    apply search_of_unfound
    rw [List.find?_eq_none]
    intro candidate mem
    rw [noFile candidate mem]
    exact Bool.false_ne_true

/-- For a specifier of an absolute module that leads never above the root, a new resolver tries the
names that the place and the policy give, in order.  It answers with the path of the first of them
that is a file: from the root, without links and points, and unless this path is too long.  It fails
with all the names exactly if none is a file. -/
theorem resolve_reference (absolute : importer.isAbsolute = true)
    (target : target? importer specifier = some place) :
    let tried := policy.probes place
    let answer := (resolve tree (new policy) specifier importer).1
    (answer = .error (.resolution specifier (some importer) (.noSuchFile tried)) ↔
        ∀ candidate ∈ tried, tree.isFile candidate = false) ∧
      (∀ path, answer = .ok path ↔ ∃ candidate stop,
        FirstFile tree tried candidate stop ∧ path = pathOf stop ∧ isNameable path = true) ∧
      (∀ path, answer = .ok path → tree.IsCanonicalFile path) ∧
      ∀ error, answer = .error error →
        error = .resolution specifier (some importer) (.noSuchFile tried) ∨
        ∃ candidate stop, FirstFile tree tried candidate stop ∧ isNameable (pathOf stop) = false ∧
          error = .resolution specifier (some importer) (.noCanonicalPath candidate) := by
  obtain ⟨normalized, named⟩ := normalized_of_target? absolute target
  have isTried : candidates policy (directoryOf importer) specifier = policy.probes place := by
    rw [candidates, normalized, ExtensionPolicy.candidates_eq_probes policy named]
  intro tried answer
  have searched : answer =
      search tree policy (directoryOf importer) specifier (some importer) := by
    show ((new policy).resolveFrom tree (directoryOf importer) specifier (some importer)).1 = _
    rw [answer_eq, remembered?_new]
    rfl
  rw [searched]
  refine ⟨?_, fun path => ?_, fun path => isCanonicalFile_of_search (isAbsolute_directoryOf absolute),
    fun error failed => ?_⟩
  · rw [show tried = _ from isTried.symm, search_eq_noSuchFile_iff]
  · rw [show tried = _ from isTried.symm, search_eq_ok_iff_firstFile]
  · rw [show tried = _ from isTried.symm]
    exact (search_error_cases failed).imp_left And.right

/-- A project whose library is a link, and whose module is an index file. -/
def linkedLibrary : FileTree :=
  ⟨[(["p"], .directory), (["p", "lib"], .link "packages/lib"), (["p", "packages"], .directory),
    (["p", "packages", "lib"], .directory), (["p", "packages", "lib", "util"], .directory),
    (["p", "packages", "lib", "util", "index.js"], .file ⟨#[]⟩)], []⟩

theorem resolve_reference_linked :
    (⟨"/p/src/main.js"⟩ : Path).isAbsolute = true ∧
    target? ⟨"/p/src/main.js"⟩ ".././lib//util/" = some ["p", "lib", "util"] ∧
    (resolve linkedLibrary (new ⟨[".ts", ".js"], true⟩) ".././lib//util/" ⟨"/p/src/main.js"⟩).1 =
      .ok ⟨"/p/packages/lib/util/index.js"⟩ ∧
    linkedLibrary.IsCanonicalFile ⟨"/p/packages/lib/util/index.js"⟩ := by
  have absolute : (⟨"/p/src/main.js"⟩ : Path).isAbsolute = true := by decide
  have target : target? ⟨"/p/src/main.js"⟩ ".././lib//util/" = some ["p", "lib", "util"] := by decide
  obtain ⟨-, answered, canonical, -⟩ :=
    @resolve_reference linkedLibrary ⟨[".ts", ".js"], true⟩ _ _ _ absolute target
  have found := (answered ⟨"/p/packages/lib/util/index.js"⟩).mpr
    ⟨⟨"/p/lib/util/index.js"⟩, ["p", "packages", "lib", "util", "index.js"],
      ⟨⟨[⟨"/p/lib/util.ts"⟩, ⟨"/p/lib/util.js"⟩, ⟨"/p/lib/util/index.ts"⟩], [], by decide, by decide⟩,
        by decide, ⟨⟨#[]⟩, by decide⟩⟩, by decide, by decide⟩
  exact ⟨absolute, target, found, canonical _ found⟩

/-! ## Files that are too deep -/

open Bundling (deep isName_deep mem_letters not_isNameable_below_deep)

/-- A link at the root to a directory so deep that no path below it can be opened, and a file in the
directory. -/
def beyondLink : FileTree :=
  ⟨deep.inits.map (fun place => (place, .directory)) ++
    [(["l"], .link (pathOf deep).text), (deep ++ ["x.js"], .file ⟨#[]⟩)], []⟩

theorem entryAt?_beyondLink_along {place : List String} (above : place <+: deep) :
    beyondLink.entryAt? place = some .directory := by
  rw [FileTree.entryAt?]
  split
  · rfl
  · have listed : place ∈ deep.inits := (List.mem_inits _ _).mpr above
    rw [beyondLink, List.find?_append, List.find?_map]
    cases found : deep.inits.find? ((fun entry : List String × FileEntry => entry.1 == place) ∘
        fun place => (place, .directory)) with
    | none => exact absurd (List.find?_eq_none.mp found place listed) (by simp)
    | some other => rfl

theorem entryAt?_beyondLink_aside {place : List String} (notAbove : ¬ place <+: deep) :
    beyondLink.entryAt? place =
      ([(["l"], .link (pathOf deep).text), (deep ++ ["x.js"], .file ⟨#[]⟩)].find?
        fun entry : List String × FileEntry => entry.1 == place).map (·.2) := by
  have unlisted : (deep.inits.map fun place => (place, FileEntry.directory)).find?
      (fun entry => entry.1 == place) = none := by
    rw [List.find?_eq_none]
    intro entry mem same
    obtain ⟨other, listed, rfl⟩ := List.mem_map.mp mem
    exact notAbove (beq_iff_eq.mp same ▸ (List.mem_inits _ _).mp listed)
  have proper : place ≠ [] := fun empty => notAbove (empty ▸ List.nil_prefix)
  rw [FileTree.entryAt?, if_neg (by rwa [List.isEmpty_iff]), beyondLink, List.find?_append, unlisted]
  rfl

theorem isDirectoryAt_beyondLink {place : List String} (above : place <+: deep) :
    beyondLink.isDirectoryAt place = true := by
  rw [FileTree.isDirectoryAt, entryAt?_beyondLink_along above]

theorem grounded_beyondLink {place : List String} (above : place <+: deep) :
    beyondLink.Grounded place := by
  induction place using List.reverseRecOn with
  | nil => exact .root
  | append_singleton place name ih =>
    have before : place <+: deep := (List.prefix_append place [name]).trans above
    exact .down (ih before) (isName_deep name (above.subset (by simp)))
      (isDirectoryAt_beyondLink before) (entryAt?_beyondLink_along above) nofun

theorem entryAt?_beyondLink_link :
    beyondLink.entryAt? ["l"] = some (.link (pathOf deep).text) := by
  have notAbove : ¬ ["l"] <+: deep := fun above => by
    have inside : 'l' ∈ "l".toList := by decide
    rcases Bundling.mem_deep (above.subset List.mem_cons_self) with same | same <;>
      exact absurd (mem_letters (same ▸ inside)) (by decide)
  rw [entryAt?_beyondLink_aside notAbove]
  rfl

theorem entryAt?_beyondLink_file :
    beyondLink.entryAt? (deep ++ ["x.js"]) = some (.file ⟨#[]⟩) := by
  have notAbove : ¬ (deep ++ ["x.js"]) <+: deep := fun above => by
    have length := above.length_le
    rw [List.length_append, List.length_singleton] at length
    omega
  have notLink : (["l"] == deep ++ ["x.js"]) = false := by
    rw [beq_eq_false_iff_ne]
    intro same
    have length := congrArg List.length same
    simp [deep] at length
  rw [entryAt?_beyondLink_aside notAbove, List.find?_cons_of_neg (by simp [notLink]),
    List.find?_cons_of_pos (by simp)]
  rfl

theorem place?_beyondLink : beyondLink.place? ⟨"/l/x.js"⟩ = some (deep ++ ["x.js"]) := by
  have nonempty : deep ≠ [] := List.append_ne_nil_of_right_ne_nil _ (List.cons_ne_nil _ _)
  have toLink : beyondLink.walkPlain [] [.name "l", .name "x.js"] =
      .atLink [] (pathOf deep).text [.name "x.js"] := by
    rw [FileTree.walkPlain, if_pos (isDirectoryAt_beyondLink List.nil_prefix), List.nil_append,
      entryAt?_beyondLink_link]
  have toFile : beyondLink.walkPlain [] (deep.map .name ++ [.name "x.js"]) =
      .arrived (deep ++ ["x.js"]) := by
    rw [FileTree.walkPlain_of_grounded (grounded_beyondLink List.prefix_rfl), FileTree.walkPlain,
      if_pos (isDirectoryAt_beyondLink List.prefix_rfl), entryAt?_beyondLink_file]
    rfl
  have walked : beyondLink.walk true (39 + 1) [] [.name "l", .name "x.js"] =
      .arrived (deep ++ ["x.js"]) := by
    rw [FileTree.walk, toLink]
    dsimp only
    rw [Bool.not_true, Bool.and_false, if_neg Bool.false_ne_true,
      FileTree.startOf_of_isAbsolute (FileTree.isAbsolute_pathOf deep),
      FileTree.steps_pathOf isName_deep nonempty, FileTree.walk_of_arrived toFile]
  have steps : FileTree.steps "/l/x.js".toList = [.name "l", .name "x.js"] := by decide
  have arrived : beyondLink.walkPath true ⟨"/l/x.js"⟩ = .arrived (deep ++ ["x.js"]) := by
    rw [FileTree.walkPath, if_pos (by decide), ← walked, ← steps]
    rfl
  rw [FileTree.place?, arrived]

/-- A file that is found through a link may be too deep to have a path without links; and where the
directory of the module leads above the root, the names that are tried do so too. -/
theorem resolve_too_deep :
    target? ⟨"/main.js"⟩ "./l/x" = some ["l", "x"] ∧
    ExtensionPolicy.standard.probes ["l", "x"] = [⟨"/l/x.js"⟩] ∧
    beyondLink.isFile ⟨"/l/x.js"⟩ = true ∧
    (resolve beyondLink (new .standard) "./l/x" ⟨"/main.js"⟩).1 =
      .error (.resolution "./l/x" (some ⟨"/main.js"⟩) (.noCanonicalPath ⟨"/l/x.js"⟩)) ∧
    (resolve linkedLibrary (new .standard) "./x" ⟨"/../main.js"⟩).1 =
      .error (.resolution "./x" (some ⟨"/../main.js"⟩) (.noSuchFile [⟨"/../x.js"⟩])) := by
  have target : target? ⟨"/main.js"⟩ "./l/x" = some ["l", "x"] := by decide
  have isFile : beyondLink.isFile ⟨"/l/x.js"⟩ = true :=
    isFile_iff.mpr ⟨_, _, place?_beyondLink, entryAt?_beyondLink_file⟩
  have tooLong : isNameable (pathOf (deep ++ ["x.js"])) = false :=
    not_isNameable_below_deep (List.cons_ne_nil _ _) (by decide)
  have tried : candidates .standard (directoryOf ⟨"/main.js"⟩) "./l/x" = [⟨"/l/x.js"⟩] := by decide
  have first : FirstFile beyondLink (candidates .standard (directoryOf ⟨"/main.js"⟩) "./l/x")
      ⟨"/l/x.js"⟩ (deep ++ ["x.js"]) :=
    ⟨⟨[], [], tried, fun _ mem => absurd mem List.not_mem_nil⟩, place?_beyondLink,
      ⟨_, entryAt?_beyondLink_file⟩⟩
  refine ⟨target, by decide, isFile, ?_, by decide⟩
  show ((new .standard).resolveFrom beyondLink _ "./l/x" (some ⟨"/main.js"⟩)).1 = _
  rw [answer_eq, remembered?_new]
  show search beyondLink .standard _ "./l/x" _ = _
  rw [search_of_firstFile first, tooLong, if_neg Bool.false_ne_true]

end Resolver

end ModuleBundler

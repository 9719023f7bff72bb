/-
# ModuleBundler.Proofs.FileTree.Canonical — paths without links and points.

A walk from the root ends at a place that is `Grounded`: every part of the way is a directory, and
no link is left in it.  Spelled out, such a place is a canonical path; walking this path leads to
the same place again (`place?_pathOf`), and two canonical paths with the same components are equal
(`IsCanonicalFile.eq_of_same`).
-/
import ModuleBundler.FileTree
import ModuleBundler.Proofs.Path.Components

namespace ModuleBundler

open ModuleBundler.Path (pieces joined isIdle)

/-- A name that a path can spell as one step down: one piece, which is not empty and no point. -/
structure IsName (name : String) : Prop where
  noSlash : '/' ∉ name.toList
  notIdle : isIdle name.toList = false
  notUp : name.toList ≠ ['.', '.']

namespace FileTree

/-- A place to which a walk without links leads from the root. -/
inductive Grounded (tree : FileTree) : List String → Prop
  | root : Grounded tree []
  | down {place : List String} {name : String} {entry : FileEntry} :
      Grounded tree place → IsName name → tree.isDirectoryAt place = true →
      tree.entryAt? (place ++ [name]) = some entry → (∀ target, entry ≠ .link target) →
      Grounded tree (place ++ [name])

variable {tree : FileTree}

theorem Grounded.isName {place : List String} (h : tree.Grounded place) :
    ∀ name ∈ place, IsName name := by
  induction h with
  | root => exact fun name mem => absurd mem List.not_mem_nil
  | down _ isName _ _ _ ih =>
    intro name mem
    rcases List.mem_append.mp mem with mem | mem
    · exact ih name mem
    · rw [List.mem_singleton.mp mem]
      exact isName

theorem Grounded.dropLast {place : List String} (h : tree.Grounded place) :
    tree.Grounded place.dropLast := by
  cases h with
  | root => exact .root
  | down above _ _ _ _ =>
    rw [List.dropLast_concat]
    exact above

/-! ## Walks -/

/-- The steps of a text go down by names that a path can spell. -/
theorem isName_of_mem_steps {text : List Char} {name : String} (h : .name name ∈ steps text) :
    IsName name := by
  have fromPiece : ∃ piece ∈ pieces text, isIdle piece = false ∧ piece ≠ ['.', '.'] ∧
      name = String.ofList piece := by
    have split : ∃ piece ∈ pieces text, Step.name name =
        if isIdle piece then .here
        else if piece == ['.', '.'] then .up
        else .name (String.ofList piece) := by
      rw [steps] at h
      split at h
      · rename_i cut
        obtain ⟨piece, mem, spelled⟩ := List.mem_map.mp h
        exact ⟨piece, by rw [cut]; exact List.mem_cons_of_mem _ mem, spelled.symm⟩
      · obtain ⟨piece, mem, spelled⟩ := List.mem_map.mp h
        exact ⟨piece, mem, spelled.symm⟩
    obtain ⟨piece, mem, spelled⟩ := split
    refine ⟨piece, mem, ?_⟩
    split at spelled
    · exact absurd spelled Step.noConfusion
    · rename_i notIdle
      split at spelled
      · exact absurd spelled Step.noConfusion
      · rename_i notUp
        exact ⟨Bool.eq_false_iff.mpr notIdle, fun isUp => notUp (beq_iff_eq.mpr isUp),
          Step.name.inj spelled⟩
  obtain ⟨piece, mem, notIdle, notUp, rfl⟩ := fromPiece
  constructor
  · rw [String.toList_ofList]
    exact Path.slash_not_mem_of_mem_pieces mem
  · rw [String.toList_ofList]
    exact notIdle
  · rw [String.toList_ofList]
    exact notUp

/-- The places of a walk's end that the tree has something at. -/
def Walk.place? : Walk → Option (List String)
  | .arrived place => some place
  | .atLink directory _ _ => some directory
  | _ => none

/-- A walk up to the first link stays on grounded places. -/
theorem grounded_walkPlain {place : List String} {left : List Step}
    (grounded : tree.Grounded place) (named : ∀ name, .name name ∈ left → IsName name)
    {stop : List String} (h : (tree.walkPlain place left).place? = some stop) :
    tree.Grounded stop := by
  induction left generalizing place with
  | nil =>
    obtain rfl := Option.some.inj h
    exact grounded
  | cons step left ih =>
    have namedLeft : ∀ name, .name name ∈ left → IsName name := fun name mem =>
      named name (List.mem_cons_of_mem step mem)
    unfold walkPlain at h
    split at h
    · rename_i isDirectory
      cases step with
      | here => exact ih grounded namedLeft h
      | up => exact ih grounded.dropLast namedLeft h
      | name text =>
        dsimp only at h
        split at h
        · exact nomatch h
        · -- a link ends the walk in the directory that it stands in
          obtain rfl := Option.some.inj h
          exact grounded
        · rename_i entry notLink found
          exact ih (.down grounded (named text List.mem_cons_self) isDirectory found
            fun target isLink => notLink target (by rw [isLink])) namedLeft h
    · exact nomatch h

/-- What is left of a walk at a link was there before. -/
theorem left_subset_of_atLink {place directory : List String} {left rest : List Step}
    {target : String} (h : tree.walkPlain place left = .atLink directory target rest) :
    rest ⊆ left := by
  induction left generalizing place with
  | nil => exact absurd h Walk.noConfusion
  | cons step left ih =>
    unfold walkPlain at h
    split at h
    · cases step with
      | here => exact List.subset_cons_of_subset _ (ih h)
      | up => exact List.subset_cons_of_subset _ (ih h)
      | name text =>
        dsimp only at h
        split at h
        · exact absurd h Walk.noConfusion
        · obtain ⟨-, -, rfl⟩ := Walk.atLink.inj h
          exact List.subset_cons_self _ _
        · exact List.subset_cons_of_subset _ (ih h)
    · exact absurd h Walk.noConfusion

theorem grounded_startOf {place : List String} (text : List Char) (h : tree.Grounded place) :
    tree.Grounded (startOf place text) := by
  rw [startOf]
  split
  · exact .root
  · exact h

/-- An absolute path is walked from the root. -/
theorem startOf_of_isAbsolute {place : List String} {path : Path} (h : path.isAbsolute = true) :
    startOf place path.text.toList = [] :=
  if_pos h

/-- A walk that follows links arrives at grounded places. -/
theorem grounded_walk {followsLast : Bool} {links : Nat} {place : List String} {left : List Step}
    (grounded : tree.Grounded place) (named : ∀ name, .name name ∈ left → IsName name)
    {stop : List String} (h : tree.walk followsLast links place left = .arrived stop) :
    tree.Grounded stop := by
  -- on the number of links: behind a link the walk goes on from its directory or from the root
  induction links generalizing place left with
  | zero =>
    rw [walk] at h
    split at h
    · exact absurd h Walk.noConfusion
    · exact grounded_walkPlain grounded named (by rw [h]; rfl)
  | succ links ih =>
    rw [walk] at h
    split at h
    · rename_i directory target rest atLink
      split at h
      · exact absurd h Walk.noConfusion
      · have above : tree.Grounded directory :=
          grounded_walkPlain grounded named (by rw [atLink]; rfl)
        refine ih (grounded_startOf target.toList above) (fun name mem => ?_) h
        rcases List.mem_append.mp mem with mem | mem
        · exact isName_of_mem_steps mem
        · exact named name (left_subset_of_atLink atLink mem)
    · exact grounded_walkPlain grounded named (by rw [h]; rfl)

/-- An absolute path leads to a grounded place, if it leads anywhere. -/
theorem grounded_of_place? {path : Path} {place : List String} (absolute : path.isAbsolute = true)
    (h : tree.place? path = some place) : tree.Grounded place := by
  rw [place?] at h
  split at h
  · rename_i stop arrived
    obtain rfl := Option.some.inj h
    rw [walkPath] at arrived
    split at arrived
    · dsimp only at arrived
      rw [startOf_of_isAbsolute absolute] at arrived
      exact grounded_walk .root (fun name => isName_of_mem_steps) arrived
    · exact absurd arrived Walk.noConfusion
  · exact nomatch h

/-! ## The way back -/

theorem toList_pathOf (place : List String) :
    (pathOf place).text.toList = '/' :: joined (place.map String.toList) :=
  String.toList_ofList

theorem isAbsolute_pathOf (place : List String) : (pathOf place).isAbsolute = true :=
  Path.isAbsolute_ofPieces _

theorem pieces_pathOf {place : List String} (named : ∀ name ∈ place, IsName name)
    (nonempty : place ≠ []) :
    pieces (pathOf place).text.toList = [] :: place.map String.toList := by
  rw [toList_pathOf, Path.pieces_slash, Path.pieces_joined]
  · exact fun h => nonempty (List.map_eq_nil_iff.mp h)
  · intro piece mem
    obtain ⟨name, isNamed, rfl⟩ := List.mem_map.mp mem
    exact (named name isNamed).noSlash

theorem components_pathOf {place : List String} (named : ∀ name ∈ place, IsName name)
    (nonempty : place ≠ []) : (pathOf place).components = .root :: place.map .name := by
  rw [Path.components, pieces_pathOf named nonempty, isAbsolute_pathOf]
  show Path.Component.root :: Path.bodyComponents (place.map String.toList) = _
  congr 1
  clear nonempty
  induction place with
  | nil => rfl
  | cons name place ih =>
    have first := named name List.mem_cons_self
    have others := ih fun other mem => named other (List.mem_cons_of_mem name mem)
    rw [Path.bodyComponents] at others ⊢
    rw [List.map_cons, List.filter_cons_of_pos (by rw [first.notIdle]; rfl), List.map_cons, others,
      Path.Component.ofPiece, if_neg (fun isUp => first.notUp (beq_iff_eq.mp isUp)),
      String.ofList_toList, List.map_cons]

theorem steps_pathOf {place : List String} (named : ∀ name ∈ place, IsName name)
    (nonempty : place ≠ []) : steps (pathOf place).text.toList = place.map .name := by
  rw [steps, pieces_pathOf named nonempty]
  show (place.map String.toList).map _ = _
  rw [List.map_map]
  refine List.map_congr_left fun name mem => ?_
  have isName := named name mem
  rw [Function.comp_apply, if_neg (by rw [isName.notIdle]; exact Bool.false_ne_true),
    if_neg (fun isUp => isName.notUp (beq_iff_eq.mp isUp)), String.ofList_toList]

/-- Walking down to a grounded place meets no link. -/
theorem walkPlain_of_grounded {place : List String} (grounded : tree.Grounded place)
    (left : List Step) :
    tree.walkPlain [] (place.map .name ++ left) = tree.walkPlain place left := by
  induction grounded generalizing left with
  | root => rfl
  | @down place name entry _ _ isDirectory found notLink ih =>
    rw [List.map_append, List.append_assoc, ih]
    show tree.walkPlain place (.name name :: left) = _
    rw [walkPlain.eq_def]
    dsimp only
    rw [if_pos isDirectory, found]
    cases entry with
    | file content => rfl
    | directory => rfl
    | link target => exact absurd rfl (notLink target)

theorem walk_of_arrived {followsLast : Bool} {links : Nat} {place stop : List String}
    {left : List Step} (h : tree.walkPlain place left = .arrived stop) :
    tree.walk followsLast links place left = .arrived stop := by
  cases links with
  | zero => rw [walk, h]
  | succ links => rw [walk, h]

/-- The path of a grounded place leads to the place. -/
theorem place?_pathOf {place : List String} (grounded : tree.Grounded place)
    (nonempty : place ≠ []) (nameable : isNameable (pathOf place) = true) :
    tree.place? (pathOf place) = some place := by
  have arrived : tree.walkPlain [] (place.map .name) = .arrived place := by
    have walked := walkPlain_of_grounded grounded []
    rw [List.append_nil] at walked
    rw [walked, walkPlain]
  rw [place?, walkPath, if_pos nameable]
  dsimp only
  rw [startOf_of_isAbsolute (isAbsolute_pathOf place), steps_pathOf grounded.isName nonempty,
    walk_of_arrived arrived]

/-! ## Canonical paths of files -/

/-- The path of a file, spelled out from the root without links and points. -/
def IsCanonicalFile (tree : FileTree) (path : Path) : Prop :=
  ∃ place content, path = pathOf place ∧ tree.Grounded place ∧
    tree.entryAt? place = some (.file content) ∧ isNameable path = true

theorem ne_nil_of_isFile {place : List String} {content : ByteArray}
    (h : tree.entryAt? place = some (.file content)) : place ≠ [] := by
  rintro rfl
  exact nomatch h

theorem IsCanonicalFile.isAbsolute {path : Path} (h : tree.IsCanonicalFile path) :
    path.isAbsolute = true := by
  obtain ⟨place, -, rfl, -⟩ := h
  exact isAbsolute_pathOf place

/-- A canonical path is spelled out already. -/
theorem IsCanonicalFile.canonical? {path : Path} (h : tree.IsCanonicalFile path) :
    tree.canonical? path = some path := by
  obtain ⟨place, content, rfl, grounded, isFile, nameable⟩ := h
  rw [FileTree.canonical?, place?_pathOf grounded (ne_nil_of_isFile isFile) nameable,
    Option.map_some, Option.filter_some, if_pos nameable]

/-- A canonical path leads to its file. -/
theorem IsCanonicalFile.find? {path : Path} (h : tree.IsCanonicalFile path) :
    ∃ content, tree.find? path = some (.file content) := by
  obtain ⟨place, content, rfl, grounded, isFile, nameable⟩ := h
  refine ⟨content, ?_⟩
  rw [FileTree.find?, place?_pathOf grounded (ne_nil_of_isFile isFile) nameable]
  exact isFile

/-- Canonical paths that have the same components are spelled alike. -/
theorem IsCanonicalFile.eq_of_same {path other : Path} (h : tree.IsCanonicalFile path)
    (h' : tree.IsCanonicalFile other) (same : path.same other = true) : path = other := by
  obtain ⟨place, content, rfl, grounded, isFile, -⟩ := h
  obtain ⟨place', content', rfl, grounded', isFile', -⟩ := h'
  rw [Path.same_iff, components_pathOf grounded.isName (ne_nil_of_isFile isFile),
    components_pathOf grounded'.isName (ne_nil_of_isFile isFile')] at same
  have samePlace : place = place' :=
    List.map_inj_right (fun _ _ => Path.Component.name.inj) |>.mp (List.cons.inj same).2
  rw [samePlace]

/-- A file stands in the list of a tree. -/
theorem pathOf_mem_entries {place : List String} {content : ByteArray}
    (h : tree.entryAt? place = some (.file content)) :
    pathOf place ∈ tree.entries.map fun entry => pathOf entry.1 := by
  rw [entryAt?, if_neg (by rw [List.isEmpty_iff]; exact ne_nil_of_isFile h),
    Option.map_eq_some_iff] at h
  obtain ⟨entry, found, -⟩ := h
  have spelled := List.find?_some found
  exact List.mem_map.mpr ⟨entry, List.mem_of_find?_eq_some found, by rw [beq_iff_eq.mp spelled]⟩

/-- The canonical path of a file spells out the place of the file. -/
theorem place_of_canonical? {path canonical : Path} (isFile : tree.isFile path = true)
    (h : tree.canonical? path = some canonical) :
    ∃ place content, tree.place? path = some place ∧ canonical = pathOf place ∧
      tree.entryAt? place = some (.file content) ∧ isNameable canonical = true := by
  rw [canonical?, Option.filter_eq_some_iff, Option.map_eq_some_iff] at h
  obtain ⟨⟨place, found, rfl⟩, nameable⟩ := h
  rw [FileTree.isFile, FileTree.find?, found, Option.bind_some] at isFile
  split at isFile
  · rename_i content isFileAt
    exact ⟨place, content, found, rfl, isFileAt, nameable⟩
  · exact absurd isFile Bool.false_ne_true

theorem isCanonicalFile_of_canonical? {path canonical : Path} (absolute : path.isAbsolute = true)
    (isFile : tree.isFile path = true) (h : tree.canonical? path = some canonical) :
    tree.IsCanonicalFile canonical := by
  obtain ⟨place, content, found, spelled, isFileAt, nameable⟩ := place_of_canonical? isFile h
  exact ⟨place, content, spelled, grounded_of_place? absolute found, isFileAt, nameable⟩

end FileTree

end ModuleBundler

/-
# ModuleBundler.Proofs.FileTree.Placement — the same files in another directory.

The files of a project, given by their places below a root, are placed in a directory of an
otherwise empty tree (`FileTree.placed`).  If there are no links among them, the path of a place
below the root leads to the place itself or nowhere (`place_eq_of_place?`), and what stands there is
what the project has there, whatever the directory is (`find?_placed`).
-/
import Mathlib.Data.List.Induction
import ModuleBundler.Proofs.FileTree.Spelling

namespace ModuleBundler.FileTree

/-- A tree that holds nothing but some entries below a root, where relative paths start. -/
def placed (project : List (List String × FileEntry)) (root : List String) : FileTree :=
  { entries := (List.range root.length).map (fun depth => (root.take (depth + 1), .directory)) ++
      project.map fun item => (root ++ item.1, item.2)
    workingDirectory := root }

variable {project : List (List String × FileEntry)} {root place : List String}

/-! ## What stands where -/

/-- The directories above a root lead down to it. -/
theorem isDirectoryAt_take (project : List (List String × FileEntry)) (root : List String)
    (depth : Nat) : (placed project root).isDirectoryAt (root.take depth) = true := by
  have entry : (placed project root).entryAt? (root.take depth) = some .directory := by
    rw [entryAt?]
    split
    · rfl
    · rename_i proper
      rw [List.isEmpty_iff, ← List.length_eq_zero_iff, List.length_take] at proper
      -- the first entry for this place is one of the directories above the root
      have listed : ((List.range root.length).map fun depth =>
          (root.take (depth + 1), FileEntry.directory)).find?
            (fun entry => entry.1 == root.take depth) ≠ none := by
        rw [Ne, List.find?_eq_none]
        intro absent
        have mem : min depth root.length - 1 ∈ List.range root.length := by
          rw [List.mem_range]
          omega
        have same : root.take (min depth root.length - 1 + 1) = root.take depth := by
          rw [Nat.sub_add_cancel (by omega), ← List.take_eq_take_min]
        exact absent _ (List.mem_map_of_mem mem) (beq_iff_eq.mpr same)
      obtain ⟨found, isFound⟩ := Option.ne_none_iff_exists'.mp listed
      obtain ⟨_, -, rfl⟩ := List.mem_map.mp (List.mem_of_find?_eq_some isFound)
      rw [placed, List.find?_append, isFound]
      rfl
  rw [isDirectoryAt, entry]

theorem entryAt?_placed (proper : place ≠ []) :
    (placed project root).entryAt? (root ++ place) = (placed project []).entryAt? place := by
  have above : ((List.range root.length).map fun depth =>
      (root.take (depth + 1), FileEntry.directory)).find?
        (fun entry => entry.1 == root ++ place) = none := by
    rw [List.find?_eq_none]
    intro entry mem isFound
    obtain ⟨depth, -, rfl⟩ := List.mem_map.mp mem
    -- a directory above the root has no more names than the root
    have lengths := congrArg List.length (beq_iff_eq.mp isFound)
    rw [List.length_take, List.length_append] at lengths
    have := List.length_pos_iff.mpr proper
    omega
  have tests : ((fun entry : List String × FileEntry => entry.1 == root ++ place) ∘
      fun item : List String × FileEntry => (root ++ item.1, item.2)) =
        (fun entry : List String × FileEntry => entry.1 == place) := by
    funext item
    simp
  rw [entryAt?, entryAt?, if_neg (by simpa using fun _ => proper), if_neg (by simpa using proper),
    placed, placed, List.find?_append, above, Option.none_or, List.find?_map, tests]
  simp [Option.map_map, Function.comp_def]

theorem isDirectoryAt_placed (place : List String) :
    (placed project root).isDirectoryAt (root ++ place) =
      (placed project []).isDirectoryAt place := by
  by_cases isRoot : place = []
  · subst isRoot
    have above := isDirectoryAt_take project root root.length
    rw [List.take_length] at above
    rw [List.append_nil, above]
    rfl
  · rw [isDirectoryAt, isDirectoryAt, entryAt?_placed isRoot]

/-! ## Ways down -/

theorem grounded_concat_iff {tree : FileTree} {name : String} :
    tree.Grounded (place ++ [name]) ↔
      tree.Grounded place ∧ IsName name ∧ tree.isDirectoryAt place = true ∧
        ∃ entry, tree.entryAt? (place ++ [name]) = some entry ∧ ∀ target, entry ≠ .link target := by
  constructor
  · intro grounded
    generalize whole : place ++ [name] = spelled at grounded
    cases grounded with
    | root => exact absurd whole (by simp)
    | @down above last entry grounded isName isDirectory found notLink =>
      obtain ⟨rfl, same⟩ := List.append_inj' whole rfl
      obtain rfl := (List.cons.inj same).1
      exact ⟨grounded, isName, isDirectory, entry, found, notLink⟩
  · rintro ⟨grounded, isName, isDirectory, entry, found, notLink⟩
    exact .down grounded isName isDirectory found notLink

/-- The way from the root of the tree down to the root of a project. -/
theorem grounded_root (named : ∀ name ∈ root, IsName name) :
    (placed project root).Grounded root := by
  have above : ∀ depth ≤ root.length, (placed project root).Grounded (root.take depth) := by
    intro depth
    induction depth with
    | zero => exact fun _ => .root
    | succ depth ih =>
      intro inside
      have step : root.take (depth + 1) = root.take depth ++ [root[depth]] :=
        List.take_succ_eq_append_getElem (by omega)
      have isDirectory := isDirectoryAt_take project root (depth + 1)
      rw [isDirectoryAt, step] at isDirectory
      rw [step, grounded_concat_iff]
      refine ⟨ih (by omega), named _ (List.getElem_mem _), isDirectoryAt_take project root depth,
        .directory, ?_, by simp⟩
      split at isDirectory
      · assumption
      · exact absurd isDirectory Bool.false_ne_true
  have whole := above root.length (Nat.le_refl _)
  rwa [List.take_length] at whole

/-- Below the root of a project, ways down are those of the project. -/
theorem grounded_placed_iff (named : ∀ name ∈ root, IsName name) :
    (placed project root).Grounded (root ++ place) ↔ (placed project []).Grounded place := by
  induction place using List.reverseRecOn with
  | nil =>
    rw [List.append_nil]
    exact ⟨fun _ => .root, fun _ => grounded_root named⟩
  | append_singleton above name ih =>
    rw [← List.append_assoc, grounded_concat_iff, grounded_concat_iff, ih, isDirectoryAt_placed,
      List.append_assoc, entryAt?_placed (List.append_ne_nil_of_right_ne_nil above (by simp))]

/-! ## Trees without links -/

/-- Entries among which there is no link. -/
def LinkFree (project : List (List String × FileEntry)) : Prop :=
  ∀ item ∈ project, ∀ target, item.2 ≠ .link target

theorem entryAt?_ne_link (linkFree : LinkFree project) (place : List String) (target : String) :
    (placed project root).entryAt? place ≠ some (.link target) := by
  intro isLink
  rw [entryAt?] at isLink
  split at isLink
  · exact absurd isLink (by simp)
  · obtain ⟨entry, found, same⟩ := Option.map_eq_some_iff.mp isLink
    rcases List.mem_append.mp (List.mem_of_find?_eq_some found) with mem | mem
    · obtain ⟨depth, -, rfl⟩ := List.mem_map.mp mem
      exact absurd same (by simp)
    · obtain ⟨item, listed, rfl⟩ := List.mem_map.mp mem
      exact linkFree item listed target same

/-- A walk down by names ends where they lead, or does not arrive. -/
theorem walkPlain_names (linkFree : LinkFree project) (names : List String) :
    (∃ directory name left, (placed project root).walkPlain place (names.map .name) =
        .missing directory name left) ∨
      (placed project root).walkPlain place (names.map .name) = .stuck ∨
      (placed project root).walkPlain place (names.map .name) = .arrived (place ++ names) := by
  induction names generalizing place with
  | nil =>
    rw [List.append_nil]
    exact .inr (.inr rfl)
  | cons name names ih =>
    have later := @ih (place ++ [name])
    rw [List.append_assoc, List.singleton_append] at later
    rw [List.map_cons, walkPlain]
    split
    · split
      · exact .inl ⟨_, _, _, rfl⟩
      · rename_i target isLink
        exact absurd isLink (entryAt?_ne_link linkFree _ target)
      · exact later
    · exact .inr (.inl rfl)

theorem walk_eq_walkPlain {tree : FileTree} {followsLast : Bool} {links : Nat} {left : List Step}
    (noLink : ∀ directory target rest, tree.walkPlain place left ≠ .atLink directory target rest) :
    tree.walk followsLast links place left = tree.walkPlain place left := by
  cases links with
  | zero =>
    rw [walk]
    split
    · rename_i atLink
      exact absurd atLink (noLink _ _ _)
    · rfl
  | succ links =>
    rw [walk]
    split
    · rename_i atLink
      exact absurd atLink (noLink _ _ _)
    · rfl

/-- Without links, the path of a place leads there or nowhere. -/
theorem place?_placed_iff (linkFree : LinkFree project) (named : ∀ name ∈ place, IsName name)
    (proper : place ≠ []) {stop : List String} :
    (placed project root).place? (pathOf place) = some stop ↔
      stop = place ∧ (placed project root).Grounded place ∧ isNameable (pathOf place) = true := by
  constructor
  · intro found
    have grounded := grounded_of_place? (isAbsolute_pathOf place) found
    rw [place?, walkPath] at found
    split at found
    · rename_i arrived
      split at arrived
      · rename_i nameable
        dsimp only at arrived
        have ends := @walkPlain_names _ root [] linkFree place
        rw [startOf_of_isAbsolute (isAbsolute_pathOf place), steps_pathOf named proper,
          walk_eq_walkPlain ?_] at arrived
        · rw [arrived] at ends
          obtain rfl := Option.some.inj found
          obtain rfl : _ = place := by simpa using ends
          exact ⟨rfl, grounded, nameable⟩
        · intro directory target rest isLink
          rw [isLink] at ends
          exact absurd ends (by simp)
      · exact absurd arrived (by simp)
    · exact absurd found (by simp)
  · rintro ⟨rfl, grounded, nameable⟩
    exact place?_pathOf grounded proper nameable

theorem isFile_iff {tree : FileTree} {path : Path} :
    tree.isFile path = true ↔ ∃ content, tree.find? path = some (.file content) := by
  rw [isFile]
  split
  · rename_i content found
    simp [found]
  · rename_i other
    simpa using other

/-- A project has a file at a place: the way there leads through directories. -/
def HasFile (project : List (List String × FileEntry)) (place : List String)
    (content : ByteArray) : Prop :=
  (placed project []).Grounded place ∧ (placed project []).entryAt? place = some (.file content)

/-- What the path of a place leads to is what the project has at the place, wherever the project
stands; only the path has to be short enough there. -/
theorem find?_placed (linkFree : LinkFree project) (named : ∀ name ∈ root ++ place, IsName name)
    (proper : place ≠ []) {content : ByteArray} :
    (placed project root).find? (pathOf (root ++ place)) = some (.file content) ↔
      HasFile project place content ∧ isNameable (pathOf (root ++ place)) = true := by
  have above : ∀ name ∈ root, IsName name := fun name mem =>
    named name (List.mem_append_left place mem)
  rw [find?, Option.bind_eq_some_iff, HasFile]
  simp only [place?_placed_iff linkFree named (List.append_ne_nil_of_right_ne_nil root proper),
    grounded_placed_iff above]
  constructor
  · rintro ⟨_, ⟨rfl, grounded, nameable⟩, found⟩
    rw [entryAt?_placed proper] at found
    exact ⟨⟨grounded, found⟩, nameable⟩
  · rintro ⟨⟨grounded, found⟩, nameable⟩
    rw [← entryAt?_placed proper] at found
    exact ⟨_, ⟨rfl, grounded, nameable⟩, found⟩

end ModuleBundler.FileTree

/-
# ModuleBundler.Proofs.FileTree.Writing — what writing leaves as it was.

Writing a text makes the directories above a path and puts a file to where the path leads, through
links if there are any.  Whatever stood in the tree still stands afterwards, though a file may hold
something else (`Grows`), so a path that led somewhere leads to the same place (`Grows.place?`).
All that is different are new directories and the texts, each in the file that its path leads to
(`Writes`); a text stays there unless another one is written to the same file (`Writes.holds`).
-/
import ModuleBundler.Proofs.FileTree.Canonical

namespace ModuleBundler

/-- What stands at a place, whatever a file holds. -/
def FileEntry.bare : FileEntry → FileEntry
  | .file _ => .file .empty
  | other => other

namespace FileTree

/-- What stands in a tree still stands in another one, though files may hold something else. -/
structure Grows (tree after : FileTree) : Prop where
  workingDirectory : after.workingDirectory = tree.workingDirectory
  stands : ∀ place entry, tree.entryAt? place = some entry →
    ∃ later, after.entryAt? place = some later ∧ later.bare = entry.bare

variable {tree between after : FileTree} {place directory stop : List String} {left rest : List Step}
  {path : Path} {text : String} {texts others : List (Path × String)}

namespace Grows

theorem link (grows : tree.Grows after) {target : String}
    (h : tree.entryAt? place = some (.link target)) :
    after.entryAt? place = some (.link target) := by
  obtain ⟨later, found, same⟩ := grows.stands place _ h
  cases later with
  | link other =>
    rw [found]
    exact congrArg some same
  | file content => exact absurd same FileEntry.noConfusion
  | directory => exact absurd same FileEntry.noConfusion

theorem isDirectoryAt (grows : tree.Grows after) (h : tree.isDirectoryAt place = true) :
    after.isDirectoryAt place = true := by
  rw [FileTree.isDirectoryAt] at h ⊢
  split at h
  · rename_i isDirectory
    obtain ⟨later, found, same⟩ := grows.stands place _ isDirectory
    cases later with
    | directory => rw [found]
    | file content => exact absurd same FileEntry.noConfusion
    | link target => exact absurd same FileEntry.noConfusion
  · exact absurd h Bool.false_ne_true

/-- Where a walk can go on it still can. -/
theorem stands_solid (grows : tree.Grows after) {entry : FileEntry}
    (h : tree.entryAt? place = some entry) (solid : ∀ target, entry ≠ .link target) :
    ∃ later, after.entryAt? place = some later ∧ ∀ target, later ≠ .link target := by
  obtain ⟨later, found, same⟩ := grows.stands place entry h
  refine ⟨later, found, ?_⟩
  rintro target rfl
  cases entry with
  | link other => exact solid other rfl
  | file content => exact absurd same FileEntry.noConfusion
  | directory => exact absurd same FileEntry.noConfusion

end Grows

/-! ## Walks -/

theorem walkPlain_here (isDirectory : tree.isDirectoryAt place = true) :
    tree.walkPlain place (.here :: left) = tree.walkPlain place left := by
  rw [walkPlain, if_pos isDirectory]

theorem walkPlain_up (isDirectory : tree.isDirectoryAt place = true) :
    tree.walkPlain place (.up :: left) = tree.walkPlain place.dropLast left := by
  rw [walkPlain, if_pos isDirectory]

theorem walkPlain_stuck {step : Step} (noDirectory : tree.isDirectoryAt place ≠ true) :
    tree.walkPlain place (step :: left) = .stuck := by
  rw [walkPlain.eq_def]
  exact if_neg noDirectory

/-- A step down over something that is no link. -/
theorem walkPlain_name {name : String} {entry : FileEntry}
    (isDirectory : tree.isDirectoryAt place = true)
    (found : tree.entryAt? (place ++ [name]) = some entry) (solid : ∀ target, entry ≠ .link target) :
    tree.walkPlain place (.name name :: left) = tree.walkPlain (place ++ [name]) left := by
  rw [walkPlain, if_pos isDirectory, found]
  cases entry with
  | link target => exact absurd rfl (solid target)
  | file content => rfl
  | directory => rfl

/-- A walk that gets somewhere gets there as well when the tree has grown. -/
theorem Grows.walkPlain_eq (grows : tree.Grows after)
    (h : (tree.walkPlain place left).place? = some stop) :
    after.walkPlain place left = tree.walkPlain place left := by
  induction left generalizing place with
  | nil => rfl
  | cons step left ih =>
    by_cases isDirectory : tree.isDirectoryAt place = true
    · cases step with
      | here =>
        rw [walkPlain_here isDirectory] at h ⊢
        rw [walkPlain_here (grows.isDirectoryAt isDirectory)]
        exact ih h
      | up =>
        rw [walkPlain_up isDirectory] at h ⊢
        rw [walkPlain_up (grows.isDirectoryAt isDirectory)]
        exact ih h
      | name name =>
        cases found : tree.entryAt? (place ++ [name]) with
        | none =>
          rw [walkPlain, if_pos isDirectory, found] at h
          exact absurd h.symm (Option.some_ne_none stop)
        | some entry =>
          by_cases isLink : ∃ target, entry = .link target
          · -- a link is the same in both trees, and ends the plain walk
            obtain ⟨target, rfl⟩ := isLink
            rw [walkPlain, if_pos (grows.isDirectoryAt isDirectory), grows.link found, walkPlain,
              if_pos isDirectory, found]
          · have solid : ∀ target, entry ≠ .link target := fun target same => isLink ⟨target, same⟩
            obtain ⟨later, found', solid'⟩ := grows.stands_solid found solid
            rw [walkPlain_name isDirectory found solid] at h ⊢
            rw [walkPlain_name (grows.isDirectoryAt isDirectory) found' solid']
            exact ih h
    · rw [walkPlain_stuck isDirectory] at h
      exact absurd h.symm (Option.some_ne_none stop)

theorem Grows.walk_eq (grows : tree.Grows after) {followsLast : Bool} {links : Nat}
    (h : tree.walk followsLast links place left = .arrived stop) :
    after.walk followsLast links place left = .arrived stop := by
  induction links generalizing place left with
  | zero =>
    rw [walk] at h
    split at h
    · exact absurd h Walk.noConfusion
    · have same := grows.walkPlain_eq (by rw [h]; rfl)
      exact walk_of_arrived (same.trans h)
  | succ links ih =>
    rw [walk] at h
    split at h
    · rename_i directory target rest atLink
      have same := grows.walkPlain_eq (by rw [atLink]; rfl)
      split at h
      · exact absurd h Walk.noConfusion
      · rename_i follows
        rw [walk, same, atLink]
        dsimp only
        rw [if_neg follows]
        exact ih h
    · have same := grows.walkPlain_eq (by rw [h]; rfl)
      exact walk_of_arrived (same.trans h)

theorem place?_eq_some_iff :
    tree.place? path = some place ↔ tree.walkPath true path = .arrived place := by
  rw [place?]
  split
  · rename_i stop arrived
    rw [arrived]
    constructor
    · exact fun same => congrArg Walk.arrived (Option.some.inj same)
    · exact fun same => congrArg some (Walk.arrived.inj same)
  · rename_i elsewhere
    constructor
    · exact fun same => absurd same.symm (Option.some_ne_none place)
    · exact fun arrived => absurd arrived (elsewhere place)

/-- A path that led somewhere leads to the same place when the tree has grown. -/
theorem Grows.place? (grows : tree.Grows after)
    (h : tree.place? path = some place) : after.place? path = some place := by
  rw [place?_eq_some_iff, walkPath] at h ⊢
  split at h
  · rename_i nameable
    rw [if_pos nameable]
    dsimp only at h ⊢
    rw [grows.workingDirectory]
    exact grows.walk_eq h
  · exact absurd h Walk.noConfusion

/-! ## What is missing -/

theorem entryAt?_of_walkPlain_missing {name : String}
    (h : tree.walkPlain place left = .missing directory name rest) :
    tree.entryAt? (directory ++ [name]) = none := by
  induction left generalizing place with
  | nil => exact absurd h Walk.noConfusion
  | cons step left ih =>
    unfold walkPlain at h
    split at h
    · cases step with
      | here => exact ih h
      | up => exact ih h
      | name text =>
        dsimp only at h
        split at h
        · rename_i isMissing
          obtain ⟨rfl, rfl, -⟩ := Walk.missing.inj h
          exact isMissing
        · exact absurd h Walk.noConfusion
        · exact ih h
    · exact absurd h Walk.noConfusion

theorem entryAt?_of_walk_missing {followsLast : Bool} {links : Nat} {name : String}
    (h : tree.walk followsLast links place left = .missing directory name rest) :
    tree.entryAt? (directory ++ [name]) = none := by
  induction links generalizing place left with
  | zero =>
    rw [walk] at h
    split at h
    · exact absurd h Walk.noConfusion
    · exact entryAt?_of_walkPlain_missing h
  | succ links ih =>
    rw [walk] at h
    split at h
    · split at h
      · exact absurd h Walk.noConfusion
      · exact ih h
    · exact entryAt?_of_walkPlain_missing h

theorem entryAt?_of_walkPath_missing {followsLast : Bool} {name : String}
    (h : tree.walkPath followsLast path = .missing directory name rest) :
    tree.entryAt? (directory ++ [name]) = none := by
  rw [walkPath] at h
  split at h
  · exact entryAt?_of_walk_missing h
  · exact absurd h Walk.noConfusion

/-- A walk that only missed the last name arrives when something stands there. -/
theorem Grows.walkPlain_arrives (grows : tree.Grows after) {name : String} {entry : FileEntry}
    (h : tree.walkPlain place left = .missing directory name [])
    (found : after.entryAt? (directory ++ [name]) = some entry)
    (solid : ∀ target, entry ≠ .link target) :
    after.walkPlain place left = .arrived (directory ++ [name]) := by
  induction left generalizing place with
  | nil => exact absurd h Walk.noConfusion
  | cons step left ih =>
    by_cases isDirectory : tree.isDirectoryAt place = true
    · cases step with
      | here =>
        rw [walkPlain_here isDirectory] at h
        rw [walkPlain_here (grows.isDirectoryAt isDirectory)]
        exact ih h
      | up =>
        rw [walkPlain_up isDirectory] at h
        rw [walkPlain_up (grows.isDirectoryAt isDirectory)]
        exact ih h
      | name text =>
        rw [walkPlain, if_pos isDirectory] at h
        split at h
        · obtain ⟨rfl, rfl, rfl⟩ := Walk.missing.inj h
          rw [walkPlain_name (grows.isDirectoryAt isDirectory) found solid, walkPlain]
        · exact absurd h Walk.noConfusion
        · rename_i before notLink found'
          obtain ⟨later, stands, solid'⟩ := grows.stands_solid found' fun target isLink =>
            notLink target (by rw [isLink])
          rw [walkPlain_name (grows.isDirectoryAt isDirectory) stands solid']
          exact ih h
    · rw [walkPlain_stuck isDirectory] at h
      exact absurd h Walk.noConfusion

theorem Grows.walk_arrives (grows : tree.Grows after) {followsLast : Bool} {links : Nat}
    {name : String} {entry : FileEntry}
    (h : tree.walk followsLast links place left = .missing directory name [])
    (found : after.entryAt? (directory ++ [name]) = some entry)
    (solid : ∀ target, entry ≠ .link target) :
    after.walk followsLast links place left = .arrived (directory ++ [name]) := by
  induction links generalizing place left with
  | zero =>
    rw [walk] at h
    split at h
    · exact absurd h Walk.noConfusion
    · exact walk_of_arrived (grows.walkPlain_arrives h found solid)
  | succ links ih =>
    rw [walk] at h
    split at h
    · rename_i atLink
      have same := grows.walkPlain_eq (by rw [atLink]; rfl)
      split at h
      · exact absurd h Walk.noConfusion
      · rename_i follows
        rw [walk, same, atLink]
        dsimp only
        rw [if_neg follows]
        exact ih h
    · exact walk_of_arrived (grows.walkPlain_arrives h found solid)

/-! ## Changes -/

/-- What is put where nothing of another kind stood. -/
theorem grows_put {entry : FileEntry} (proper : place ≠ [])
    (fits : ∀ old, tree.entryAt? place = some old → old.bare = entry.bare) :
    tree.Grows (tree.put place entry) where
  workingDirectory := rfl
  stands other old found := by
    by_cases same : other = place
    · subst same
      exact ⟨entry, entryAt?_put_self tree entry proper, (fits old found).symm⟩
    · exact ⟨old, (entryAt?_put_of_ne tree entry same).trans found, rfl⟩

/-- Nothing stands at a place, or a file. -/
def IsOpen (tree : FileTree) (place : List String) : Prop :=
  ∀ old, tree.entryAt? place = some old → ∃ content, old = .file content

/-- A path leads to a place with a file that holds a text. -/
structure Holds (tree : FileTree) (path : Path) (text : String) (place : List String) : Prop where
  arrives : tree.place? path = some place
  entryAt? : tree.entryAt? place = some (.file text.toUTF8)

theorem Holds.find? (holds : tree.Holds path text place) :
    tree.find? path = some (.file text.toUTF8) := by
  rw [FileTree.find?, holds.arrives]
  exact holds.entryAt?

/-- All that is different at a place: a new directory, or one of some texts in the file that its
path leads to. -/
inductive Change (texts : List (Path × String)) (tree after : FileTree) (place : List String) : Prop
  | same : after.entryAt? place = tree.entryAt? place → Change texts tree after place
  | directory : tree.entryAt? place = none → after.entryAt? place = some .directory →
      Change texts tree after place
  | text {path : Path} {text : String} : (path, text) ∈ texts → tree.IsOpen place →
      after.Holds path text place → Change texts tree after place

/-- The only differences are new directories, and texts in the files that their paths lead to. -/
structure Writes (texts : List (Path × String)) (tree after : FileTree) : Prop where
  workingDirectory : after.workingDirectory = tree.workingDirectory
  change : ∀ place, Change texts tree after place

namespace Writes

theorem refl (texts : List (Path × String)) (tree : FileTree) : Writes texts tree tree :=
  ⟨rfl, fun _ => .same rfl⟩

theorem mono (subset : texts ⊆ others) (writes : Writes texts tree after) :
    Writes others tree after where
  workingDirectory := writes.workingDirectory
  change place := by
    cases writes.change place with
    | same same => exact .same same
    | directory free made => exact .directory free made
    | text mem isOpen holds => exact .text (subset mem) isOpen holds

theorem grows (writes : Writes texts tree after) : tree.Grows after where
  workingDirectory := writes.workingDirectory
  stands place entry found := by
    cases writes.change place with
    | same same => exact ⟨entry, same.trans found, rfl⟩
    | directory free made => exact absurd (found.symm.trans free) nofun
    | text mem isOpen holds =>
      obtain ⟨content, rfl⟩ := isOpen entry found
      exact ⟨_, holds.entryAt?, rfl⟩

/-- A text stays in its file unless another one is written there. -/
theorem holds (writes : Writes texts tree after) (holds : tree.Holds path text place) :
    after.Holds path text place ∨
      ∃ other later, (other, later) ∈ texts ∧ after.Holds other later place := by
  cases writes.change place with
  | same same =>
    left
    exact ⟨writes.grows.place? holds.arrives, same.trans holds.entryAt?⟩
  | directory free made => exact absurd (holds.entryAt?.symm.trans free) nofun
  | text mem isOpen later =>
    right
    exact ⟨_, _, mem, later⟩

theorem trans (first : Writes texts tree between) (second : Writes others between after) :
    Writes (texts ++ others) tree after where
  workingDirectory := second.workingDirectory.trans first.workingDirectory
  change place := by
    cases first.change place with
    | same same =>
      cases second.change place with
      | same same' => exact .same (same'.trans same)
      | directory free made => exact .directory (same.symm.trans free) made
      | text mem isOpen holds =>
        refine .text (List.mem_append_right _ mem) ?_ holds
        rw [IsOpen, ← same]
        exact isOpen
    | directory free made =>
      cases second.change place with
      | same same => exact .directory free (same.trans made)
      | directory free' made' => exact .directory free made'
      | text mem isOpen holds =>
        -- no text is put where a directory stands
        obtain ⟨content, isFile⟩ := isOpen _ made
        exact absurd isFile FileEntry.noConfusion
    | text mem isOpen holds =>
      -- a text of the first writing may be overwritten by one of the second
      rcases second.holds holds with holds | ⟨other, later, mem', holds⟩
      · exact .text (List.mem_append_left _ mem) isOpen holds
      · exact .text (List.mem_append_right _ mem') isOpen holds

end Writes

/-- A path that is written to leads to one place then, where a file stood or nothing. -/
theorem exists_place_of_write? (h : tree.write? path text.toUTF8 = some after) :
    ∃ place, place ≠ [] ∧ tree.IsOpen place ∧ after = tree.put place (.file text.toUTF8) ∧
      after.place? path = some place := by
  rw [write?] at h
  split at h
  · rename_i place arrived
    split at h
    · rename_i before found
      obtain rfl := Option.some.inj h
      have proper : place ≠ [] := ne_nil_of_isFile found
      have isOpen : tree.IsOpen place := fun old isOld =>
        ⟨before, Option.some.inj (isOld.symm.trans found)⟩
      refine ⟨place, proper, isOpen, rfl, ?_⟩
      -- the path leads to where it led before
      apply Grows.place? _ (place?_eq_some_iff.mpr arrived)
      apply grows_put proper
      intro old isOld
      obtain ⟨_, rfl⟩ := isOpen old isOld
      rfl
    · exact absurd h.symm (Option.some_ne_none after)
  · rename_i directory name missing
    obtain rfl := Option.some.inj h
    have free := entryAt?_of_walkPath_missing missing
    have nothing : ∀ old, tree.entryAt? (directory ++ [name]) ≠ some old := fun old isOld =>
      Option.some_ne_none old (isOld.symm.trans free)
    have proper : directory ++ [name] ≠ [] := List.concat_ne_nil name directory
    have grows : tree.Grows (tree.put (directory ++ [name]) (.file text.toUTF8)) :=
      grows_put proper fun old isOld => absurd isOld (nothing old)
    refine ⟨directory ++ [name], proper, fun old isOld => absurd isOld (nothing old), rfl, ?_⟩
    -- the path led nowhere before, but all that was missing is its last name
    rw [walkPath] at missing
    split at missing
    · rename_i nameable
      rw [place?_eq_some_iff, walkPath, if_pos nameable]
      exact grows.walk_arrives missing (entryAt?_put_self tree _ proper)
        fun _ => FileEntry.noConfusion
    · exact absurd missing Walk.noConfusion
  · exact absurd h.symm (Option.some_ne_none after)

/-- A file that is written stands where its path leads, in the place of a file or of nothing. -/
theorem writes_of_write? (h : tree.write? path text.toUTF8 = some after) :
    Writes [(path, text)] tree after ∧ ∃ place, after.Holds path text place := by
  obtain ⟨place, proper, isOpen, rfl, arrives⟩ := exists_place_of_write? h
  have holds : (tree.put place (.file text.toUTF8)).Holds path text place :=
    ⟨arrives, entryAt?_put_self tree _ proper⟩
  refine ⟨⟨rfl, fun other => ?_⟩, place, holds⟩
  by_cases same : other = place
  · subst same
    exact .text (List.mem_singleton.mpr rfl) isOpen holds
  · exact .same (entryAt?_put_of_ne tree _ same)

/-! ## Directories -/

theorem writes_of_makeDirectory (h : tree.makeDirectory path = .made after) :
    Writes [] tree after := by
  rw [makeDirectory] at h
  split at h
  · rename_i directory name left missing
    split at h
    · obtain rfl := Made.made.inj h
      refine ⟨rfl, fun place => ?_⟩
      by_cases same : place = directory ++ [name]
      · subst same
        apply Change.directory (entryAt?_of_walkPath_missing missing)
        exact entryAt?_put_self tree _ (List.concat_ne_nil name directory)
      · exact .same (entryAt?_put_of_ne tree _ same)
    · exact absurd h Made.noConfusion
  · exact absurd h Made.noConfusion

/-- Whether it succeeds or not, making directories makes nothing else. -/
theorem writes_makeDirectoriesFrom (tree : FileTree) (steps : Nat) (path : Path) :
    Writes [] tree (tree.makeDirectoriesFrom steps path).2 := by
  induction steps generalizing path with
  | zero => exact .refl [] tree
  | succ steps ih =>
    rw [makeDirectoriesFrom]
    split
    · exact .refl [] tree
    · split
      · rename_i made
        exact writes_of_makeDirectory made
      · exact .refl [] tree
      · split
        · exact .refl [] tree
        · rename_i parent isParent
          have above := ih parent
          split
          · rename_i failed
            rw [failed] at above
            exact above
          · rename_i succeeded
            rw [succeeded] at above
            split
            · rename_i made
              exact above.trans (writes_of_makeDirectory made)
            · exact above

theorem writes_makeParents (tree : FileTree) (path : Path) :
    Writes [] tree (tree.makeParents path).2 := by
  rw [makeParents]
  split
  · exact .refl [] tree
  · exact writes_makeDirectoriesFrom tree _ _

end FileTree

end ModuleBundler

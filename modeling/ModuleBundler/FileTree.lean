/-
# ModuleBundler.FileTree — files, directories and links.

A tree of files as a value: what stands at every place below the root.  A path is walked from the
root or from the working directory, one step after another; a step below something that is no
directory leads nowhere, and a link is replaced by the steps of its target.  A walk follows a
bounded number of links, so it ends also where links lead in a circle.
-/
import ModuleBundler.Path

namespace ModuleBundler

/-- Contents are compared as the core library does it, whatever else is imported. -/
instance (priority := 2000) contentDecidableEq : DecidableEq ByteArray :=
  ByteArray.instDecidableEq

/-- What stands at a place. -/
inductive FileEntry
  | file (content : ByteArray)
  | directory
  /-- a link to what a path names, taken from the directory of the link -/
  | link (target : String)
  deriving DecidableEq

/-- What stands at the places below the root, and the directory that relative paths start from. -/
structure FileTree where
  entries : List (List String × FileEntry)
  workingDirectory : List String
  deriving DecidableEq

namespace FileTree

/-- One step of a walk. -/
inductive Step
  /-- stay, in a directory -/
  | here
  | up
  | name (text : String)
  deriving DecidableEq, Repr

/-- The steps of a text, in which slashes separate them. -/
def steps (text : List Char) : List Step :=
  let pieces := Path.pieces text
  let ofPiece (piece : List Char) : Step :=
    if Path.isIdle piece then .here
    else if piece == ['.', '.'] then .up
    else .name (String.ofList piece)
  match pieces with
  | [] :: others => others.map ofPiece
  | pieces => pieces.map ofPiece

/-- What stands at a place; the root is a directory. -/
def entryAt? (tree : FileTree) (place : List String) : Option FileEntry :=
  if place.isEmpty then some .directory
  else (tree.entries.find? fun entry => entry.1 == place).map (·.2)

def isDirectoryAt (tree : FileTree) (place : List String) : Bool :=
  match tree.entryAt? place with
  | some .directory => true
  | _ => false

/-- Where a walk without links ends. -/
inductive Walk
  /-- at a place where something stands -/
  | arrived (place : List String)
  /-- in a directory that has no entry of a name, with the steps that were left -/
  | missing (directory : List String) (name : String) (left : List Step)
  /-- at a link in a directory, with the steps that were left -/
  | atLink (directory : List String) (target : String) (left : List Step)
  /-- below something that is no directory -/
  | stuck
  deriving DecidableEq, Repr

/-- Walks steps from a place up to the first link. -/
def walkPlain (tree : FileTree) (place : List String) : List Step → Walk
  | [] => .arrived place
  | step :: left =>
    if tree.isDirectoryAt place then
      match step with
      | .here => walkPlain tree place left
      | .up => walkPlain tree place.dropLast left
      | .name text =>
        match tree.entryAt? (place ++ [text]) with
        | none => .missing place text left
        | some (.link target) => .atLink place target left
        | some _ => walkPlain tree (place ++ [text]) left
    else .stuck

/-- Where the steps of a text start: at the root or at a place. -/
def startOf (place : List String) (text : List Char) : List String :=
  if text.head? == some '/' then [] else place

/-- Walks steps from a place and follows a number of links on the way; a link at the very end only
where that is asked for. -/
def walk (tree : FileTree) (followsLast : Bool) :
    (links : Nat) → (place : List String) → List Step → Walk
  | 0, place, steps =>
    match tree.walkPlain place steps with
    | .atLink _ _ _ => .stuck
    | result => result
  | links + 1, place, left =>
    match tree.walkPlain place left with
    | .atLink directory target left =>
      if left.isEmpty && !followsLast then .stuck
      else
        let text := target.toList
        walk tree followsLast links (startOf directory text) (steps text ++ left)
    | result => result

/-- How many links a walk follows. -/
def maxLinks : Nat := 40

/-- Whether the names of a path, and the path as a whole, are short enough to exist. -/
def isNameable (path : Path) : Bool :=
  path.text.utf8ByteSize < 4096 && !path.text.isEmpty && !path.text.toList.contains '\x00' &&
    (Path.pieces path.text.toList).all fun piece => (String.ofList piece).utf8ByteSize ≤ 255

/-- Walks a path; a link at its end only where that is asked for. -/
def walkPath (tree : FileTree) (followsLast : Bool) (path : Path) : Walk :=
  if isNameable path then
    let text := path.text.toList
    tree.walk followsLast maxLinks (startOf tree.workingDirectory text) (steps text)
  else .stuck

/-- The place that a path leads to. -/
def place? (tree : FileTree) (path : Path) : Option (List String) :=
  match tree.walkPath true path with
  | .arrived place => some place
  | _ => none

/-- What a path leads to. -/
def find? (tree : FileTree) (path : Path) : Option FileEntry :=
  (tree.place? path).bind tree.entryAt?

def isFile (tree : FileTree) (path : Path) : Bool :=
  match tree.find? path with
  | some (.file _) => true
  | _ => false

def isDirectory (tree : FileTree) (path : Path) : Bool :=
  match tree.find? path with
  | some .directory => true
  | _ => false

/-- The path of a place, from the root and without links. -/
def pathOf (place : List String) : Path :=
  Path.ofPieces true (place.map String.toList)

/-- The path from the root, without links, of what a path leads to; a path that links shorten may
have none, if it is too long when it is spelled out. -/
def canonical? (tree : FileTree) (path : Path) : Option Path :=
  ((tree.place? path).map pathOf).filter isNameable

/-- The directory that relative paths start from. -/
def workingPath (tree : FileTree) : Path :=
  pathOf tree.workingDirectory

/-! ## Changes -/

/-- Puts an entry at a place, instead of what stood there. -/
def put (tree : FileTree) (place : List String) (entry : FileEntry) : FileTree :=
  { tree with entries := (tree.entries.filter fun other => other.1 != place) ++ [(place, entry)] }

theorem entryAt?_put_self (tree : FileTree) {place : List String} (entry : FileEntry)
    (h : place ≠ []) : entryAt? (tree.put place entry) place = some entry := by
  have stale : (tree.entries.filter fun other => other.1 != place).find?
      (fun other => other.1 == place) = none := by
    simp [List.find?_eq_none]
  simp [entryAt?, put, h, List.find?_append, stale]

/-- Nothing else changes. -/
theorem entryAt?_put_of_ne (tree : FileTree) {place other : List String} (entry : FileEntry)
    (h : other ≠ place) : entryAt? (tree.put place entry) other = tree.entryAt? other := by
  have same : (fun e : List String × FileEntry => !decide (e.1 = place) && decide (e.1 = other)) =
      fun e => e.1 == other := by
    funext e
    by_cases he : e.1 = other <;> simp [he, h]
  unfold entryAt? put
  split
  · rfl
  · simp [List.find?_append, List.find?_filter, same, Ne.symm h]

/-- Takes away what stands at a place. -/
def erase (tree : FileTree) (place : List String) : FileTree :=
  { tree with entries := tree.entries.filter fun other => other.1 != place }

/-- Writes a file, through links and in a directory that exists; `none` where that is impossible. -/
def write? (tree : FileTree) (path : Path) (content : ByteArray) : Option FileTree :=
  match tree.walkPath true path with
  | .arrived place =>
    match tree.entryAt? place with
    | some (.file _) => some (tree.put place (.file content))
    | _ => none
  | .missing directory name [] => some (tree.put (directory ++ [name]) (.file content))
  | _ => none

/-- What comes of making one directory. -/
inductive Made
  | made (tree : FileTree)
  /-- the directory above is missing -/
  | noParent
  | failed

/-- Makes a directory in a directory that exists. -/
def makeDirectory (tree : FileTree) (path : Path) : Made :=
  match tree.walkPath false path with
  | .missing directory name left =>
    if left.all (· == .here) then .made (tree.put (directory ++ [name]) .directory) else .noParent
  | _ => .failed

/-- Makes a directory and those above it that are missing: whether it is there then, and the tree
with all that could be made.  The steps are bounded by the length of the path. -/
def makeDirectoriesFrom (tree : FileTree) : (steps : Nat) → Path → Bool × FileTree
  | 0, _ => (false, tree)
  | steps + 1, path =>
    if path.text.isEmpty then (true, tree)
    else
      match tree.makeDirectory path with
      | .made tree => (true, tree)
      | .failed => (tree.isDirectory path, tree)
      | .noParent =>
        match path.parent? with
        | none => (false, tree)
        | some parent =>
          match makeDirectoriesFrom tree steps parent with
          | (false, tree) => (false, tree)
          | (true, tree) =>
            match tree.makeDirectory path with
            | .made tree => (true, tree)
            | _ => (tree.isDirectory path, tree)

/-- Makes a directory and those above it that are missing: whether it is there then, and the tree
with all that could be made. -/
def makeDirectories (tree : FileTree) (path : Path) : Bool × FileTree :=
  tree.makeDirectoriesFrom (path.text.length + 1) path

/-- Makes the directories above what a path names: whether they are there then, and the tree with
all that could be made. -/
def makeParents (tree : FileTree) (path : Path) : Bool × FileTree :=
  match path.parent? with
  | none => (true, tree)
  | some parent => tree.makeDirectories parent

/-- Makes a link where nothing stands yet. -/
def makeLink? (tree : FileTree) (path : Path) (target : String) : Option FileTree :=
  match tree.walkPath false path with
  | .missing directory name [] => some (tree.put (directory ++ [name]) (.link target))
  | _ => none

/-- Takes away the file that a path leads to, or the link that it names. -/
def remove? (tree : FileTree) (path : Path) : Option FileTree :=
  match path.fileName? with
  | none => none
  | some name =>
    match tree.place? (path.parent?.getD ⟨""⟩ |>.join ⟨"."⟩) with
    | none => none
    | some directory =>
      match tree.entryAt? (directory ++ [name]) with
      | none => none
      | some .directory => none
      | some _ => some (tree.erase (directory ++ [name]))

end FileTree

end ModuleBundler

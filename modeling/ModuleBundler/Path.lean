/-
# ModuleBundler.Path — names of files.

A path is a text in which slashes separate components.  It is printed as it was given, but what it
means lies in its components: repeated slashes, a slash at the end and single points in the middle
add none.  A leading point of a relative path is a component, and so is the root.
-/

namespace ModuleBundler

/-- The name of a file. -/
structure Path where
  text : String
  deriving DecidableEq, Repr

namespace Path

/-- A part of a path. -/
inductive Component
  /-- the root directory -/
  | root
  /-- a leading point -/
  | here
  /-- the directory above -/
  | up
  | name (text : String)
  deriving DecidableEq, Repr

/-- The pieces of a text between slashes; there is one more than there are slashes. -/
def pieces : List Char → List (List Char)
  | [] => [[]]
  | c :: rest =>
    if c = '/' then [] :: pieces rest
    else
      match pieces rest with
      | [] => [[c]]
      | first :: others => (c :: first) :: others

/-- Joins pieces by slashes. -/
def joined : List (List Char) → List Char
  | [] => []
  | [piece] => piece
  | piece :: pieces => piece ++ '/' :: joined pieces

/-- Even the empty text has a piece. -/
theorem pieces_ne_nil (text : List Char) : pieces text ≠ [] := by
  cases text with
  | nil => simp [pieces]
  | cons c rest =>
    unfold pieces
    split
    · simp
    · split <;> simp

/-- Pieces that add no component: empty ones and single points. -/
def isIdle (piece : List Char) : Bool :=
  piece == [] || piece == ['.']

/-- The component that a piece is behind the first one. -/
def Component.ofPiece (piece : List Char) : Component :=
  if piece == ['.', '.'] then .up else .name (String.ofList piece)

/-- The components of the pieces behind the first. -/
def bodyComponents (pieces : List (List Char)) : List Component :=
  (pieces.filter fun piece => !isIdle piece).map Component.ofPiece

/-- Whether a path begins at the root. -/
def isAbsolute (path : Path) : Bool :=
  path.text.toList.head? == some '/'

/-- The components of a path. -/
def components (path : Path) : List Component :=
  match pieces path.text.toList with
  | [] => []
  | first :: others =>
    if path.isAbsolute then .root :: bodyComponents others
    else if first == ['.'] then .here :: bodyComponents others
    else bodyComponents (first :: others)

/-- Whether two paths have the same components. -/
def same (a b : Path) : Bool :=
  a.components == b.components

theorem same_iff (a b : Path) : a.same b = true ↔ a.components = b.components := by
  simp [same]

theorem same_refl (path : Path) : path.same path = true := by
  simp [same]

theorem same_comm (a b : Path) : a.same b = b.same a := by
  simp [same, BEq.comm]

/-- The last component, if it is a name. -/
def fileName? (path : Path) : Option String :=
  match path.components.getLast? with
  | some (.name text) => some text
  | _ => none

/-- What stands behind the last point of a file name; a point at the start of the name does not
count. -/
def extensionOf? (name : List Char) : Option (List Char) :=
  let behind := (name.reverse.takeWhile (· != '.')).reverse
  if behind.length + 1 < name.length then some behind else none

/-- The extension of the file name of a path. -/
def extension? (path : Path) : Option String :=
  match path.fileName? with
  | none => none
  | some name => (extensionOf? name.toList).map String.ofList

/-- Pieces without the idle ones at their end. -/
def trimEnd (pieces : List (List Char)) : List (List Char) :=
  (pieces.reverse.dropWhile isIdle).reverse

/-- The pieces of a path behind the root, the first of a relative path included, and whether that
first one counts although it is a point. -/
def body (path : Path) : List (List Char) :=
  let all := pieces path.text.toList
  if path.isAbsolute then all.drop 1 else all

/-- Pieces without the last component, where there is one.  A point that leads a relative path is a
component. -/
def parentPieces? (isAbsolute : Bool) (pieces : List (List Char)) :
    Option (List (List Char)) :=
  match trimEnd pieces with
  | [] => if !isAbsolute && pieces.head? == some ['.'] then some [] else none
  | trimmed =>
    let shorter := trimEnd trimmed.dropLast
    some (if shorter.isEmpty && !isAbsolute && trimmed.length > 1 && trimmed.head? == some ['.']
      then [['.']] else shorter)

/-- The path of pieces, behind the root or relative. -/
def ofPieces (isAbsolute : Bool) (pieces : List (List Char)) : Path :=
  let text := joined pieces
  ⟨String.ofList (if isAbsolute then '/' :: text else text)⟩

/-- The path without its last component, as it is written. -/
def parent? (path : Path) : Option Path :=
  (parentPieces? path.isAbsolute path.body).map (ofPieces path.isAbsolute)

/-- Drops pieces up to a number of components. -/
def dropNames : (count : Nat) → List (List Char) → List (List Char)
  | 0, pieces => pieces
  | _, [] => []
  | count + 1, piece :: pieces =>
    if isIdle piece then dropNames (count + 1) pieces else dropNames count pieces

/-- What is left of a path behind a base that its components begin with, as it is written. -/
def relativeTo? (path base : Path) : Option Path :=
  let ours := path.components
  let theirs := base.components
  if theirs.isPrefixOf ours then
    let written := trimEnd path.body
    match theirs with
    | [] => some (ofPieces path.isAbsolute
        (if written.isEmpty && path.components == [.here] then [['.']] else written))
    | .root :: names => some (ofPieces false ((dropNames names.length written).dropWhile isIdle))
    | .here :: names =>
      some (ofPieces false ((dropNames names.length (written.drop 1)).dropWhile isIdle))
    | names => some (ofPieces false ((dropNames names.length written).dropWhile isIdle))
  else none

/-- A path taken from a directory: an absolute one stands for itself. -/
def join (base path : Path) : Path :=
  if path.isAbsolute then path
  else
    let front := base.text.toList
    if front.isEmpty then path
    else if front.getLast? == some '/' then ⟨base.text ++ path.text⟩
    else ⟨base.text ++ "/" ++ path.text⟩

/-- How a component is written. -/
def Component.text : Component → List Char
  | .root => []
  | .here => ['.']
  | .up => ['.', '.']
  | .name text => text.toList

/-- The path of some components, written without anything idle. -/
def ofComponents : List Component → Path
  | .root :: others => ofPieces true (others.map Component.text)
  | components => ofPieces false (components.map Component.text)

/-- Adds a component to a path that is kept without points: one that leads up takes the last
component away if there is one besides the root. -/
def collapseStep (stack : List Component) : Component → List Component
  | .here => stack
  | .up =>
    match stack with
    | [] => [.up]
    | [.root] => [.up, .root]
    | _ :: below => below
  | component => component :: stack

/-- The path without points, found from its text alone. -/
def normalized (path : Path) : Path :=
  ofComponents (path.components.foldl collapseStep []).reverse

end Path

end ModuleBundler

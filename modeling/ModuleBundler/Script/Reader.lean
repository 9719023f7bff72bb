/-
# ModuleBundler.Script.Reader — reading a script lexeme by lexeme.

A reader looks at one lexeme at a time and either passes over it or refuses it.  To refuse ends the
reading; a complaint is kept in the state, and the reading goes on, because what is wrong is clear
and what was meant is too.  The state holds the text that is left, the lexeme that stands at its
front, the complaints, and the surroundings that some words depend on: whether a function may be
left by `return`, what `await` and `yield` mean, and whether `in` is an operator.

A reader may go back to where it was before.  Then everything is as it was but for its `Notes`,
which say what has been seen of the script at all.

The grammar is recursive, and its productions are written without recursion: a production gets a
`Grammar`, which reads any `Goal`.  The knot is tied once, by recursion on a number of steps that
the text's length bounds.
-/
import ModuleBundler.Script.Node
import ModuleBundler.Script.Scan

namespace ModuleBundler.Script

/-- What the text around a construct decides about it. -/
structure Surroundings where
  /-- whether `await` is always an operator -/
  canAwait : Bool
  /-- whether `yield` is always an operator -/
  canYield : Bool
  canReturn : Bool
  inIsOperator : Bool
  isDecorator : Bool
  /-- whether the construct stands outside of every function -/
  isOutermost : Bool
  deriving DecidableEq, Repr

/-- What has been seen of a script, also where the reader has gone back since. -/
structure Notes where
  comments : Scan.Comments
  /-- whether something was read that only modules have -/
  isModule : Bool
  /-- whether `await` was read as a name outside of every function -/
  namesAwait : Bool
  /-- the first loop outside of every function that waits for its elements although `await` was
  not always an operator there -/
  waitingLoop : Option Nat
  /-- the import and export declarations outside of every function, the last one first -/
  declarations : List Node
  /-- where parentheses begin that hold no parameters -/
  groups : List Nat

/-- Where a reader stands. -/
structure ReaderState where
  lexeme : Lexeme
  /-- the text from the lexeme on -/
  here : List Char
  /-- the text behind the lexeme -/
  rest : List Char
  /-- where the lexeme before ends -/
  previousStop : Nat
  surroundings : Surroundings
  /-- what is wrong with lexemes, the last one first -/
  lexicalFaults : List SyntaxError
  /-- the complaints, the last one first -/
  complaints : List SyntaxError
  notes : Notes

/-- Reads a part of a script, or refuses it. -/
abbrev Reader (α : Type) := EStateM SyntaxError ReaderState α

/-- Where a statement stands: in a list, or alone, where it may declare nothing for the rest of a
block. -/
inductive Place
  | list
  | alone
  deriving DecidableEq, Repr

/-- The recursive constructs of the grammar. -/
inductive Goal
  /-- a list of operands between commas -/
  | expression
  /-- an operand that may assign -/
  | assignment
  /-- operands and operators that bind tighter than a level -/
  | binary (level : Nat)
  /-- an operand with its leading and trailing operators, the first of which stands at a position -/
  | unary (start : Nat)
  /-- an operand with its members and calls -/
  | operand
  /-- an operand behind `new`, up to its arguments -/
  | callee
  | statement (place : Place)
  /-- what a declaration binds -/
  | pattern
  deriving DecidableEq, Repr

/-- Reads every goal, and bounds the length of lists. -/
structure Grammar where
  steps : Nat
  read : Goal → Reader Node

/-- The state with a scanned lexeme at the front. -/
def ReaderState.place (state : ReaderState) (scanned : Scan.Scanned) : ReaderState :=
  { state with
    lexeme := scanned.lexeme
    here := scanned.here
    rest := scanned.rest
    lexicalFaults := scanned.faults ++ state.lexicalFaults
    notes := { state.notes with comments := state.notes.comments.append scanned.comments } }

namespace Reader

/-! ## Refusing and complaining -/

/-- Reports a fault at a position and reads no further. -/
def failAt {α : Type} (position : Nat) (fault : SyntaxFault) : Reader α :=
  throw ⟨position, fault⟩

/-- Reports a fault at the lexeme that stands at the front and reads no further. -/
def fail {α : Type} (fault : SyntaxFault) : Reader α := do
  failAt (← get).lexeme.span.start fault

/-- Refuses the lexeme that stands at the front.  Where that is no lexeme at all, what is wrong with
it says more. -/
def unexpected {α : Type} : Reader α := do
  let state ← get
  match state.lexeme.token, state.lexicalFaults with
  | .done, fault :: others | .broken, fault :: others =>
    set { state with lexicalFaults := others }
    throw fault
  | _, _ => fail .unexpectedToken

/-- Reports a fault at a position and goes on. -/
def complainAt (position : Nat) (fault : SyntaxFault) : Reader Unit :=
  modify fun state => { state with complaints := ⟨position, fault⟩ :: state.complaints }

/-- Reports a fault at the lexeme that stands at the front and goes on. -/
def complain (fault : SyntaxFault) : Reader Unit := do
  complainAt (← get).lexeme.span.start fault

/-- Takes down something that has been seen. -/
def note (change : Notes → Notes) : Reader Unit :=
  modify fun state => { state with notes := change state.notes }

/-! ## Lexemes -/

def token : Reader Token := do
  return (← get).lexeme.token

/-- Where the lexeme at the front begins. -/
def position : Reader Nat := do
  return (← get).lexeme.span.start

/-- Whether a line ends before the lexeme at the front. -/
def afterNewline : Reader Bool := do
  return (← get).lexeme.newlineBefore

/-- Passes over the lexeme at the front. -/
def advance : Reader Unit :=
  modify fun state =>
    let stop := state.lexeme.span.stop
    { state with previousStop := stop }.place (Scan.lexeme state.rest stop false)

/-- Reads the slash at the front as a regular expression. -/
def rescanRegex : Reader Unit :=
  modify fun state =>
    state.place (Scan.regex state.here state.lexeme.span.start state.lexeme.newlineBefore)

/-- Reads the brace at the front as the end of a substitution in a template. -/
def rescanChunk : Reader Unit :=
  modify fun state =>
    state.place (Scan.chunk state.here state.lexeme.span.start state.lexeme.newlineBefore)

/-- The lexeme at the front as written. -/
def written : Reader String := do
  let state ← get
  return String.ofList (state.here.take (state.lexeme.span.stop - state.lexeme.span.start))

/-! ## Going back -/

/-- Reads something and goes back to before it. -/
def look {α : Type} (reader : Reader α) : Reader α := fun state =>
  match reader state with
  | .ok result after => .ok result { state with notes := after.notes }
  | .error error after => .error error { state with notes := after.notes }

/-- Reads something that need not be there, and goes back to before it where it is refused. -/
def attempt {α : Type} (reader : Reader α) : Reader (Option α) := fun state =>
  match reader state with
  | .ok result after => .ok (some result) after
  | .error _ after => .ok none { state with notes := after.notes }

/-- The lexeme behind the one at the front. -/
def next : Reader Lexeme :=
  look do
    advance
    return (← get).lexeme

/-- The two lexemes behind the one at the front. -/
def ahead : Reader (Lexeme × Lexeme) :=
  look do
    advance
    return ((← get).lexeme, ← next)

/-- Whether no lexeme is left: the text ends, or goes on with characters that are no token. -/
def atEnd : Reader Bool := do
  match ← token with
  | .done | .broken => return true
  | _ => return false

/-! ## Marks and words -/

def atMark (mark : Mark) : Reader Bool := do
  return (← token) == .mark mark

/-- Passes over a mark if it stands at the front. -/
def eatMark (mark : Mark) : Reader Bool := do
  if ← atMark mark then
    advance
    return true
  return false

/-- Passes over a mark that has to stand at the front. -/
def expectMark (mark : Mark) : Reader Unit := do
  unless ← eatMark mark do
    fail .unexpectedToken

/-- Whether a word stands at the front, with or without escapes. -/
def atWord (word : String) : Reader Bool := do
  match ← token with
  | .word text _ => return text == word
  | _ => return false

/-- Passes over a mark or a keyword, which should have no escapes. -/
def advanceKeyword : Reader Unit := do
  match ← token with
  | .word _ true => complain .escapedKeyword
  | _ => pure ()
  advance

def eatWord (word : String) : Reader Bool := do
  if ← atWord word then
    advanceKeyword
    return true
  return false

def expectWord (word : String) : Reader Unit := do
  unless ← eatWord word do
    fail .unexpectedToken

/-- The words that are never names. -/
def reservedWords : List String :=
  ["break", "case", "catch", "class", "const", "continue", "debugger", "default", "delete", "do",
    "else", "enum", "export", "extends", "false", "finally", "for", "function", "if", "import",
    "in", "instanceof", "new", "null", "return", "super", "switch", "this", "throw", "true",
    "try", "typeof", "var", "void", "while", "with"]

/-- Whether a lexeme is a word that is not reserved. -/
def isNameLike (lexeme : Lexeme) : Bool :=
  match lexeme.token with
  | .word text _ => !reservedWords.contains text
  | _ => false

/-- Whether a name stands at the front. -/
def atName : Reader Bool := do
  return isNameLike (← get).lexeme

/-- Complains of a name at a position that is an operator there.  Outside of every function it is
taken down that `await` is a name, because that is wrong in a module, and whether the script is one
may not be known yet. -/
def checkName (position : Nat) (word : String) : Reader Unit := do
  let around := (← get).surroundings
  if word == "await" then
    if around.canAwait then complainAt position .misplacedWord
    else if around.isOutermost then note fun notes => { notes with namesAwait := true }
  else if word == "yield" && around.canYield then complainAt position .misplacedWord

/-- Reads the lexeme at the front as a leaf, as it is written. -/
def atom (leaf : String → Leaf) : Reader Node := do
  let span := (← get).lexeme.span
  let text ← written
  advance
  return .leaf span (leaf text)

/-- Reads a name and makes a leaf of it. -/
def name (leaf : String → Leaf) : Reader Node := do
  match ← token with
  | .word text _ =>
    if reservedWords.contains text then unexpected
    checkName (← position) text
    atom fun _ => leaf text
  | _ => unexpected

/-- Ends a statement: by a semicolon, or where a line, a block or the text ends. -/
def semicolon : Reader Unit := do
  if ← eatMark .semicolon then return
  if ← afterNewline then return
  match ← token with
  | .mark .closeBrace => return
  | .done => return
  | _ => failAt (← get).previousStop .missingSemicolon

/-- Whether a statement may end before the lexeme at the front. -/
def mayEnd : Reader Bool := do
  if ← afterNewline then return true
  match ← token with
  | .mark .closeBrace | .mark .semicolon | .done => return true
  | _ => return false

/-! ## Branches, lists and surroundings -/

/-- A branch that began at a position and ends behind the last lexeme read. -/
def branch (start : Nat) (form : Form) (parts : List Node) : Reader Node := do
  return .branch ⟨start, (← get).previousStop⟩ form parts

/-- Reads in other surroundings. -/
def within {α : Type} (change : Surroundings → Surroundings) (reader : Reader α) : Reader α := do
  let around := (← get).surroundings
  modify fun state => { state with surroundings := change around }
  let result ← reader
  modify fun state => { state with surroundings := around }
  return result

/-- Reads where `in` is an operator. -/
def withIn {α : Type} (reader : Reader α) : Reader α :=
  within (fun around => { around with inIsOperator := true }) reader

/-- Reads inside brackets, where `in` is an operator and a decorator may go on. -/
def bracketed {α : Type} (reader : Reader α) : Reader α :=
  within (fun around => { around with inIsOperator := true, isDecorator := false }) reader

/-- Reads items until there are no more, behind those that were read before, the last one first. -/
def gather {α : Type} (item : Reader (Option α)) : (steps : Nat) → (before : List α) →
    Reader (List α)
  | 0, _ => fail .tooDeep
  | steps + 1, before => do
    match ← item with
    | none => return before.reverse
    | some found => gather item steps (found :: before)

/-- Reads items until there are no more. -/
def many {α : Type} (steps : Nat) (item : Reader (Option α)) : Reader (List α) :=
  gather item steps []

/-- Reads items between commas up to a closing mark, behind those that were read before, the last
one first: all items, and where a comma stands behind the last one. -/
def separated {α : Type} (close : Mark) (item : Reader α) : (steps : Nat) → (before : List α) →
    Reader (List α × Option Nat)
  | 0, _ => fail .tooDeep
  | steps + 1, before => do
    let items := (← item) :: before
    if ← atMark close then return (items.reverse, none)
    let comma ← position
    expectMark .comma
    if ← atMark close then return (items.reverse, some comma)
    separated close item steps items

/-- Reads a list of items between commas and the mark that closes it: the items, and where a comma
stands behind the last one. -/
def list {α : Type} (steps : Nat) (close : Mark) (item : Reader α) :
    Reader (List α × Option Nat) := do
  if ← eatMark close then return ([], none)
  if ← atEnd then fail .unexpectedToken
  let found ← separated close item steps []
  expectMark close
  return found

end Reader

end ModuleBundler.Script

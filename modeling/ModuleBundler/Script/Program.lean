/-
# ModuleBundler.Script.Program — reading a whole script.

`Program.read` turns a text into a tree, or reports the first fault.  It ties the knot of the
grammar: every production reads the goals below it with one step less, and the number of steps that
the length of the text allows is more than a text of that length needs.

A script is a module if it has something that only modules have, and this may come late.  In a
module `await` is no name: behind what makes the script a module it is an operator, and the
statements before that have it as a name are read again.
-/
import ModuleBundler.Script.Grammar.Statement

namespace ModuleBundler.Script

/-- Reads a goal with the steps that are left for the goals below it. -/
def Grammar.production (g : Grammar) : Goal → Reader Node
  | .expression => Grammar.expression g
  | .assignment => Grammar.assignment g
  | .binary level => Grammar.binary g level
  | .unary start => Grammar.unary g start
  | .operand => Grammar.operand g
  | .callee => Grammar.callee g
  | .statement place => Grammar.statement g place
  | .pattern => Grammar.pattern g

/-- Reads a goal in a bounded number of steps. -/
def Grammar.readGoal : (steps : Nat) → Goal → Reader Node
  | 0, _ => Reader.fail .tooDeep
  | steps + 1, goal => Grammar.production ⟨steps + 1, Grammar.readGoal steps⟩ goal

/-- The grammar with a bounded number of steps. -/
def Grammar.bounded (steps : Nat) : Grammar :=
  ⟨steps, Grammar.readGoal steps⟩

/-- The steps that a text of some length gets; every character opens a few goals at most. -/
def stepsFor (length : Nat) : Nat :=
  8 * length + 64

/-- The surroundings outside of every function. -/
def Surroundings.outermost : Surroundings :=
  { canAwait := false, canYield := false, canReturn := false, inIsOperator := true,
    isDecorator := false, isOutermost := true }

/-- How far the line at the start of a text reaches that names an interpreter. -/
def hashbangExtent (text : List Char) : Nat :=
  match text with
  | '#' :: '!' :: rest => (rest.takeWhile fun c => !isLineEnd c).length + 2
  | _ => 0

/-- Where a reader stands before the first lexeme of a text. -/
def ReaderState.initial (text : List Char) : ReaderState :=
  let skipped := hashbangExtent text
  let first := Scan.lexeme (text.drop skipped) skipped true
  { lexeme := first.lexeme
    here := first.here
    rest := first.rest
    previousStop := skipped
    surroundings := .outermost
    lexicalFaults := first.faults
    complaints := []
    notes :=
      { comments := first.comments, isModule := false, namesAwait := false, waitingLoop := none,
        declarations := [], groups := [] } }

/-! ## Statements outside of every function -/

/-- A statement, and where the reader stood before it if it has `await` as a name. -/
structure OuterStatement where
  node : Node
  before : Option ReaderState

namespace Grammar

open Reader

/-- Makes `await` an operator from here on. -/
def allowAwait : Reader Unit :=
  modify fun state =>
    { state with surroundings := { state.surroundings with canAwait := true } }

/-- Reads a statement, unless no lexeme is left.  What is noted of the groups before it is of no use
any more. -/
def outerStatement (g : Grammar) : Reader (Option OuterStatement) := do
  if ← atEnd then return none
  note fun notes => { notes with namesAwait := false, groups := [] }
  let before ← get
  let node ← g.read (.statement .list)
  let notes := (← get).notes
  if notes.isModule then allowAwait
  let isOpen := notes.namesAwait && !before.surroundings.canAwait
  return some ⟨node, if isOpen then some before else none⟩

/-- Goes back to before a statement: of what has been found wrong since, nothing is left. -/
def goBack (before : ReaderState) : Reader Unit :=
  modify fun state =>
    let kept (now then_ : List SyntaxError) := now.drop (now.length - then_.length)
    { before with
      lexicalFaults := kept state.lexicalFaults before.lexicalFaults
      complaints := kept state.complaints before.complaints
      notes := state.notes }

/-- Reads a statement of a module again.  Only of the last one does it matter that it is refused. -/
def statementAgain (g : Grammar) (last : Option Nat) (outer : OuterStatement) : Reader Node := do
  match outer.before with
  | none => return outer.node
  | some before =>
    goBack before
    allowAwait
    if last = some before.lexeme.span.start then g.read (.statement .list)
    else
      try g.read (.statement .list)
      catch _ => return outer.node

/-- Reads statements up to the end of the text. -/
def outerStatements (g : Grammar) : Reader (List Node) := do
  let statements ← many g.steps (outerStatement g)
  unless (← get).notes.isModule do
    return statements.map (·.node)
  let last := (statements.filterMap (·.before)).getLast?.map (·.lexeme.span.start)
  statements.mapM (statementAgain g last)

end Grammar

/-! ## Scripts -/

/-- A script: its statements, the line at its start that names an interpreter, its import and export
declarations outside of every function in the order in which they were read, and what is wrong with
it as a script or as a module. -/
structure Program where
  statements : List Node
  hashbang : Option Span
  declarations : List Node
  misfit : Option SyntaxError
  deriving Repr

/-- What is wrong with a script as what it is: a module has no comments in the notation of pages,
and only a module waits outside of every function. -/
def Notes.misfit (notes : Notes) : Option SyntaxError :=
  if notes.isModule then notes.comments.page.map (⟨·, .pageComment⟩)
  else notes.waitingLoop.map (⟨·, .misplacedWord⟩)

/-- Whether a text occurs in another. -/
def occursIn (piece : List Char) : List Char → Bool
  | [] => piece.isEmpty
  | c :: rest => piece.isPrefixOf (c :: rest) || occursIn piece rest

/-- The beginning of the first comment, if it says that the text has type annotations. -/
def Notes.annotation? (notes : Notes) (text : List Char) : Option Nat :=
  match notes.comments.first with
  | some span => if occursIn "@flow".toList (span.slice text) then some span.start else none
  | none => none

/-- What has been found wrong, in the order in which it is reported. -/
def ReaderState.faults (state : ReaderState) : List SyntaxError :=
  state.lexicalFaults.reverse ++ state.complaints.reverse

/-- Reads a script.  Where there are faults in a text that says that it has type annotations, these
are to blame, unless annotations are expected. -/
def Program.read (isTyped : Bool) (text : List Char) : Except SyntaxError Program :=
  let grammar := Grammar.bounded (stepsFor text.length)
  let blame (state : ReaderState) (error : SyntaxError) : SyntaxError :=
    match if isTyped then none else state.notes.annotation? text with
    | some start => ⟨start, .annotated⟩
    | none => error
  match (Grammar.outerStatements grammar).run (.initial text) with
  | .error refusal state => .error (blame state (state.faults.headD refusal))
  | .ok statements state =>
    let stray := (Node.strayDefaultAmong? statements).map (⟨·, .strayDefault⟩)
    match state.faults.head? <|> stray with
    | some error => .error (blame state error)
    | none =>
      let skipped := hashbangExtent text
      .ok
        { statements := statements
          hashbang := if skipped = 0 then none else some ⟨0, skipped⟩
          declarations := state.notes.declarations.reverse
          misfit := state.notes.misfit }

end ModuleBundler.Script

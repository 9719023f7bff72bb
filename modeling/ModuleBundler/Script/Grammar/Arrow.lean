/-
# ModuleBundler.Script.Grammar.Arrow — functions written with an arrow.

Parentheses hold parameters if an arrow stands behind them, and operands otherwise.  Their first
lexemes often decide; where they do not, the parentheses are read as parameters first, and the
reader goes back if that fails.
-/
import ModuleBundler.Script.Grammar.Operand

namespace ModuleBundler.Script.Grammar

open Reader

/-- What parentheses hold, as far as their first lexemes show. -/
inductive Guess
  | parameters
  | operands
  | unclear
  deriving DecidableEq, Repr

/-- Looks at the first lexemes of the parentheses at the front. -/
def guessParentheses : Reader Guess :=
  look do
    expectMark .openParen
    let front := (← get).lexeme
    advance
    let second ← token
    match front.token with
    | .mark .closeParen =>
      return if second == .mark .arrow || second == .mark .openBrace then .parameters else .operands
    | .mark .openBracket | .mark .openBrace => return .unclear
    | .mark .ellipsis => return .parameters
    | _ =>
      match second with
      | .mark .comma | .mark .assign | .mark .closeParen =>
        return if isNameLike front then .unclear else .operands
      | _ => return .operands

/-- Looks at the lexemes at the front: parentheses, or such behind `async`. -/
def guess : Reader Guess := do
  match ← token with
  | .mark .openParen => guessParentheses
  | .word "async" _ =>
    let next ← next
    if next.newlineBefore || next.token != .mark .openParen then return .operands
    look do
      advance
      guessParentheses
  | _ => return .operands

/-- What stands before an arrow. -/
structure ArrowHead where
  start : Nat
  isAsync : Bool
  parameters : Node

/-- Passes over an arrow, before which no line ends. -/
def expectArrow : Reader Unit := do
  if ← afterNewline then
    complain .lineEnd
  expectMark .arrow

/-- Reads parameters in parentheses and an arrow. -/
def arrowHead (g : Grammar) : Reader ArrowHead := do
  let start ← position
  let isAsync ← eatWord "async"
  let parameters ←
    within (fun around => { around with canAwait := around.canAwait || isAsync }) (parameters g)
  expectArrow
  return ⟨start, isAsync, parameters⟩

/-- Reads the body behind an arrow: statements in braces, or the result. -/
def arrowBody (g : Grammar) (head : ArrowHead) : Reader Node := do
  let inArrow (around : Surroundings) : Surroundings :=
    { around with canAwait := head.isAsync, canYield := false, isOutermost := false }
  let body ← within inArrow do
    if ← atMark .openBrace then functionBody g else g.read .assignment
  branch head.start (.arrow head.isAsync) [head.parameters, body]

/-- Reads an arrow and its body behind a single parameter. -/
def arrowBehind (g : Grammar) (start : Nat) (isAsync : Bool) (parameter : Node) : Reader Node := do
  expectArrow
  arrowBody g ⟨start, isAsync, .branch parameter.span .parameters [parameter]⟩

/-- Reads parameters in parentheses and an arrow, behind which the text has to go on. -/
def promisingHead (g : Grammar) : Reader ArrowHead := do
  let head ← arrowHead g
  if ← atEnd then fail .unexpectedToken
  return head

/-- Reads a function with its parameters in parentheses, if one begins at the front. -/
def arrowFunction? (g : Grammar) : Reader (Option Node) := do
  match ← guess with
  | .operands => return none
  | .parameters => return some (← arrowBody g (← arrowHead g))
  | .unclear =>
    let start ← position
    if (← get).notes.groups.contains start then return none
    match ← attempt (promisingHead g) with
    | some head => return some (← arrowBody g head)
    | none =>
      note fun notes => { notes with groups := start :: notes.groups }
      return none

/-- Whether an asynchronous function of one name without parentheses begins at the front. -/
def isAsyncNameAhead : Reader Bool := do
  match ← token with
  | .word "async" _ =>
    let (first, second) ← ahead
    let onLine := !first.newlineBefore && !second.newlineBefore
    return isNameLike first && onLine && second.token == .mark .arrow
  | _ => return false

end ModuleBundler.Script.Grammar

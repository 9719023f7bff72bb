/-
# ModuleBundler.Script.Grammar.Statement — statements.

A statement is known by its first word, or it is an expression.  Where a statement stands alone, as
the body of a loop or behind a label, it may not declare a name for the rest of a block.
-/
import ModuleBundler.Script.Grammar.ModuleItem

namespace ModuleBundler.Script.Grammar

open Reader

/-- Reads an expression in parentheses. -/
def condition (g : Grammar) : Reader Node := do
  expectMark .openParen
  let node ← g.read .expression
  expectMark .closeParen
  return node

/-- Reads an expression with the end of its statement, or a labeled statement. -/
def expressionStatement (g : Grammar) : Reader Node := do
  let start ← position
  let node ← g.read .expression
  match node with
  | .leaf _ (.name label) =>
    if ← eatMark .colon then
      let body ← g.read (.statement .alone)
      branch start (.labeled label) [body]
    else
      semicolon
      branch start .expression [node]
  | _ =>
    semicolon
    branch start .expression [node]

/-- Complains of a declaration that stands alone. -/
def checkPlace (place : Place) (isFree : Node → Bool) (node : Node) : Reader Node := do
  if place != .list && !isFree node then
    complainAt node.span.start .misplacedDeclaration
  return node

/-- Whether a node declares a plain function, which may stand alone. -/
def isPlainFunction : Node → Bool
  | .branch _ (.functionDeclaration false false) _ => true
  | _ => false

/-- Reads a declaration of variables; one that stands alone may declare no name for a block. -/
def variableStatement (g : Grammar) (keyword : String) (place : Place) : Reader Node := do
  checkPlace place (fun _ => keyword == "var") (← endedVariables g (← position) keyword)

/-- Whether a token behind `let` makes it an operand: an operator, but for those that choose between
two operands. -/
def makesOperand : Token → Bool
  | .mark .and | .mark .or | .mark .coalesce => false
  | .mark mark => mark.isAssignment || mark.precedence?.isSome
  | .word "in" _ | .word "instanceof" _ => true
  | _ => false

/-- Reads a statement that begins with `let`: a declaration, unless what follows makes `let` a
name.  Where a statement stands alone, only a bracket begins a declaration. -/
def letStatement (g : Grammar) (place : Place) : Reader Node := do
  let start ← position
  let next := (← next).token
  if makesOperand next then
    let node ← g.read .assignment
    semicolon
    branch start .expression [node]
  else if next == .mark .dot || next == .mark .openParen then
    let node ← g.read .expression
    branch start .expression [node]
  else if next == .mark .semicolon || (place != .list && next != .mark .openBracket) then
    let node ← name .name
    semicolon
    branch start .expression [node]
  else variableStatement g "let" place

/-- Reads a choice between two statements. -/
def ifStatement (g : Grammar) : Reader Node := do
  let start ← position
  expectWord "if"
  let test ← condition g
  let yes ← g.read (.statement .alone)
  let no ← if ← eatWord "else" then pure [← g.read (.statement .alone)] else pure []
  branch start .ifElse (test :: yes :: no)

/-! ## Loops -/

/-- Reads an operand unless a mark stands at the front, and then the mark. -/
def operandBefore (g : Grammar) (mark : Mark) : Reader (List Node) := do
  if ← eatMark mark then return []
  let node ← withIn (g.read .expression)
  expectMark mark
  return [node]

/-- What stands before the head of a loop: where the loop began, and whether it waits for its
elements. -/
structure LoopStart where
  start : Nat
  isAwait : Bool

/-- Goes on with a loop behind its first part, which has been read. -/
def forFrom (g : Grammar) (loop : LoopStart) (first : List Node) : Reader Node := do
  if loop.isAwait then
    complainAt loop.start .misplacedWord
  expectMark .semicolon
  match first with
  | [.branch _ (.variableDeclaration keyword) declarators] => declarators.forM (checkValue keyword)
  | _ => pure ()
  let test ← operandBefore g .semicolon
  let update ← operandBefore g .closeParen
  let body ← g.read (.statement .alone)
  branch loop.start .for (first ++ test ++ update ++ [body])

/-- Goes on with a loop over keys or elements behind its target, which has been read. -/
def forEach (g : Grammar) (loop : LoopStart) (target : Node) : Reader Node := do
  let isOf ← atWord "of"
  if loop.isAwait && !isOf then
    complainAt loop.start .misplacedWord
  advanceKeyword
  let operand ← if isOf then g.read .assignment else g.read .expression
  expectMark .closeParen
  let body ← g.read (.statement .alone)
  let form := if isOf then Form.forOf loop.isAwait else .forIn
  branch loop.start form [target, operand, body]

/-- Whether `in` or `of` stands at the front. -/
def atEach : Reader Bool := do
  return (← atWord "in") || (← atWord "of")

/-- Reads where `in` is no operator. -/
def withoutIn {α : Type} (reader : Reader α) : Reader α :=
  within (fun around => { around with inIsOperator := false }) reader

/-- Goes on with a loop whose head declares variables. -/
def forVariables (g : Grammar) (loop : LoopStart) (keyword : String) : Reader Node := do
  let first ←
    if keyword == "using" then variableList g keyword true
    else withoutIn (variableList g keyword true)
  if keyword == "using" && (← atWord "in") then
    complainAt first.span.start .misplacedWord
  if ← atEach then forEach g loop first else forFrom g loop [first]

/-- Complains of a loop over elements whose target begins with `let`, or is `async` although the
loop does not wait. -/
def checkElementTarget (loop : LoopStart) (front : Token) (target : Node) : Reader Unit := do
  let isAsync := match front, target with
    | .word "async" false, .leaf _ _ => !loop.isAwait
    | _, _ => false
  let isLet := match front with
    | .word "let" _ => true
    | _ => false
  if isAsync || isLet then
    complainAt target.span.start .invalidTarget

/-- Goes on with a loop whose head begins with an expression. -/
def forExpression (g : Grammar) (loop : LoopStart) : Reader Node := do
  let front ← token
  let first ← withoutIn (g.read .expression)
  if ← atWord "of" then
    checkElementTarget loop front first
  if ← atEach then forEach g loop (← first.target) else forFrom g loop [first]

/-- Passes over `await` behind `for`.  Outside of every function only a module may wait. -/
def eatLoopAwait : Reader Bool := do
  unless ← atWord "await" do
    return false
  let around := (← get).surroundings
  let start ← position
  unless around.canAwait do
    if around.isOutermost then
      note fun notes => { notes with waitingLoop := notes.waitingLoop <|> some start }
    else complain .misplacedWord
  advanceKeyword
  return true

/-- Reads a loop with a head in parentheses. -/
def forStatement (g : Grammar) : Reader Node := do
  let start ← position
  expectWord "for"
  let loop : LoopStart := ⟨start, ← eatLoopAwait⟩
  expectMark .openParen
  match ← variablesAhead? true with
  | some keyword => forVariables g loop keyword
  | none => if ← atMark .semicolon then forFrom g loop [] else forExpression g loop

/-! ## Other statements -/

/-- Reads a case of a choice among values. -/
def switchCase (g : Grammar) : Reader Node := do
  let start ← position
  let test ←
    if ← eatWord "default" then pure []
    else
      expectWord "case"
      pure [← g.read .expression]
  expectMark .colon
  let statements ← many g.steps do
    match ← token with
    | .word "case" _ | .word "default" _ | .mark .closeBrace | .done | .broken => return none
    | _ => return some (← g.read (.statement .list))
  branch start (.case test.isEmpty) (test ++ statements)

/-- Reads a choice among values. -/
def switchStatement (g : Grammar) : Reader Node := do
  let start ← position
  expectWord "switch"
  let subject ← condition g
  expectMark .openBrace
  let cases ← many g.steps do
    if ← eatMark .closeBrace then return none
    return some (← switchCase g)
  branch start .switch (subject :: cases)

/-- Reads what is done where a block fails, if that is said. -/
def handler (g : Grammar) : Reader (List Node) := do
  let start ← position
  unless ← eatWord "catch" do
    return []
  let parameter ←
    if ← eatMark .openParen then
      let target ← g.read .pattern
      expectMark .closeParen
      pure [target]
    else pure []
  let body ← braced g .block
  return [← branch start .catch (parameter ++ [body])]

/-- Reads what is done behind a block in any case, if that is said. -/
def finalizer (g : Grammar) : Reader (List Node) := do
  let start ← position
  unless ← eatWord "finally" do
    return []
  let body ← braced g .block
  return [← branch start .finally [body]]

/-- Reads a block that may fail and what is done then. -/
def tryStatement (g : Grammar) : Reader Node := do
  let start ← position
  expectWord "try"
  let block ← braced g .block
  let handler ← handler g
  let finalizer ← finalizer g
  if handler.isEmpty && finalizer.isEmpty then
    complainAt block.span.stop .missingCatch
  branch start .try (block :: handler ++ finalizer)

/-- Reads a jump to a label, or to the enclosing loop. -/
def jump (keyword : String) (form : Form) : Reader Node := do
  let start ← position
  expectWord keyword
  let label ← if ← mayEnd then pure [] else pure [← name .key]
  semicolon
  branch start form label

/-- Reads the end of a function with a result. -/
def returnStatement (g : Grammar) : Reader Node := do
  let start ← position
  unless (← get).surroundings.canReturn do
    complain .misplacedWord
  expectWord "return"
  let result ← if ← mayEnd then pure [] else pure [← withIn (g.read .expression)]
  semicolon
  branch start .return result

/-- Reads the throwing of a value, which stands on the same line. -/
def throwStatement (g : Grammar) : Reader Node := do
  let start ← position
  expectWord "throw"
  if ← afterNewline then
    complainAt start .lineEnd
  let operand ← g.read .expression
  semicolon
  branch start .throw [operand]

/-- Reads a loop with its test behind its body. -/
def doStatement (g : Grammar) : Reader Node := do
  let start ← position
  expectWord "do"
  let body ← g.read (.statement .alone)
  expectWord "while"
  let test ← condition g
  let _ ← eatMark .semicolon
  branch start .doWhile [body, test]

/-- Reads a statement of a keyword, an operand in parentheses and a body. -/
def headedStatement (g : Grammar) (keyword : String) (form : Form) : Reader Node := do
  let start ← position
  expectWord keyword
  let operand ← condition g
  let body ← g.read (.statement .alone)
  branch start form [operand, body]

/-- Whether an export has decorators before it: that of a declaration or a value has, and that of
names has not. -/
def takesDecorators : Node → Bool
  | .branch _ .exportDeclaration _ => true
  | .branch _ (.exportDefault _) _ => true
  | _ => false

/-- Reads a statement that begins with decorators.  Those before the export of names are dropped. -/
def decoratedStatement (g : Grammar) (place : Place) : Reader Node := do
  let start ← position
  let before ← decorators g
  if ← atWord "export" then
    let declaration ← recorded (← exportDeclaration g before)
    if takesDecorators declaration then branch start .decorated (before ++ [declaration])
    else
      match Node.strayDefaultAmong? before with
      | some stray => complainAt stray .strayDefault
      | none => pure ()
      return declaration
  else checkPlace place (fun _ => false) (← classFrom g start before true)

/-- Reads a statement that begins with a word. -/
def wordStatement (g : Grammar) (place : Place) (word : String) (escaped : Bool) :
    Reader Node := do
  let start ← position
  match word with
  | "if" => ifStatement g
  | "for" => forStatement g
  | "while" => headedStatement g "while" .while
  | "do" => doStatement g
  | "with" => headedStatement g "with" .withObject
  | "switch" => switchStatement g
  | "throw" => throwStatement g
  | "try" => tryStatement g
  | "debugger" =>
    expectWord "debugger"
    semicolon
    branch start .debugger []
  | "continue" => jump "continue" .continue
  | "break" => jump "break" .break
  | "return" => returnStatement g
  | "class" => checkPlace place (fun _ => false) (← classFrom g start [] true)
  | "function" => checkPlace place isPlainFunction (← functionDeclaration g start true)
  | "export" => recorded (← exportDeclaration g [])
  | "import" =>
    match (← next).token with
    | .mark .openParen | .mark .dot => expressionStatement g
    | _ => recorded (← importDeclaration g)
  | "let" => if escaped then expressionStatement g else letStatement g place
  | _ =>
    if ← isAsyncFunctionAhead then
      checkPlace place isPlainFunction (← functionDeclaration g start true)
    else
      match ← variablesAhead? false with
      | some keyword => variableStatement g keyword place
      | none => expressionStatement g

/-- Reads a statement. -/
def statement (g : Grammar) (place : Place) : Reader Node := do
  let start ← position
  match ← token with
  | .word word escaped => wordStatement g place word escaped
  | .mark .openBrace => braced g .block
  | .mark .semicolon =>
    advance
    branch start .empty []
  | .mark .at => decoratedStatement g place
  | _ => expressionStatement g

end ModuleBundler.Script.Grammar

/-
# ModuleBundler.Script.Grammar.Expression — operators and assignments.

Operators between operands are read by precedence climbing.  What stands before an assignment has
been read as an operand and is converted to a target.
-/
import ModuleBundler.Script.Cover
import ModuleBundler.Script.Grammar.Arrow

namespace ModuleBundler.Script.Grammar

open Reader

/-! ## Operands that wait -/

/-- Whether the lexeme behind the word at the front is an operand that could not follow a name: a
literal or a word on the same line, but for the words that may follow a name. -/
def isOperandAhead (followers : List String) : Reader Bool := do
  let next ← next
  if next.newlineBefore then return false
  match next.token with
  | .word text _ => return !followers.contains text
  | .string _ | .number => return true
  | _ => return false

/-- Whether the word `await` stands at the front as an operator. -/
def awaits : Reader Bool := do
  unless ← atWord "await" do
    return false
  if (← get).surroundings.canAwait then return true
  isOperandAhead ["in", "instanceof", "of"]

/-- Whether the word `yield` stands at the front as an operator. -/
def yields : Reader Bool := do
  unless ← atWord "yield" do
    return false
  if (← get).surroundings.canYield then return true
  isOperandAhead ["in", "instanceof"]

/-- Reads `await` and its operand.  Outside of every function it makes the script a module; in a
plain function it is misplaced. -/
def awaitExpression (g : Grammar) (first : Nat) : Reader Node := do
  let start ← position
  let around := (← get).surroundings
  unless around.canAwait do
    if around.isOutermost then note fun notes => { notes with isModule := true }
    else complain .misplacedWord
  advanceKeyword
  let operand ← within (fun around => { around with canAwait := true }) (g.read (.unary first))
  branch start .await [operand]

/-- Reads `yield` and its operand, unless the line or the enclosing construct ends. -/
def yieldExpression (g : Grammar) : Reader Node := do
  let start ← position
  unless (← get).surroundings.canYield do
    complain .misplacedWord
  advanceKeyword
  if ← afterNewline then return ← branch start (.yield false) []
  let delegates ← eatMark .star
  let isBare ← match ← token with
    | .done | .mark .semicolon | .mark .closeBrace | .mark .closeBracket | .mark .closeParen
    | .mark .colon | .mark .comma | .word "in" _ => pure true
    | _ => pure false
  if isBare && !delegates then branch start (.yield false) []
  else
    let operand ← within (fun around => { around with canYield := true }) (g.read .assignment)
    branch start (.yield delegates) [operand]

/-! ## Leading and trailing operators -/

/-- Reads an operand and what counts it up or down behind it.  `first` is where the operators before
it begin. -/
def trailing (g : Grammar) (first : Nat) : Reader Node := do
  let operand ← operand g
  if ← afterNewline then return operand
  match ← token with
  | .mark .increment =>
    advance
    operand.checkCounted
    branch first (.update .increment false) [operand]
  | .mark .decrement =>
    advance
    operand.checkCounted
    branch first (.update .decrement false) [operand]
  | _ => return operand

/-- Reads an operand that is counted up or down, from the operator on. -/
def counted (g : Grammar) (first : Nat) (operator : Mark) : Reader Node := do
  advance
  let operand ← g.read (.unary first)
  operand.checkCounted
  branch first (.update operator true) [operand]

/-- Reads an operand with its leading and trailing operators.  `first` is where those begin that
count it. -/
def unary (g : Grammar) (first : Nat) : Reader Node := do
  let start ← position
  match ← token with
  | .word "delete" _ | .word "void" _ | .word "typeof" _
  | .mark .plus | .mark .minus | .mark .not | .mark .bitNot =>
    let operator ← written
    advanceKeyword
    let operand ← g.read (.unary (← position))
    branch start (.unary operator) [operand]
  | .mark .increment => counted g first .increment
  | .mark .decrement => counted g first .decrement
  | _ => if ← awaits then awaitExpression g first else trailing g first

/-! ## Operators between operands -/

/-- The operator that stands at the front between two operands, with its precedence. -/
def operatorAhead? : Reader (Option (String × Nat)) := do
  match ← token with
  | .mark mark => return mark.precedence?.map fun level => (mark.text, level)
  | .word "instanceof" _ => return some ("instanceof", 8)
  | .word "in" _ =>
    return if (← get).surroundings.inIsOperator then some ("in", 8) else none
  | _ => return none

/-- Whether two operands are joined by a logical operator. -/
def isLogical : Node → Bool
  | .branch _ (.binary operator) _ => ["&&", "||", "??"].contains operator
  | _ => false

/-- Whether two operands are joined by a logical operator other than coalescing. -/
def isChoice : Node → Bool
  | .branch _ (.binary operator) _ => ["&&", "||"].contains operator
  | _ => false

/-- Whether coalescing is mixed with another logical operator, neither of them in parentheses. -/
def mixesCoalesce (left right : Node) (leftIsGroup rightIsGroup : Bool) : Bool :=
  if isLogical right then !rightIsGroup && isChoice right
  else !leftIsGroup && isChoice left

/-- Whether an operand has a leading operator, which no power may follow. -/
def isLed : Node → Bool
  | .branch _ (.unary _) _ => true
  | .branch _ .await _ => true
  | _ => false

/-- Complains of operands that an operator cannot join without parentheses. -/
def checkOperands (start : Nat) (operator : String) (left right : Node)
    (leftIsGroup rightIsGroup : Bool) : Reader Unit := do
  if operator == "??" && mixesCoalesce left right leftIsGroup rightIsGroup then
    complainAt start .mixedCoalesce
  if operator == "**" && isLed left then
    complainAt left.span.start .unaryBeforePower

/-- Goes on with operators that bind tighter than a level; a power binds to the right. -/
def operators (g : Grammar) (level start : Nat) (leftIsGroup : Bool) :
    (steps : Nat) → (left : Node) → Reader Node
  | 0, _ => fail .tooDeep
  | steps + 1, left => do
    match ← operatorAhead? with
    | none => return left
    | some (operator, tightness) =>
      if tightness ≤ level then return left
      advanceKeyword
      let rightIsGroup ← atMark .openParen
      let right ← g.read (.binary (if operator == "**" then tightness - 1 else tightness))
      checkOperands start operator left right leftIsGroup rightIsGroup
      let node ← branch start (.binary operator) [left, right]
      operators g level start leftIsGroup steps node

/-- Reads a private name, which is an operand only before `in`. -/
def privateOperand (level : Nat) (text : String) : Reader Node := do
  unless (← get).surroundings.inIsOperator && level < 8 do
    unexpected
  let node ← atom fun _ => .key ("#" ++ text)
  unless ← atWord "in" do
    unexpected
  return node

/-- Reads operands and operators that bind tighter than a level. -/
def binary (g : Grammar) (level : Nat) : Reader Node := do
  let start ← position
  let isGroup ← atMark .openParen
  let left ← match ← token with
    | .privateName text => privateOperand level text
    | _ => unary g start
  operators g level start isGroup g.steps left

/-! ## Assignments -/

/-- Goes on behind an operand: an arrow, an assignment, a choice, or nothing. -/
def assignmentFrom (g : Grammar) (start : Nat) (left : Node) : Reader Node := do
  match left, ← token with
  | .leaf span (.name name), .mark .arrow => arrowBehind g start false (.leaf span (.binding name))
  | _, .mark .question =>
    advance
    let yes ← withIn (g.read .assignment)
    expectMark .colon
    let no ← g.read .assignment
    branch start .conditional [left, yes, no]
  | _, .mark mark =>
    unless mark.isAssignment do
      return left
    let target ← left.target
    advance
    let value ← g.read .assignment
    branch start (.assign mark) [target, value]
  | _, _ => return left

/-- Reads an operand that may assign. -/
def assignment (g : Grammar) : Reader Node := do
  if ← yields then return ← yieldExpression g
  match ← arrowFunction? g with
  | some function => return function
  | none => pure ()
  let start ← position
  if ← isAsyncNameAhead then
    advanceKeyword
    arrowBehind g start true (← name .binding)
  else
    let left ← binary g 0
    assignmentFrom g start left

/-- Reads operands between commas. -/
def expression (g : Grammar) : Reader Node := do
  let start ← position
  let first ← g.read .assignment
  if ← atMark .comma then
    let others ← many g.steps do
      if ← eatMark .comma then return some (← g.read .assignment)
      return none
    branch start .sequence (first :: others)
  else return first

end ModuleBundler.Script.Grammar

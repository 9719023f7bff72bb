/-
# ModuleBundler.Script.Grammar.Operand — operands, their members and their calls.

Everything that stands between operators: literals, templates, lists in parentheses and brackets,
objects, functions, classes, and the chains of members and calls behind them.
-/
import ModuleBundler.Script.Grammar.Class

namespace ModuleBundler.Script.Grammar

open Reader

/-- Reads an operand, or several of them behind an ellipsis. -/
def spreadOrAssignment (g : Grammar) : Reader Node := do
  let start ← position
  if ← eatMark .ellipsis then
    let operand ← g.read .assignment
    branch start .spread [operand]
  else g.read .assignment

/-- Reads the arguments of a call, from the parenthesis on. -/
def arguments (g : Grammar) : Reader (List Node) := do
  expectMark .openParen
  let (items, _) ← bracketed (list g.steps .closeParen (spreadOrAssignment g))
  return items

/-- Whether a backquote stands at the front: the beginning of a template and not the end of a
substitution. -/
def atTemplate : Reader Bool := do
  return (← get).here.head? == some '`'

/-- Reads the chunk of a template that stands at the front, and whether it is the last.  Only a tag
may give meaning to malformed escapes. -/
def templateChunk (isTagged : Bool) : Reader (Node × Bool) := do
  match ← token with
  | .chunk last valid =>
    unless valid || isTagged do
      complain .invalidEscape
    return (← atom .atom, last)
  | _ => unexpected

/-- Reads the substitutions and chunks of a template behind what was read before, the last one
first. -/
def templateFrom (g : Grammar) (isTagged : Bool) : (steps : Nat) → (before : List Node) →
    Reader (List Node)
  | 0, _ => fail .tooDeep
  | steps + 1, before => do
    let isChunk ← match ← token with
      | .chunk _ _ => pure !(← atTemplate)
      | _ => pure false
    if isChunk then
      let (chunk, isLast) ← templateChunk isTagged
      if isLast then return (chunk :: before).reverse
      templateFrom g isTagged steps (chunk :: before)
    else
      if (← token) == .done then fail .unexpectedToken
      let substitution ← bracketed (g.read .expression)
      if ← atMark .closeBrace then rescanChunk
      templateFrom g isTagged steps (substitution :: before)

/-- Reads a template. -/
def template (g : Grammar) (isTagged : Bool) : Reader Node := do
  let start ← position
  let (chunk, isLast) ← templateChunk isTagged
  if isLast then branch start .template [chunk]
  else
    let substitution ← bracketed (g.read .expression)
    if ← atMark .closeBrace then rescanChunk
    branch start .template (← templateFrom g isTagged g.steps [substitution, chunk])

/-- Reads an element of an array, or a place left free. -/
def element (g : Grammar) : Reader Node := do
  let start ← position
  if ← atMark .comma then return .leaf ⟨start, start⟩ .hole
  spreadOrAssignment g

/-- Whether a lexeme is a name that can stand alone in an object: not one that is an operator
here. -/
def canStandAlone (lexeme : Lexeme) : Reader Bool := do
  let around := (← get).surroundings
  match lexeme.token with
  | .word "await" _ => return !around.canAwait
  | .word "yield" _ => return !around.canYield
  | _ => return isNameLike lexeme

/-- Reads what follows the key of a property of an object: its value, unless the key is a name that
stands for itself. -/
def propertyFrom (g : Grammar) (start : Nat) (front : Lexeme) (key : Node) (isAlone : Bool) :
    Reader Node := do
  match front.token, isAlone && !(← atMark .colon) with
  | .word text _, true =>
    let name := Node.leaf front.span (.name text)
    if ← eatMark .assign then
      let value ← g.read .assignment
      branch start .shorthandDefault [name, value]
    else branch start .shorthand [name]
  | _, _ =>
    expectMark .colon
    let value ← g.read .assignment
    branch start .property [key, value]

/-- Reads a property or method of an object.  Only `async` may modify one, and only a method. -/
def objectMember (g : Grammar) : Reader Node := do
  let start ← position
  if ← eatMark .ellipsis then
    let operand ← g.read .assignment
    return ← branch start .spread [operand]
  let modifiers ← modifiers g false
  let kind ← eatAccessor
  let isGenerator ← if kind = .method then eatMark .star else pure false
  let front := (← get).lexeme
  let isAlone ← canStandAlone front
  let key ← propertyKey g false
  if kind != .method then
    refuseModifiers modifiers none
    methodFrom g start [] key kind false false false
  else if isGenerator || (← atMark .openParen) then
    refuseModifiers modifiers (some "async")
    methodFrom g start [] key kind false (hasModifier modifiers "async") isGenerator
  else
    refuseModifiers modifiers none
    propertyFrom g start front key isAlone

/-- Reads operands in parentheses, of which there is at least one and no comma behind the last. -/
def parenthesized (g : Grammar) : Reader Node := do
  let start ← position
  expectMark .openParen
  let innerStart ← position
  let (items, comma) ← bracketed do
    if ← eatMark .closeParen then failAt start .missingArrow
    if ← atEnd then fail .unexpectedToken
    separated .closeParen (g.read .assignment) g.steps []
  match comma with
  | some comma => failAt comma .unexpectedToken
  | none => pure ()
  let inner ← match items with
    | [item] => pure item
    | _ => branch innerStart .sequence items
  expectMark .closeParen
  branch start .paren [inner]

/-- Reads the arguments of an import at run time: what is imported, and options. -/
def importArguments (g : Grammar) (start : Nat) : Reader Node := do
  expectMark .openParen
  if ← atMark .closeParen then
    failAt start .missingSpecifier
  let parts ← withIn do
    let source ← g.read .assignment
    let hasOptions ← if ← eatMark .comma then pure !(← atMark .closeParen) else pure false
    let options ← if hasOptions then pure [← g.read .assignment] else pure []
    return source :: options
  let _ ← eatMark .comma
  unless ← eatMark .closeParen do
    failAt start .argumentCount
  branch start .dynamicImport parts

/-- Reads a call of `import`, or a property of it.  Only a module can ask for what belongs to it. -/
def importOperand (g : Grammar) : Reader Node := do
  let start ← position
  expectWord "import"
  if ← eatMark .dot then
    if ← eatWord "meta" then
      note fun notes => { notes with isModule := true }
      return ← branch start .metaProperty []
    unless (← eatWord "source") || (← eatWord "defer") do
      failAt start .misplacedWord
    importArguments g start
  else
    unless ← atMark .openParen do
      unexpected
    importArguments g start

/-- Reads the word `super`, which only has members and calls. -/
def superOperand : Reader Node := do
  let start ← position
  let span := (← get).lexeme.span
  advanceKeyword
  match ← token with
  | .mark .openParen | .mark .dot | .mark .openBracket => pure ()
  | _ => complainAt start .misplacedWord
  return .leaf span (.atom "super")

/-- Whether an asynchronous function begins at the front. -/
def isAsyncFunctionAhead : Reader Bool := do
  match ← token with
  | .word "async" _ =>
    let next ← next
    match next.token with
    | .word "function" _ => return !next.newlineBefore
    | _ => return false
  | _ => return false

/-- Reads an operand that begins with a word. -/
def wordOperand (g : Grammar) (word : String) : Reader Node := do
  let start ← position
  match word with
  | "this" | "null" | "true" | "false" =>
    let text ← written
    let span := (← get).lexeme.span
    advanceKeyword
    return .leaf span (.atom text)
  | "function" => functionFrom g start false false false
  | "class" => classFrom g start [] false
  | "import" => importOperand g
  | "super" => superOperand
  | _ =>
    if ← isAsyncFunctionAhead then
      advanceKeyword
      functionFrom g start true false false
    else name .name

/-- Reads an operand without members and calls. -/
def primary (g : Grammar) : Reader Node := do
  let start ← position
  match ← token with
  | .word text _ => wordOperand g text
  | .string value => atom fun _ => .string value
  | .number => atom .atom
  | .chunk _ _ => template g false
  | .mark .openParen => parenthesized g
  | .mark .openBracket =>
    advance
    let (parts, comma) ← bracketed (list g.steps .closeBracket (element g))
    branch start (.array comma) parts
  | .mark .openBrace =>
    advance
    let (parts, comma) ← bracketed (list g.steps .closeBrace (objectMember g))
    branch start (.object comma) parts
  | .mark .slash | .mark .slashAssign =>
    rescanRegex
    atom .atom
  | .mark .at =>
    let before ← decorators g
    classFrom g start before false
  | _ => unexpected

/-- Reads the name of a member. -/
def memberName : Reader Node := do
  match ← token with
  | .word text _ => atom fun _ => .key text
  | .privateName text => atom fun _ => .key ("#" ++ text)
  | _ => unexpected

/-- Reads the key of a member in brackets, from the bracket on. -/
def memberKey (g : Grammar) : Reader Node := do
  expectMark .openBracket
  let key ← bracketed (g.read .expression)
  expectMark .closeBracket
  return key

/-- Whether the name or the bracket of a member follows the mark at the front. -/
def isMemberAhead : Reader Bool := do
  match (← next).token with
  | .word _ _ | .privateName _ | .mark .openBracket => return true
  | _ => return false

/-- Reads an optional member, from its mark on. -/
def optionalMember (g : Grammar) (start : Nat) (object : Node) : Reader Node := do
  expectMark .optionalDot
  if ← atMark .openBracket then branch start (.index true) [object, ← memberKey g]
  else branch start (.member true) [object, ← memberName]

/-- Reads a template behind its tag.  An optional chain cannot be a tag. -/
def tagged (g : Grammar) (start : Nat) (tag : Node) (isChain : Bool) : Reader Node := do
  let template ← template g true
  if isChain then
    complainAt template.span.start .optionalChain
  branch start .tagged [tag, template]

/-- Reads members and, where `calls` allows them, calls behind an operand: the operand with all of
them, and whether one of them was optional.  A decorator has no optional members and no keys in
brackets. -/
def tail (g : Grammar) (calls : Bool) (start : Nat) : (steps : Nat) → (node : Node) →
    (isChain : Bool) → Reader (Node × Bool)
  | 0, _, _ => fail .tooDeep
  | steps + 1, node, isChain => do
    let isDecorator := (← get).surroundings.isDecorator
    match ← token with
    | .mark .dot =>
      advance
      let node ← branch start (.member false) [node, ← memberName]
      tail g calls start steps node isChain
    | .mark .optionalDot =>
      if isDecorator then return (node, isChain)
      if ← isMemberAhead then
        let node ← optionalMember g start node
        tail g calls start steps node true
      else if calls then
        advance
        match ← token with
        | .mark .openParen =>
          let node ← branch start (.call true) (node :: (← arguments g))
          tail g calls start steps node true
        | .chunk _ _ =>
          let node ← tagged g start node true
          tail g calls start steps node true
        | _ => unexpected
      else return (node, true)
    | .mark .openBracket =>
      if isDecorator then return (node, isChain)
      let node ← branch start (.index false) [node, ← memberKey g]
      tail g calls start steps node isChain
    | .mark .openParen =>
      unless calls do
        return (node, isChain)
      let node ← branch start (.call false) (node :: (← arguments g))
      tail g calls start steps node isChain
    | .chunk _ _ =>
      unless ← atTemplate do
        return (node, isChain)
      let node ← tagged g start node isChain
      tail g calls start steps node isChain
    | _ => return (node, isChain)

/-- Complains of what cannot be constructed: an import, or an optional chain. -/
def checkCallee (start : Nat) (callee : Node) : Reader Unit :=
  match callee with
  | .branch span .dynamicImport _ => complainAt span.start .misplacedWord
  | .branch _ .chain _ => complainAt start .optionalChain
  | _ => pure ()

/-- Reads a construction, or the property of `new`. -/
def newOperand (g : Grammar) : Reader Node := do
  let start ← position
  expectWord "new"
  if ← eatMark .dot then
    unless ← eatWord "target" do
      failAt start .misplacedWord
    branch start .metaProperty []
  else
    let callee ← g.read .callee
    let arguments ← if ← atMark .openParen then arguments g else pure []
    checkCallee start callee
    branch start .new (callee :: arguments)

/-- Reads an operand up to its members: a construction or anything that `primary` reads. -/
def head (g : Grammar) : Reader Node := do
  if ← atWord "new" then newOperand g else primary g

/-- Reads an operand with its members and, where `calls` allows them, its calls. -/
def chain (g : Grammar) (calls : Bool) : Reader Node := do
  let start ← position
  let node ← head g
  let (node, isChain) ← tail g calls start g.steps node false
  if isChain then branch start .chain [node] else return node

/-- Reads what stands behind `new`, up to the arguments. -/
def callee (g : Grammar) : Reader Node :=
  chain g false

/-- Reads an operand with its members and calls. -/
def operand (g : Grammar) : Reader Node :=
  chain g true

end ModuleBundler.Script.Grammar

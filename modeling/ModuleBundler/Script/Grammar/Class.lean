/-
# ModuleBundler.Script.Grammar.Class — classes and their members.

Decorators that stand directly before a class are parts of it; those that stand before the export
of a class are not.
-/
import ModuleBundler.Script.Grammar.Function

namespace ModuleBundler.Script.Grammar

open Reader

/-- The surroundings inside a static block. -/
def inStaticBlock (around : Surroundings) : Surroundings :=
  { around with canAwait := true, canYield := false, canReturn := false, isOutermost := false }

/-- Reads a block that runs when its class is made. -/
def staticBlock (g : Grammar) (start : Nat) (before : List Node) : Reader Node := do
  refuseDecorators before
  expectWord "static"
  let block ← within inStaticBlock (braced g .block)
  branch start .staticBlock (before ++ [block])

/-- Whether a key is a given name, written as such or as a string. -/
def isKey (key : Node) (text : String) : Bool :=
  match key with
  | .leaf _ (.key other) => other == text
  | _ => false

/-- Reads the value of a field, if it has one, and the end of the field. -/
def fieldValue (g : Grammar) : Reader (List Node) := do
  let value ←
    if ← eatMark .assign then
      let value ← within (inFunction false false) (g.read .expression)
      pure [value]
    else pure []
  semicolon
  return value

/-- Complains of an accessor that should be asynchronous. -/
def checkSynchronous (kind : MethodKind) (modifiers : List Modifier) : Reader Unit :=
  match kind, modifiers.find? (·.word == "async") with
  | .method, _ | _, none => pure ()
  | _, some modifier => complainAt modifier.position .misplacedModifier

/-- Reads a method or field of a class, behind its modifiers. -/
def classProperty (g : Grammar) (start : Nat) (before : List Node) (modifiers : List Modifier) :
    Reader Node := do
  let isStatic := hasModifier modifiers "static"
  let isAsync := hasModifier modifiers "async"
  let isAccessor := hasModifier modifiers "accessor"
  let kind ← eatAccessor
  checkSynchronous kind modifiers
  let isGenerator ← if kind = .method then eatMark .star else pure false
  let keyStart ← position
  let key ← propertyKey g true
  let isConstructor := !isStatic && isKey key "constructor"
  let isPlain := kind = .method && !isGenerator
  if isConstructor && (!isPlain || isAsync || isAccessor) then
    complainAt keyStart .invalidMember
  if isStatic && isKey key "prototype" then
    complainAt keyStart .invalidMember
  if !isPlain || isConstructor || (← atMark .openParen) then
    methodFrom g start before key kind isStatic isAsync isGenerator
  else
    if isKey key "constructor" then complainAt keyStart .invalidMember
    let value ← fieldValue g
    branch start (.field isStatic) (before ++ key :: value)

/-- Reads a member of a class. -/
def classMember (g : Grammar) : Reader Node := do
  let before ← decorators g
  let start ← position
  let modifiers ← modifiers g true
  if (← atWord "static") && (← next).token == .mark .openBrace then staticBlock g start before
  else classProperty g start before modifiers

/-- Reads the members of a class and the braces around them. -/
def classMembers (g : Grammar) : Reader Node := do
  let start ← position
  expectMark .openBrace
  let members ← many g.steps do
    if ← eatMark .closeBrace then return none
    if ← atEnd then fail .unexpectedToken
    let start ← position
    if ← eatMark .semicolon then return some (.leaf ⟨start, start + 1⟩ .hole)
    return some (← classMember g)
  branch start .members members

/-- Reads what a class extends, and complains of more than one class. -/
def heritage (g : Grammar) : Reader (List Node) := do
  let start ← position
  if ← eatWord "extends" then
    let parent ← g.read .operand
    let others ← many g.steps do
      if ← eatMark .comma then return some (← g.read .operand)
      return none
    match others with
    | [] => pure ()
    | first :: _ => complainAt first.span.start .severalParents
    return [← branch start .heritage (parent :: others)]
  return []

/-- Reads a class from the word `class` on, behind decorators that belong to it. -/
def classFrom (g : Grammar) (start : Nat) (before : List Node) (isDeclaration : Bool) :
    Reader Node := do
  expectWord "class"
  let isNamed := (← atName) && !(← atWord "implements")
  let name ← if isNamed then pure [← name .binding] else pure []
  let heritage ← heritage g
  let members ← within (fun around => { around with isDecorator := false }) (classMembers g)
  let form := if isDeclaration then Form.classDeclaration else Form.classExpression
  branch start form (before ++ name ++ heritage ++ [members])

end ModuleBundler.Script.Grammar

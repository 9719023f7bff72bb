/-
# ModuleBundler.Script.Grammar.Function — functions, methods and their bodies.

A function changes its surroundings: whether `await` and `yield` are operators in its parameters and
its body depends on the kind of the function alone, and in its body `return` is allowed.
-/
import ModuleBundler.Script.Grammar.Modifier

namespace ModuleBundler.Script.Grammar

open Reader

/-- The surroundings inside a function. -/
def inFunction (isAsync isGenerator : Bool) (around : Surroundings) : Surroundings :=
  { around with canAwait := isAsync, canYield := isGenerator, inIsOperator := true }

/-- The surroundings inside the body of a function. -/
def inBody (around : Surroundings) : Surroundings :=
  { around with canReturn := true, isOutermost := false }

/-- Reads a parameter.  It may be decorated, but nothing modifies it. -/
def parameter (g : Grammar) : Reader Node := do
  let start ← position
  let before ← decorators g
  refuseModifiers (← modifiers g false) none
  let target ← patternElement g
  if before.isEmpty then return target
  branch start .decorated (before ++ [target])

/-- Reads parameters in parentheses. -/
def parameters (g : Grammar) : Reader Node := do
  let start ← position
  expectMark .openParen
  let parts ← bindings g .closeParen (parameter g)
  expectMark .closeParen
  branch start .parameters parts

/-- Reads statements in braces. -/
def braced (g : Grammar) (form : Form) : Reader Node := do
  let start ← position
  expectMark .openBrace
  let statements ← many g.steps do
    if ← eatMark .closeBrace then return none
    if ← atEnd then fail .unexpectedToken
    return some (← g.read (.statement .list))
  branch start form statements

/-- Reads the body of a function. -/
def functionBody (g : Grammar) : Reader Node :=
  within inBody (braced g .body)

/-- Reads the parameters and the body of a function that began at a position. -/
def parametersAndBody (g : Grammar) (start : Nat) (isAsync isGenerator : Bool) :
    Reader (List Node) :=
  within (inFunction isAsync isGenerator) do
    let parameters ← parameters g
    unless ← atMark .openBrace do
      failAt start .missingBody
    return [parameters, ← functionBody g]

/-- Reads the name of a function if one stands at the front. -/
def functionName? : Reader (List Node) := do
  if ← atName then return [← name .binding]
  return []

/-- Reads a function from the word `function` on.  A declaration needs a name where `named` says
so, and takes it from the text around it; the name of an expression belongs to the function. -/
def functionFrom (g : Grammar) (start : Nat) (isAsync isDeclaration named : Bool) :
    Reader Node := do
  expectWord "function"
  let isGenerator ← eatMark .star
  let name ←
    if isDeclaration then functionName?
    else
      within (fun around => { around with canAwait := isAsync, canYield := isGenerator })
        functionName?
  if named && name.isEmpty then complain .unexpectedToken
  let parts ← parametersAndBody g start isAsync isGenerator
  let form :=
    if isDeclaration then Form.functionDeclaration isAsync isGenerator
    else Form.functionExpression isAsync isGenerator
  branch start form (name ++ parts)

/-- Whether a parameter takes all arguments that are left. -/
def isRest : Node → Bool
  | .branch _ .rest _ => true
  | _ => false

/-- Complains of the parameters of an accessor: a getter takes none but a rest, and a setter takes
one that is no rest. -/
def checkAccessor (kind : MethodKind) (parameters : Node) : Reader Unit := do
  let start := parameters.span.start
  match kind with
  | .method => pure ()
  | .getter =>
    unless parameters.parts.all isRest do
      complainAt start .parameterCount
  | .setter =>
    unless parameters.parts.length = 1 do
      complainAt start .parameterCount
    match parameters.parts.find? isRest with
    | some rest => complainAt rest.span.start .parameterCount
    | none => pure ()

/-- Reads the parameters and the body of a method whose key has been read. -/
def methodFrom (g : Grammar) (start : Nat) (before : List Node) (key : Node) (kind : MethodKind)
    (isStatic isAsync isGenerator : Bool) : Reader Node := do
  let parts ← parametersAndBody g (← position) isAsync isGenerator
  match parts with
  | parameters :: _ => checkAccessor kind parameters
  | [] => pure ()
  branch start (.method kind isStatic isAsync isGenerator) (before ++ key :: parts)

end ModuleBundler.Script.Grammar

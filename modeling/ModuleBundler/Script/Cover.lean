/-
# ModuleBundler.Script.Cover — expressions that turn out to be targets.

What an assignment or a loop assigns to is read as an expression, and only the operator behind it
shows that it is a target.  Then it is converted here: arrays and objects become patterns, and what
cannot be assigned to is refused.
-/
import ModuleBundler.Script.Reader

namespace ModuleBundler.Script.Node

open Reader

/-- Whether a node is an array or an object. -/
def isCollection : Node → Bool
  | .branch _ (.array _) _ => true
  | .branch _ (.object _) _ => true
  | _ => false

/-- Whether a node is the pattern of an array or an object. -/
def isCollectionPattern : Node → Bool
  | .branch _ .arrayPattern _ => true
  | .branch _ .objectPattern _ => true
  | _ => false

/-- Where the function of a method begins: at its parameters. -/
def functionStart (method : Node) : Nat :=
  let start? := method.parts.findSome? fun
    | .branch span .parameters _ => some span.start
    | _ => none
  start?.getD method.span.start

/-- Complains of a comma behind an element that takes the rest. -/
def checkComma : (comma : Option Nat) → Reader Unit
  | none => pure ()
  | some comma => complainAt comma .misplacedRest

/-- An expression as a target that may have a default value, given how it is read as one that has
none. -/
def targetElement (plain : Reader Node) : Node → Reader Node
  | .branch span (.assign .assign) parts => return .branch span .default parts
  | .leaf span .hole => return .leaf span .hole
  | _ => plain

mutual

/-- An expression as the target of an assignment: a name or a member, in parentheses or not, or an
array or object of targets. -/
def target : Node → Reader Node
  | .leaf span (.name text) => return .leaf span (.name text)
  | .branch span (.member false) parts => return .branch span (.member false) parts
  | .branch span (.index false) parts => return .branch span (.index false) parts
  | .branch span (.array comma) parts =>
    return .branch span .arrayPattern (← targetElements comma parts)
  | .branch span (.object comma) parts =>
    return .branch span .objectPattern (← targetProperties comma parts)
  | .branch span .paren [inner] => do
    if isCollection inner then failAt span.start .invalidTarget
    return .branch span .paren [← target inner]
  | .leaf span _ => failAt span.start .invalidTarget
  | .branch span _ _ => failAt span.start .invalidTarget

/-- The elements of an array as targets.  What takes the rest comes last. -/
def targetElements (comma : Option Nat) : List Node → Reader (List Node)
  | [] => return []
  | .branch span .spread [inner] :: nodes => do
    unless nodes.isEmpty do
      failAt span.start .misplacedRest
    let rest ← target inner
    checkComma comma
    return [.branch span .rest [rest]]
  | node :: nodes => do
    let node ← targetElement (target node) node
    return node :: (← targetElements comma nodes)

/-- The properties of an object as targets.  What takes the rest comes last and is no pattern. -/
def targetProperties (comma : Option Nat) : List Node → Reader (List Node)
  | [] => return []
  | .branch span .spread [inner] :: nodes => do
    unless nodes.isEmpty do
      failAt span.start .misplacedRest
    let rest ← target inner
    if isCollectionPattern rest then
      complainAt rest.span.start .misplacedRest
    checkComma comma
    return [.branch span .rest [rest]]
  | node :: nodes => do
    let node ← targetProperty node
    return node :: (← targetProperties comma nodes)

/-- A property of an object as a target. -/
def targetProperty : Node → Reader Node
  | .branch span .property parts => return .branch span .property (← targetValue parts)
  | .branch span .shorthand parts => return .branch span .shorthand parts
  | .branch span .shorthandDefault parts =>
    return .branch span .shorthand [.branch span .default parts]
  | node => failAt node.functionStart .invalidTarget

/-- A key and its value, the value as a target. -/
def targetValue : List Node → Reader (List Node)
  | [] => return []
  | [value] => return [← targetElement (target value) value]
  | key :: nodes => return key :: (← targetValue nodes)

end

/-- Refuses an expression that cannot be counted up or down. -/
def checkCounted (node : Node) : Reader Unit := do
  if isCollection node then failAt node.span.start .invalidTarget
  let _ ← target node

end ModuleBundler.Script.Node

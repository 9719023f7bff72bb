/-
# ModuleBundler.Script.Grammar.Declaration — declarations of variables.

A constant and a pattern need a value, except where a loop supplies it.  What is declared by `using`
is a name with a value.
-/
import ModuleBundler.Script.Grammar.Expression

namespace ModuleBundler.Script.Grammar

open Reader

/-- Complains of a name or pattern that lacks the value that its declaration needs. -/
def checkValue (keyword : String) (declarator : Node) : Reader Unit :=
  match declarator with
  | .branch _ .declarator [.leaf span _] =>
    if keyword == "const" then complainAt span.stop .missingInitializer else pure ()
  | .branch _ .declarator [target] => complainAt target.span.start .missingInitializer
  | _ => pure ()

/-- Complains of a pattern that `using` declares, and of a name without a value. -/
def checkUsing (declarator : Node) (inLoop : Bool) : Reader Unit := do
  match declarator.parts with
  | .branch span _ _ :: _ => complainAt span.start .invalidTarget
  | _ => pure ()
  match declarator.parts with
  | [target] => unless inLoop do complainAt target.span.start .missingInitializer
  | _ => pure ()

/-- Reads one target of a declaration and its value. -/
def declarator (g : Grammar) (keyword : String) (inLoop : Bool) : Reader Node := do
  let start ← position
  let target ← g.read .pattern
  let value ← if ← eatMark .assign then pure [← g.read .assignment] else pure []
  let node ← branch start .declarator (target :: value)
  if keyword == "using" then checkUsing node inLoop
  else unless inLoop do
    checkValue keyword node
  return node

/-- Reads a declaration of variables, from its keyword on and without its end. -/
def variableList (g : Grammar) (keyword : String) (inLoop : Bool) : Reader Node := do
  let start ← position
  let _ ← eatWord "await"
  expectWord keyword
  let first ← declarator g keyword inLoop
  let others ← many g.steps do
    if ← eatMark .comma then return some (← declarator g keyword inLoop)
    return none
  branch start (.variableDeclaration keyword) (first :: others)

/-- Reads a declaration of variables that began at a position, with its end. -/
def endedVariables (g : Grammar) (start : Nat) (keyword : String) : Reader Node := do
  let node ← variableList g keyword false
  semicolon
  branch start (.variableDeclaration keyword) node.parts

/-- Whether something to bind follows `let`.  In the head of a loop `in` follows the name `let`. -/
def declaresLet : Reader Bool := do
  match (← next).token with
  | .mark .openBracket | .mark .openBrace => return true
  | .word text _ => return text != "in"
  | _ => return false

/-- Whether a name follows `using` on the same line.  In the head of a loop `of` is such a name only
where something follows that belongs to a declaration. -/
def declaresUsing (inLoop : Bool) : Reader Bool := do
  let (first, second) ← ahead
  let isName := isNameLike first && !first.newlineBefore
  match first.token with
  | .word "of" _ =>
    let goesOn := [Token.mark .assign, .mark .semicolon, .mark .colon].contains second.token
    return isName && (!inLoop || goesOn)
  | _ => return isName

/-- The keyword of a declaration of variables that begins at the front, if one does.  `let` and
`using` are names unless something to bind follows. -/
def variablesAhead? (inLoop : Bool) : Reader (Option String) := do
  match ← token with
  | .word "var" _ => return some "var"
  | .word "const" _ => return some "const"
  | .word "let" false => return if ← declaresLet then some "let" else none
  | .word "using" false => return if ← declaresUsing inLoop then some "using" else none
  | .word "await" false =>
    let next ← next
    match next.token with
    | .word "using" _ => return if next.newlineBefore then none else some "using"
    | _ => return none
  | _ => return none

end ModuleBundler.Script.Grammar

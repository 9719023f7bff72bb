/-
# ModuleBundler.Script.Grammar.Pattern — what declarations and parameters bind.

A pattern is a name, or an array or object of patterns with defaults and a rest.  Property keys,
which patterns share with objects and classes, are read here too.
-/
import ModuleBundler.Script.Reader

namespace ModuleBundler.Script.Grammar

open Reader

/-- Reads the key of a property; private names are keys in classes only, and there a constructor has
no private name. -/
def propertyKey (g : Grammar) (inClass : Bool) : Reader Node := do
  let start ← position
  match ← token with
  | .word text _ => atom fun _ => .key text
  | .string value => atom fun _ => .key value
  | .number => atom .key
  | .privateName text =>
    unless inClass do
      unexpected
    if text == "constructor" then complain .invalidMember
    atom fun _ => .key ("#" ++ text)
  | .mark .openBracket =>
    advance
    let key ← bracketed (g.read .assignment)
    expectMark .closeBracket
    branch start .computed [key]
  | _ => unexpected

/-- Reads the default value of a target, if there is one. -/
def withDefault (g : Grammar) (start : Nat) (target : Node) : Reader Node := do
  if ← eatMark .assign then
    let value ← withIn (g.read .assignment)
    branch start .default [target, value]
  else return target

/-- Reads a pattern and its default value. -/
def patternElement (g : Grammar) : Reader Node := do
  let start ← position
  let target ← g.read .pattern
  withDefault g start target

/-- Reads what takes the rest of a list, which has no default value. -/
def restElement (g : Grammar) : Reader Node := do
  let start ← position
  expectMark .ellipsis
  let target ← patternElement g
  match target with
  | .branch span .default _ => complainAt span.start .misplacedRest
  | _ => pure ()
  branch start .rest [target]

/-- Reads what a list binds up to its closing mark, behind what was read before, the last one first.
What takes the rest comes last, and no comma stands behind it. -/
def bindingsFrom (g : Grammar) (close : Mark) (item : Reader Node) :
    (steps : Nat) → (before : List Node) → Reader (List Node)
  | 0, _ => fail .tooDeep
  | steps + 1, before => do
    let isRest ← atMark .ellipsis
    let node ← if isRest then restElement g else item
    let nodes := node :: before
    if ← atMark close then return nodes.reverse
    let comma ← position
    expectMark .comma
    let isClosed ← atMark close
    if isRest then
      complainAt (if isClosed then comma else node.span.start) .misplacedRest
    if isRest || isClosed then return nodes.reverse
    bindingsFrom g close item steps nodes

/-- Reads what a list binds up to its closing mark. -/
def bindings (g : Grammar) (close : Mark) (item : Reader Node) : Reader (List Node) := do
  if (← atMark close) || (← atEnd) then return []
  bindingsFrom g close item g.steps []

/-- Reads an element of an array pattern, or a place left free. -/
def arrayElement (g : Grammar) : Reader Node := do
  let start ← position
  if ← atMark .comma then return .leaf ⟨start, start⟩ .hole
  patternElement g

/-- Reads a property of an object pattern. -/
def patternProperty (g : Grammar) : Reader Node := do
  let start ← position
  let front := (← get).lexeme
  let key ← propertyKey g false
  match front.token with
  | .word text _ =>
    if isNameLike front && !(← atMark .colon) then
      let target ← withDefault g start (.leaf front.span (.binding text))
      return ← branch start .shorthand [target]
  | _ => pure ()
  expectMark .colon
  let value ← patternElement g
  branch start .property [key, value]

/-- Complains of a pattern that takes the rest of an object. -/
def checkObjectRest (properties : List Node) : Reader Unit := do
  match properties.getLast? with
  | some (.branch _ .rest [.leaf _ (.binding _)]) => pure ()
  | some (.branch _ .rest [target]) => complainAt target.span.start .misplacedRest
  | _ => pure ()

/-- Reads a name, an array pattern or an object pattern. -/
def pattern (g : Grammar) : Reader Node := do
  let start ← position
  match ← token with
  | .mark .openBracket =>
    advance
    let elements ← bracketed (bindings g .closeBracket (arrayElement g))
    expectMark .closeBracket
    branch start .arrayPattern elements
  | .mark .openBrace =>
    advance
    let properties ← bracketed (bindings g .closeBrace (patternProperty g))
    checkObjectRest properties
    expectMark .closeBrace
    branch start .objectPattern properties
  | _ => name .binding

end ModuleBundler.Script.Grammar

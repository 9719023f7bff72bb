/-
# ModuleBundler.Script.Grammar.Modifier — what stands before members and parameters.

Decorators stand before classes, members and parameters.  A modifier is a word that says something
about the member behind it, such as that it is static; where no member follows, the same word is
the name of the member.
-/
import ModuleBundler.Script.Grammar.Pattern

namespace ModuleBundler.Script.Grammar

open Reader

/-- Reads the decorators that stand at the front. -/
def decorators (g : Grammar) : Reader (List Node) :=
  many g.steps do
    let start ← position
    if ← eatMark .at then
      let operand ← within (fun around => { around with isDecorator := true }) (g.read .operand)
      return some (← branch start .decorator [operand])
    else return none

/-- Complains of decorators. -/
def refuseDecorators (decorators : List Node) : Reader Unit :=
  match decorators with
  | [] => pure ()
  | first :: _ => complainAt first.span.start .misplacedDecorator

/-- A modifier, and where it stands. -/
structure Modifier where
  word : String
  position : Nat
  deriving DecidableEq, Repr

/-- Whether a word is among modifiers. -/
def hasModifier (modifiers : List Modifier) (word : String) : Bool :=
  modifiers.any (·.word == word)

/-- The words that modify members somewhere. -/
def modifierWords : List String :=
  ["abstract", "accessor", "async", "declare", "default", "export", "in", "out", "override",
    "private", "protected", "public", "readonly", "static"]

/-- Whether what a modifier belongs to may begin with a lexeme. -/
def canFollowModifier (lexeme : Lexeme) : Bool :=
  match lexeme.token with
  | .word _ _ | .string _ | .number | .privateName _ => true
  | .mark mark => [Mark.openBracket, .openBrace, .star, .ellipsis].contains mark
  | _ => false

/-- Whether a word at the front modifies what follows it, which for most words has to follow on
the same line. -/
def modifies (word : String) : Reader Bool := do
  let next ← next
  match word with
  | "static" | "get" | "set" => return canFollowModifier next
  | "export" =>
    match next.token with
    | .mark .star | .mark .openBrace | .word "as" _ => return false
    | _ => return canFollowModifier next
  | "default" =>
    match next.token with
    | .word "class" _ | .word "function" _ | .word "interface" _ => return true
    | _ => return false
  | _ => return !next.newlineBefore && canFollowModifier next

/-- Complains of a modifier that repeats another, that no member has, or that comes too late. -/
def checkModifier (before : List Modifier) (modifier : Modifier) : Reader Unit := do
  let isLate := modifier.word == "static" &&
    (hasModifier before "async" || hasModifier before "accessor")
  let isMember := ["static", "async", "accessor"].contains modifier.word
  if isLate || !isMember || hasModifier before modifier.word then
    complainAt modifier.position .misplacedModifier

/-- Reads modifiers behind those that were read before, the last one first.  Only the first `static`
is one, and in a class it is none before a block. -/
def modifiersFrom (inClass : Bool) : (steps : Nat) → (before : List Modifier) →
    Reader (List Modifier)
  | 0, _ => fail .tooDeep
  | steps + 1, before => do
    match ← token with
    | .word word _ =>
      unless modifierWords.contains word do
        return before.reverse
      if word == "static" then
        let opensBlock := (← next).token == .mark .openBrace
        if hasModifier before "static" || (inClass && opensBlock) then return before.reverse
      unless ← modifies word do
        return before.reverse
      let modifier := ⟨word, ← position⟩
      advanceKeyword
      checkModifier before modifier
      modifiersFrom inClass steps (modifier :: before)
    | _ => return before.reverse

/-- Reads the modifiers that stand at the front. -/
def modifiers (g : Grammar) (inClass : Bool) : Reader (List Modifier) :=
  modifiersFrom inClass g.steps []

/-- Complains of all modifiers but for a given word. -/
def refuseModifiers (modifiers : List Modifier) (allowed : Option String) : Reader Unit :=
  match modifiers.find? fun modifier => some modifier.word != allowed with
  | none => pure ()
  | some modifier => complainAt modifier.position .misplacedModifier

/-- Passes over the word `get` or `set` where it makes an accessor of the member behind it. -/
def eatAccessor : Reader MethodKind := do
  if ← atWord "get" then
    if ← modifies "get" then
      advanceKeyword
      return .getter
  if ← atWord "set" then
    if ← modifies "set" then
      advanceKeyword
      return .setter
  return .method

end ModuleBundler.Script.Grammar

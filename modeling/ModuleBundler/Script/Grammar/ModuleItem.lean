/-
# ModuleBundler.Script.Grammar.ModuleItem — import and export declarations.

The names that these declarations mention are kept in their forms; only an exported declaration or
value is a part of its branch.  The options behind a source say how to load it and are dropped.
-/
import ModuleBundler.Script.Grammar.Declaration

namespace ModuleBundler.Script.Grammar

open Reader

/-- Reads the string that names a module. -/
def source : Reader Source := do
  match ← token with
  | .string value =>
    let span := (← get).lexeme.span
    advance
    return ⟨span, value⟩
  | _ => unexpected

/-- A name as import and export lists have it: a word, or a string. -/
structure ListedName where
  text : String
  span : Span
  isWord : Bool

/-- Reads a name of an import or export list. -/
def listedName : Reader ListedName := do
  let span := (← get).lexeme.span
  match ← token with
  | .word text _ =>
    advance
    return ⟨text, span, true⟩
  | .string value =>
    advance
    return ⟨value, span, false⟩
  | _ => unexpected

/-- Reads a name that a declaration binds. -/
def boundName : Reader String := do
  match ← name .binding with
  | .leaf _ (.binding text) => return text
  | _ => unexpected

/-- Reads one option behind a source: its key. -/
def sourceOption : Reader ListedName := do
  let key ← listedName
  expectMark .colon
  match ← token with
  | .string _ => advance
  | _ => unexpected
  return key

/-- The name that the first repetition in a list repeats, behind the names before the list, the last
one first. -/
def repeatedName? (before : List ListedName) : List ListedName → Option ListedName
  | [] => none
  | name :: names =>
    match before.find? (·.text == name.text) with
    | some first => some first
    | none => repeatedName? (name :: before) names

/-- Passes over the options behind a source, which have different keys. -/
def sourceOptions (g : Grammar) : Reader Unit := do
  let isOptions ←
    if ← atWord "assert" then pure !(← afterNewline)
    else atWord "with"
  if isOptions then
    advanceKeyword
    expectMark .openBrace
    let (keys, _) ← list g.steps .closeBrace sourceOption
    match repeatedName? [] keys with
    | some key => complainAt key.span.start .repeatedOption
    | none => pure ()

/-! ## Import declarations -/

/-- Reads one entry of an import list. -/
def importEntry : Reader ImportBinding := do
  let front := (← get).lexeme
  let imported ← listedName
  if ← eatWord "as" then
    return .named imported.text (← boundName)
  unless isNameLike front do
    failAt imported.span.start .unexpectedToken
  checkName imported.span.start imported.text
  return .named imported.text imported.text

/-- Reads what an import declaration binds besides the default export. -/
def importList (g : Grammar) : Reader (List ImportBinding) := do
  if ← eatMark .star then
    expectWord "as"
    return [.namespace (← boundName)]
  expectMark .openBrace
  let (entries, _) ← list g.steps .closeBrace importEntry
  return entries

/-- Reads what follows the first name of an import declaration that began at a position: other
bindings or none, and the word before the source. -/
def importListFrom (g : Grammar) (start : Nat) (first : String) : Reader (List ImportBinding) := do
  if ← eatMark .comma then
    let others ← importList g
    expectWord "from"
    return .default first :: others
  unless ← eatWord "from" do
    failAt start .unexpectedToken
  return [.default first]

/-- Reads what follows `import source`: the only name that is bound, if `source` says in which phase
a module is imported, or what follows the name `source`. -/
def sourcePhaseFrom (g : Grammar) (start : Nat) : Reader (List ImportBinding) := do
  if ← eatWord "from" then
    match ← token with
    | .string _ => return [.default "source"]
    | _ =>
      if ← eatWord "from" then return [.default "from"]
      importListFrom g start "source"
  else if ← atName then
    let bound ← boundName
    expectWord "from"
    return [.default bound]
  else importListFrom g start "source"

/-- Reads what an import declaration binds, and the word before the source. -/
def importBindings (g : Grammar) (start : Nat) : Reader (List ImportBinding) := do
  if ← atName then
    let first ← boundName
    if first == "source" then return ← sourcePhaseFrom g start
    unless first == "defer" && (← atMark .star) do
      return ← importListFrom g start first
  let bindings ← importList g
  expectWord "from"
  return bindings

/-- Reads an import declaration. -/
def importDeclaration (g : Grammar) : Reader Node := do
  let start ← position
  expectWord "import"
  let bindings ← match ← token with
    | .string _ => pure []
    | _ => importBindings g start
  let source ← source
  sourceOptions g
  semicolon
  branch start (.importDeclaration bindings source) []

/-! ## Export declarations -/

/-- An entry of an export list, with the name of the value as it was listed. -/
structure ListedExport where
  listed : ListedName
  entry : ExportEntry

/-- Reads one entry of an export list. -/
def exportEntry : Reader ListedExport := do
  let start ← position
  let value ← listedName
  let exported ← if ← eatWord "as" then listedName else pure value
  let span : Span := ⟨start, (← get).previousStop⟩
  return ⟨value, ⟨span, value.text, exported.text, exported.span⟩⟩

/-- The words that name no variable of a module, besides the reserved ones. -/
def moduleWords : List String :=
  ["await", "implements", "interface", "let", "package", "private", "protected", "public", "static",
    "yield"]

/-- Complains of an entry that can only pass on the export of another module. -/
def checkLocal (item : ListedExport) : Reader Unit := do
  let name := item.listed
  unless name.isWord do
    failAt name.span.start .misplacedWord
  if reservedWords.contains name.text || moduleWords.contains name.text then
    complainAt name.span.start .misplacedWord

/-- Whether a literal stands at the front. -/
def atLiteral : Reader Bool := do
  match ← token with
  | .string _ | .number | .word "null" _ | .word "true" _ | .word "false" _ => return true
  | _ => return false

/-- Reads an export list and the module it may come from.  Without one, the values are variables; a
word `from` that no literal follows says nothing. -/
def exportList (g : Grammar) (start : Nat) : Reader Node := do
  expectMark .openBrace
  let (listed, _) ← list g.steps .closeBrace exportEntry
  let entries := listed.map (·.entry)
  let hasFrom ← eatWord "from"
  if hasFrom && (← atLiteral) then
    let source ← source
    sourceOptions g
    semicolon
    branch start (.exportList entries (some source)) []
  else
    listed.forM checkLocal
    semicolon
    branch start (.exportList entries none) []

/-- Reads the export of all that a module exports. -/
def exportAll (g : Grammar) (start : Nat) : Reader Node := do
  expectMark .star
  let exportedAs ←
    if ← eatWord "as" then
      let name ← listedName
      pure (some (name.text, name.span))
    else pure none
  expectWord "from"
  let source ← source
  sourceOptions g
  semicolon
  branch start (.exportAll exportedAs source) []

/-- Reads a function declaration that began at a position, asynchronous or not. -/
def functionDeclaration (g : Grammar) (start : Nat) (named : Bool) : Reader Node := do
  let isAsync ← isAsyncFunctionAhead
  if isAsync then advanceKeyword
  functionFrom g start isAsync true named

/-- Reads decorators behind the word `export`, and complains of them if there are others before
it. -/
def exportedDecorators (g : Grammar) (before : List Node) : Reader (List Node) := do
  let after ← decorators g
  unless before.isEmpty do
    refuseDecorators after
  return after

/-- Reads a default export, from the word `default` on, behind decorators that stand before the
export.  Only a class has decorators. -/
def exportDefault (g : Grammar) (start : Nat) (before : List Node) : Reader Node := do
  let keyword := (← get).lexeme.span
  expectWord "default"
  let valueStart ← position
  let after ← exportedDecorators g before
  let value ←
    if ← atWord "class" then classFrom g valueStart after true
    else
      refuseDecorators (before ++ after)
      if (← atWord "function") || (← isAsyncFunctionAhead) then
        functionDeclaration g (← position) false
      else
        let value ← g.read .assignment
        semicolon
        pure value
  branch start (.exportDefault keyword) [value]

/-- Reads the declaration behind the word `export`, behind decorators that stand before the export.
Only a class has decorators, but every declaration begins with those that stand before it. -/
def exportedDeclaration (g : Grammar) (before : List Node) : Reader Node := do
  let start ← position
  let after ← exportedDecorators g before
  if ← atWord "class" then return ← classFrom g start after true
  refuseDecorators (before ++ after)
  match ← token with
  | .word "var" _ => endedVariables g start "var"
  | .word "let" _ => endedVariables g start "let"
  | .word "const" _ => endedVariables g start "const"
  | _ =>
    if (← atWord "function") || (← isAsyncFunctionAhead) then functionDeclaration g start true
    else unexpected

/-- Reads an export declaration behind decorators. -/
def exportDeclaration (g : Grammar) (before : List Node) : Reader Node := do
  let start ← position
  expectWord "export"
  match ← token with
  | .mark .star => exportAll g start
  | .mark .openBrace => exportList g start
  | .word "default" _ => exportDefault g start before
  | _ => branch start .exportDeclaration [← exportedDeclaration g before]

/-- Takes down a declaration that makes its script a module.  Inside of functions it does not. -/
def recorded (declaration : Node) : Reader Node := do
  if (← get).surroundings.isOutermost then
    note fun notes =>
      { notes with isModule := true, declarations := declaration :: notes.declarations }
  return declaration

end ModuleBundler.Script.Grammar

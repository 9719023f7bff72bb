/-
# ModuleBundler.Conversion.Linkage — module items in terms of `require` and `exports`.

Every item of a script contributes to its conversion independently of the others, except that
temporary names are numbered.  This module says what one item contributes: the module it names, the
edit of the text, the exported names with the expressions that compute them, and the statements
that run before the script.
-/
import ModuleBundler.Conversion.Edit
import ModuleBundler.Script.ExportName
import ModuleBundler.Text.Quoted

namespace ModuleBundler.Conversion

open Script

/-- A name exported by a script; `value` is the expression that a getter returns, and there is none
where the script assigns the export itself. -/
structure Export where
  name : String
  value : Option String
  span : Span
  deriving DecidableEq, Repr

/-- The temporary name of a number. -/
def temporary (number : Nat) : String :=
  "__minipack_dep" ++ toString number

/-- The call that loads a module, with its literal as written. -/
def requireCall (text : List Char) (source : Source) : String :=
  "require(" ++ String.ofList (source.literal.slice text) ++ ")"

/-- The default export of a module: scripts that are no modules are their own default. -/
def defaultOf (object : String) : String :=
  object ++ " && " ++ object ++ ".__esModule ? " ++ object ++ ".default : " ++ object

/-- A property of an object, behind a point where its name allows that. -/
def propertyOf (object name : String) : String :=
  if isPlainName name then object ++ "." ++ name
  else object ++ "[" ++ Text.quoted name ++ "]"

/-- An export of a module by its name. -/
def exportOf (object name : String) : String :=
  if name == "default" then defaultOf object else propertyOf object name

/-- The statement that declares what one import binds. -/
def bindingStatement (object : String) : ImportBinding → String
  | .default name => "var " ++ name ++ " = " ++ defaultOf object ++ ";"
  | .namespace name => "var " ++ name ++ " = " ++ object ++ ";"
  | .named imported name => "var " ++ name ++ " = " ++ exportOf object imported ++ ";"

/-- Whether the module that an item names is kept in a temporary variable. -/
def needsTemporary : ModuleItem → Bool
  | .importDeclaration _ [] _ => false
  | .importDeclaration _ [.namespace _] _ => false
  | .importDeclaration _ _ _ => true
  | .exportList _ _ source => source.isSome
  | .exportAll _ exportedAs _ => exportedAs.isSome
  | _ => false

/-- The statements that run before the script for an item, on one line. -/
def hoisted? (text : List Char) (object : String) : ModuleItem → Option String
  | .importDeclaration _ [] source => some (requireCall text source ++ ";")
  | .importDeclaration _ [.namespace name] source =>
    some ("var " ++ name ++ " = " ++ requireCall text source ++ ";")
  | .importDeclaration _ bindings source =>
    some (" ".intercalate
      (("var " ++ object ++ " = " ++ requireCall text source ++ ";") ::
        bindings.map (bindingStatement object)))
  | .exportList _ _ (some source) =>
    some ("var " ++ object ++ " = " ++ requireCall text source ++ ";")
  | .exportAll _ (some _) source =>
    some ("var " ++ object ++ " = " ++ requireCall text source ++ ";")
  | .exportAll _ none source =>
    some ("__minipack_exportStar(" ++ requireCall text source ++ ", exports);")
  | _ => none

/-- What an item exports. -/
def exports (object : String) : ModuleItem → List Export
  | .exportList _ entries source =>
    entries.map fun entry =>
      let value := if source.isSome then exportOf object entry.value else entry.value
      ⟨entry.exported, some value, entry.span⟩
  | .exportAll span (some (name, _)) _ => [⟨name, some object, span⟩]
  | .exportDeclaration span _ names => names.map fun (name, _) => ⟨name, some name, span⟩
  | .exportDefault span _ _ name => [⟨"default", name, span⟩]
  | _ => []

/-- The edit that takes an item out of the text or puts its replacement there. -/
def edit? (text : List Char) : ModuleItem → Option Edit
  | .importDeclaration span _ _ => some (Edit.replacing text span "")
  | .exportList span _ _ => some (Edit.replacing text span "")
  | .exportAll span _ _ => some (Edit.replacing text span "")
  | .exportDeclaration span start _ => some (Edit.replacing text ⟨span.start, start⟩ "")
  | .exportDefault span _ start name =>
    some (Edit.replacing text ⟨span.start, start⟩
      (if name.isSome then "" else "exports.default = "))
  | .dynamicImport span source =>
    some (Edit.replacing text span
      ("Promise.resolve().then(function () \x7b return " ++ requireCall text source ++ "; \x7d)"))
  | .requireCall _ => none

/-- Whether an item exports all that a module exports under the same names. -/
def passesAll : ModuleItem → Bool
  | .exportAll _ none _ => true
  | _ => false

/-- Items with the numbers of their temporary names, counted from a number on. -/
def numbered : (number : Nat) → List ModuleItem → List (String × ModuleItem)
  | _, [] => []
  | number, item :: items =>
    (temporary number, item) :: numbered (if needsTemporary item then number + 1 else number) items

end ModuleBundler.Conversion

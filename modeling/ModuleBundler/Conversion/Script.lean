/-
# ModuleBundler.Conversion.Script — a script converted for a module registry.

`convert` turns a script with import and export declarations into one that loads modules by
`require` and leaves its exports in `exports`.  Getters for the exports and the statements that
load modules stand on one line before the script, the prologue; the rest of the text stays as it
is but for the edits of the items.
-/
import ModuleBundler.Conversion.Linkage

namespace ModuleBundler

open Script

/-- A module as the bundle holds it: the specifiers it names, each once and in the order of the
text, and its code. -/
structure CompiledModule where
  specifiers : List String
  code : String
  deriving DecidableEq, Repr

namespace Conversion

/-- Why a script cannot be converted. -/
inductive Fault
  | malformed (error : SyntaxError)
  /-- a name is exported again at a position -/
  | repeatedExport (name : String) (position : Nat)
  deriving DecidableEq, Repr

/-- A list without the elements that occur in it before. -/
def distinct : List String → List String
  | [] => []
  | x :: xs => x :: (distinct xs).filter (· != x)

/-- The specifiers that items name. -/
def specifiers (items : List ModuleItem) : List String :=
  distinct (items.filterMap fun item => item.source?.map (·.specifier))

/-- What items export, in the order of the text. -/
def allExports (items : List ModuleItem) : List Export :=
  (numbered 0 items).flatMap fun (object, item) => exports object item

/-- The first export whose name has been exported before. -/
def repeated? : (seen : List String) → List Export → Option Export
  | _, [] => none
  | seen, first :: others =>
    if seen.contains first.name then some first else repeated? (first.name :: seen) others

/-- The statement that defines the getter of an export. -/
def getter (name value : String) : String :=
  "Object.defineProperty(exports, " ++ Text.quoted name ++
    ", \x7b enumerable: true, get: function () \x7b return " ++ value ++ "; \x7d \x7d);"

/-- The function that defines getters for all exports of another module. -/
def passAllFunction : String :=
  "function __minipack_exportStar(from, to) \x7b Object.keys(from).forEach(function (key) \x7b " ++
    "if (key !== \"default\" && !Object.prototype.hasOwnProperty.call(to, key)) " ++
    "Object.defineProperty(to, key, \x7b enumerable: true, get: function () " ++
    "\x7b return from[key]; \x7d \x7d); \x7d); \x7d"

/-- The line before the text of a module. -/
def prologue (text : List Char) (items : List ModuleItem) : String :=
  let getters := (allExports items).filterMap fun (item : Export) =>
    item.value.map (getter item.name)
  let functions := if items.any passesAll then [passAllFunction] else []
  let statements := (numbered 0 items).filterMap fun (object, item) => hoisted? text object item
  " ".intercalate
    ("\"use strict\";" :: "Object.defineProperty(exports, \"__esModule\", \x7b value: true \x7d);" ::
      getters ++ functions ++ statements)

/-- All edits of a script. -/
def edits (text : List Char) (hashbang : Option Span) (items : List ModuleItem) : List Edit :=
  (hashbang.toList.map fun span => Edit.replacing text span "") ++ items.filterMap (edit? text)

/-- The text of a converted script whose items are known and whose exports do not repeat. -/
def code (text : List Char) (hashbang : Option Span) (items : List ModuleItem) : List Char :=
  let body := splice text (edits text hashbang items)
  if items.any ModuleItem.isDeclaration then (prologue text items).toList ++ '\n' :: body else body

/-- Converts the items of a script that has been read. -/
def convertProgram (text : List Char) (program : Program) : Except Fault CompiledModule :=
  match repeated? [] (allExports program.items) with
  | some again => .error (.repeatedExport again.name again.span.start)
  | none =>
    .ok ⟨specifiers program.items,
      String.ofList (code text program.hashbang program.items)⟩

/-- Reads and converts a script.  Unless types are expected, a name that is exported twice is a
fault of the text like any other. -/
def convert (isTyped : Bool) (text : List Char) : Except Fault CompiledModule :=
  match Program.read isTyped text with
  | .error error => .error (.malformed error)
  | .ok program =>
    match program.fault? isTyped with
    | some error => .error (.malformed error)
    | none => convertProgram text program

end Conversion

end ModuleBundler

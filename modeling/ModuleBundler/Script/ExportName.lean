/-
# ModuleBundler.Script.ExportName — the names that a script exports.

A script may export each name once.  Which occurrence is reported depends on the kind of export:
of two equal names in lists and declarations the earlier one; of several default exports the first
that is the script's own, before those that pass on another module's.
-/
import ModuleBundler.Script.ModuleItem

namespace ModuleBundler.Script

/-- The names that an item exports, with their ranges. -/
def ModuleItem.exportedNames : ModuleItem → List (String × Span)
  | .exportList _ entries _ => entries.map fun entry => (entry.exported, entry.exportedSpan)
  | .exportAll _ exportedAs _ => exportedAs.toList
  | .exportDeclaration _ _ names => names
  | .exportDefault _ keyword _ _ => [("default", keyword)]
  | .importDeclaration _ _ _ => []
  | .dynamicImport _ _ => []
  | .requireCall _ => []

/-- The earlier occurrence of the first name in a list that occurs in it before. -/
def firstRepeated? : (seen names : List (String × Span)) → Option (String × Span)
  | _, [] => none
  | seen, (name, span) :: names =>
    match seen.find? fun earlier => earlier.1 == name with
    | some earlier => some earlier
    | none => firstRepeated? ((name, span) :: seen) names

/-- Whether an item is a default export by its keyword. -/
def ModuleItem.isExportDefault : ModuleItem → Bool
  | .exportDefault _ _ _ _ => true
  | _ => false

/-- The names that import declarations bind to single exports. -/
def importedNames (items : List ModuleItem) : List String :=
  items.flatMap fun
    | .importDeclaration _ bindings _ =>
      bindings.filterMap fun
        | .default name => some name
        | .named _ name => some name
        | .namespace _ => none
    | _ => []

/-- The ranges of the default exports of an item that export a value of the script itself. -/
def ModuleItem.ownDefaults (imported : List String) : ModuleItem → List Span
  | .exportList _ entries none =>
    entries.filterMap fun entry =>
      if entry.exported == "default" && !imported.contains entry.value then some entry.exportedSpan
      else none
  | .exportDefault _ keyword _ _ => [keyword]
  | _ => []

/-- The ranges of the default exports of an item that pass on the export of another module. -/
def ModuleItem.passedDefaults (imported : List String) : ModuleItem → List Span
  | .exportList _ entries none =>
    entries.filterMap fun entry =>
      if entry.exported == "default" && imported.contains entry.value then some entry.exportedSpan
      else none
  | .exportList _ entries (some _) =>
    entries.filterMap fun entry =>
      if entry.exported == "default" then some entry.exportedSpan else none
  | .exportAll _ (some (name, span)) _ => if name == "default" then [span] else []
  | _ => []

/-- Where a name that items export twice is reported, if there is one. -/
def repeatedExport? (items : List ModuleItem) : Option Nat :=
  let listed := (items.filter fun item => !item.isExportDefault).flatMap ModuleItem.exportedNames
  match firstRepeated? [] listed with
  | some (_, span) => some span.start
  | none =>
    let imported := importedNames items
    match items.flatMap (ModuleItem.ownDefaults imported) ++
        items.flatMap (ModuleItem.passedDefaults imported) with
    | first :: _ :: _ => some first.start
    | _ => none

/-- What is wrong with a script that has been read: it exports a name twice outside of every
function, or it does not fit what it is.  Where types are expected exports are not looked at. -/
def Program.fault? (isTyped : Bool) (program : Program) : Option SyntaxError :=
  let items := program.declarations.filterMap Node.item?
  let repeated := if isTyped then none else repeatedExport? items
  repeated.map (⟨·, .duplicateExport⟩) <|> program.misfit

end ModuleBundler.Script

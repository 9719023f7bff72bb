/-
# ModuleBundler.Script.ModuleItem — what a script says about other modules.

`Program.items` lists, in the order of the text, every construct that names a module or exports
something: declarations, imports at run time, and calls of `require`.  Everything that a conversion
needs to know of a script is in this list.
-/
import ModuleBundler.Script.Program

namespace ModuleBundler.Script

/-- A construct that names a module or exports something. -/
inductive ModuleItem
  | importDeclaration (span : Span) (bindings : List ImportBinding) (source : Source)
  | exportList (span : Span) (entries : List ExportEntry) (source : Option Source)
  | exportAll (span : Span) (name : Option (String × Span)) (source : Source)
  /-- an exported declaration: where it begins, and the names it binds -/
  | exportDeclaration (span : Span) (start : Nat) (names : List (String × Span))
  /-- a default export: where its value begins, and the name it declares -/
  | exportDefault (span keyword : Span) (start : Nat) (name : Option String)
  /-- an import at run time -/
  | dynamicImport (span : Span) (source : Source)
  /-- a call of `require` -/
  | requireCall (source : Source)
  deriving DecidableEq, Repr

namespace ModuleItem

/-- The module that an item names. -/
def source? : ModuleItem → Option Source
  | .importDeclaration _ _ source => some source
  | .exportList _ _ source => source
  | .exportAll _ _ source => some source
  | .exportDeclaration _ _ _ => none
  | .exportDefault _ _ _ _ => none
  | .dynamicImport _ source => some source
  | .requireCall source => some source

/-- Whether an item makes its script a module: a declaration does, an expression does not. -/
def isDeclaration : ModuleItem → Bool
  | .dynamicImport _ _ => false
  | .requireCall _ => false
  | _ => true

end ModuleItem

namespace Node

/-- The item that a branch is, and whether its parts hold no further items. -/
def itemOf? (span : Span) (form : Form) (parts : List Node) : Option (ModuleItem × Bool) :=
  match form, parts with
  | .importDeclaration bindings source, _ => some (.importDeclaration span bindings source, true)
  | .exportList entries source, _ => some (.exportList span entries source, true)
  | .exportAll exportedAs source, _ => some (.exportAll span exportedAs source, true)
  | .exportDeclaration, [declaration] =>
    some (.exportDeclaration span declaration.span.start declaration.bindings, false)
  | .exportDefault keyword, [value] =>
    some (.exportDefault span keyword value.span.start value.declaredName?, false)
  | .dynamicImport, .leaf literal (.string specifier) :: _ =>
    some (.dynamicImport span ⟨literal, specifier⟩, true)
  | .call _, [.leaf _ (.name "require"), .leaf literal (.string specifier)] =>
    some (.requireCall ⟨literal, specifier⟩, false)
  | _, _ => none

/-- The item that a construct itself is. -/
def item? : Node → Option ModuleItem
  | .leaf _ _ => none
  | .branch span form parts => (itemOf? span form parts).map (·.1)

mutual

/-- The items of a construct, in the order of the text. -/
def items : Node → List ModuleItem
  | .leaf _ _ => []
  | .branch span form parts =>
    match itemOf? span form parts with
    | some (item, true) => [item]
    | some (item, false) => item :: itemsOfAll parts
    | none => itemsOfAll parts

/-- The items of a list of constructs. -/
def itemsOfAll : List Node → List ModuleItem
  | [] => []
  | node :: nodes => items node ++ itemsOfAll nodes

end

end Node

/-- The items of a script, in the order of the text. -/
def Program.items (program : Program) : List ModuleItem :=
  Node.itemsOfAll program.statements

end ModuleBundler.Script

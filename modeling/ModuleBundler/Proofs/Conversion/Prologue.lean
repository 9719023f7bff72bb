/-
# ModuleBundler.Proofs.Conversion.Prologue — what runs before a converted script.

The prologue of a module is a line of statements, and `Prologue.Lawful` says which: getters for
what the script exports, the function that passes all exports of a module on if there is need of
it, and then, declaration by declaration, the calls that load modules, each with what it binds
behind it.  Getters and bindings reach the modules by the variables that hold them, and every
module that is needed more than once is held by a variable of its own (`convert_prologue`).

The names of these variables are not looked for in the script.  One that an import declaration
binds, too, is declared twice (`temporary_rebound`).
-/
import Mathlib.Data.List.Forall2
import ModuleBundler.Proofs.Conversion.Splicing
import ModuleBundler.Proofs.Script.Literals
import ModuleBundler.Proofs.Script.LoadSites

namespace ModuleBundler.Conversion

open Script

/-! ## Statements of a prologue -/

/-- What a getter returns or a variable gets for its value. -/
inductive Expression
  | variable (name : String)
  /-- the default export of the module that an object is, or else the object -/
  | default (object : String)
  | property (object name : String)
  deriving DecidableEq, Repr

def Expression.text : Expression → String
  | .variable name => name
  | .default object => defaultOf object
  | .property object name => propertyOf object name

inductive Statement
  /-- the directive for strict scripts -/
  | strict
  /-- the mark of a module -/
  | marker
  /-- a getter for an exported name -/
  | getter (name : String) (value : Expression)
  /-- the function that passes on all exports of a module -/
  | passAllFunction
  /-- a call of `require`, whose value a variable may hold -/
  | load (variable_ : Option String) (source : Source)
  /-- a call of the function with what a call of `require` returns -/
  | passAll (source : Source)
  | declare (name : String) (value : Expression)
  deriving DecidableEq, Repr

namespace Statement

/-- How a statement is written; the literal of a source is that of a text. -/
def text (text : List Char) : Statement → String
  | .strict => "\"use strict\";"
  | .marker => "Object.defineProperty(exports, \"__esModule\", \x7b value: true \x7d);"
  | .getter name value => Conversion.getter name value.text
  | .passAllFunction => Conversion.passAllFunction
  | .load none source => requireCall text source ++ ";"
  | .load (some name) source => "var " ++ name ++ " = " ++ requireCall text source ++ ";"
  | .passAll source => "__minipack_exportStar(" ++ requireCall text source ++ ", exports);"
  | .declare name value => "var " ++ name ++ " = " ++ value.text ++ ";"

@[simp] theorem text_load (text : List Char) (name : String) (source : Source) :
    (load (some name) source).text text =
      "var " ++ name ++ " = " ++ requireCall text source ++ ";" := rfl

@[simp] theorem text_call (text : List Char) (source : Source) :
    (load none source).text text = requireCall text source ++ ";" := rfl

@[simp] theorem text_passAll (text : List Char) (source : Source) :
    (passAll source).text text =
      "__minipack_exportStar(" ++ requireCall text source ++ ", exports);" := rfl

@[simp] theorem text_declare (text : List Char) (name : String) (value : Expression) :
    (declare name value).text text = "var " ++ name ++ " = " ++ value.text ++ ";" := rfl

/-- The module that a statement loads. -/
def required? : Statement → Option Source
  | .load _ source => some source
  | .passAll source => some source
  | _ => none

/-- The variable that a statement declares. -/
def declared? : Statement → Option String
  | .load name _ => name
  | .declare name _ => some name
  | _ => none

/-- The property of `exports` that a statement defines. -/
def defined? : Statement → Option String
  | .marker => some "__esModule"
  | .getter name _ => some name
  | _ => none

end Statement

/-- The statements that load the module of one declaration, and the variable that holds it if it is
needed again. -/
structure Loading where
  temporary : Option String
  source : Source
  statements : List Statement
  deriving DecidableEq, Repr

/-- The statements of a prologue, behind the two with which every prologue begins. -/
structure Prologue where
  getters : List Statement
  functions : List Statement
  loadings : List Loading
  deriving DecidableEq, Repr

namespace Prologue

def statements (prologue : Prologue) : List Statement :=
  .strict :: .marker :: prologue.getters ++ prologue.functions ++
    prologue.loadings.flatMap (·.statements)

/-- The variables that hold modules. -/
def temporaries (prologue : Prologue) : List String :=
  prologue.loadings.filterMap (·.temporary)

/-- The variables that are declared. -/
def declared (prologue : Prologue) : List String :=
  prologue.statements.filterMap Statement.declared?

/-- The properties of `exports` that are defined. -/
def defined (prologue : Prologue) : List String :=
  prologue.statements.filterMap Statement.defined?

/-- How a prologue is written. -/
def text (text : List Char) (prologue : Prologue) : String :=
  " ".intercalate (prologue.statements.map (Statement.text text))

end Prologue

/-! ## What the statements have to be -/

/-- An expression denotes what a name stands for: a variable of the script itself, or an export of a
module, all of them, or the default one, reached by the variable that holds the module. -/
inductive Expression.Denotes (loadings : List Loading) : Expression → Shown → Prop
  | variable {name : String} : Denotes loadings (.variable name) (.variable name)
  | module {loading : Loading} {object : String} (mem : loading ∈ loadings)
    (holds : loading.temporary = some object) :
    Denotes loadings (.variable object) (.module loading.source)
  | default {loading : Loading} {object : String} (mem : loading ∈ loadings)
    (holds : loading.temporary = some object) :
    Denotes loadings (.default object) (.member loading.source "default")
  | member {loading : Loading} {object name : String} (mem : loading ∈ loadings)
    (holds : loading.temporary = some object) (named : name ≠ "default") :
    Denotes loadings (.property object name) (.member loading.source name)

/-- A statement defines the getter of an exported name, which returns what the name stands for. -/
def Statement.Gets (loadings : List Loading) (site : ExportSite) (statement : Statement) : Prop :=
  ∃ value : Expression, statement = .getter site.name value ∧ value.Denotes loadings site.shown

/-- A statement declares what an import binds: a variable for the module that is loaded, or one that
gets an export of it. -/
inductive Statement.Binds (loading : Loading) : ImportBinding → Statement → Prop
  | module {name : String} : Binds loading (.namespace name) (.load (some name) loading.source)
  | export {binding : ImportBinding} {value : Expression}
    (denotes : value.Denotes [loading] (binding.shown loading.source)) :
    Binds loading binding (.declare binding.locally value)

/-- The statements for a declaration: the first one loads its module, no other one does, and the
last ones declare one by one what it binds.  Before them at most the temporary variable is
declared.  The function that passes all exports on is called if the declaration asks for that. -/
structure Loading.Lawful (site : LoadSite) (loading : Loading) : Prop where
  source : loading.source = site.source
  first : loading.statements.head?.bind Statement.required? = some site.source
  once : loading.statements.filterMap Statement.required? = [site.source]
  binds : ∃ before bindings, loading.statements = before ++ bindings ∧
    before.filterMap Statement.declared? = loading.temporary.toList ∧
    List.Forall₂ (Statement.Binds loading) site.usage.bindings bindings
  passes : Statement.passAll site.source ∈ loading.statements ↔ site.usage = .passesAll

/-- The statements for a script.  Its getters and its calls follow the order in which the script
exports names and loads modules.  The variables that hold modules are different from each other, and
are declared once, unless a declaration of the script binds the same name. -/
structure Prologue.Lawful (program : Program) (prologue : Prologue) : Prop where
  getters : ∃ sites, program.Lists Node.ExportsAt ExportSite.Before sites ∧
    (program.InOrder → sites.Pairwise ExportSite.Before) ∧
    List.Forall₂ (Statement.Gets prologue.loadings) (sites.filter (·.shown ≠ .value))
      prologue.getters
  functions : (prologue.functions = [.passAllFunction] ∧ ∃ node ∈ program.statements, ∃ site,
      node.LoadsAt site ∧ site.usage = .passesAll) ∨
    (prologue.functions = [] ∧ ∀ node ∈ program.statements, ∀ site,
      node.LoadsAt site → site.usage ≠ .passesAll)
  loadings : ∃ sites, program.Lists Node.LoadsAt LoadSite.Before sites ∧
    (program.InOrder → sites.Pairwise LoadSite.Before) ∧
    List.Forall₂ Loading.Lawful sites prologue.loadings
  numbered : prologue.temporaries =
    (List.range prologue.temporaries.length).map temporary
  distinct : prologue.temporaries.Nodup
  declared : ∀ name ∈ prologue.temporaries, prologue.declared.count name = 1 ↔
    ∀ node ∈ program.statements, ∀ site, node.LoadsAt site → ∀ binding ∈ site.usage.bindings,
      binding.locally ≠ name

/-- What stands behind an object reaches a property of it: a point and a word that is the name, or a
literal in brackets that stands for the name. -/
inductive Reaches (name : String) : List Char → Prop
  | word {letters : List Char}
    (read : ∀ c rest, isNamePart c = false → c ≠ '\\' → ∀ position newline,
      Scan.token (letters ++ c :: rest) position newline =
        Scan.taken (.word name false) letters.length (letters ++ c :: rest) position newline) :
    Reaches name ('.' :: letters)
  | literal {literal : List Char}
    (read : ∀ rest position newline, Scan.token (literal ++ rest) position newline =
      Scan.taken (.string name) literal.length (literal ++ rest) position newline) :
    Reaches name ('[' :: literal ++ [']'])

/-! ## The statements for an item -/

/-- An export of the module that an object is. -/
def exportExpression (object name : String) : Expression :=
  if name == "default" then .default object else .property object name

theorem text_exportExpression (object name : String) :
    (exportExpression object name).text = exportOf object name := by
  unfold exportExpression exportOf
  split <;> rfl

/-- The expression for what a name stands for, if there is need of one; the object is the module
that it may be an export of. -/
def expression? (object : String) : Shown → Option Expression
  | .variable name => some (.variable name)
  | .member _ name => some (exportExpression object name)
  | .module _ => some (.variable object)
  | .value => none

/-- The declaration of what an import binds. -/
def bindingOf (object : String) : ImportBinding → Statement
  | .default name => .declare name (.default object)
  | .namespace name => .declare name (.variable object)
  | .named imported name => .declare name (exportExpression object imported)

/-- The statements for a declaration that loads a module, with the name that its temporary variable
has if there is need of one. -/
def loadingOf (object : String) (site : LoadSite) : Loading :=
  match site.usage with
  | .imports [] => ⟨none, site.source, [.load none site.source]⟩
  | .imports [.namespace name] => ⟨none, site.source, [.load (some name) site.source]⟩
  | .passesAll => ⟨none, site.source, [.passAll site.source]⟩
  | usage =>
    ⟨some object, site.source,
      .load (some object) site.source :: usage.bindings.map (bindingOf object)⟩

def gettersOf (own : String × ModuleItem) : List Statement :=
  own.2.exportSites.filterMap fun site =>
    (expression? own.1 site.shown).map (Statement.getter site.name)

def loading? (own : String × ModuleItem) : Option Loading :=
  own.2.loadSite?.map (loadingOf own.1)

/-- The prologue for the items of a script. -/
def prologueOf (items : List ModuleItem) : Prologue where
  getters := (numbered 0 items).flatMap gettersOf
  functions := if items.any passesAll then [.passAllFunction] else []
  loadings := (numbered 0 items).filterMap loading?

/-! ## How it is written -/

/-- Texts that are joined twice with the same text between them. -/
theorem intercalate_flatten {between : String} {groups : List (List String)}
    (nonempty : ∀ group ∈ groups, group ≠ []) :
    between.intercalate (groups.map between.intercalate) = between.intercalate groups.flatten := by
  induction groups with
  | nil => rfl
  | cons group groups ih =>
    obtain ⟨first, others⟩ := List.forall_mem_cons.mp nonempty
    cases groups with
    | nil => simp
    | cons next groups =>
      have more : (next :: groups).flatten ≠ [] := by
        simp [(List.forall_mem_cons.mp others).1]
      rw [List.map_cons, String.intercalate_cons_of_ne_nil (by simp), ih others,
        List.flatten_cons (l := group), String.intercalate_append_of_ne_nil first more]

theorem intercalate_append_flatten {between : String} (front : List String)
    {groups : List (List String)} (nonempty : ∀ group ∈ groups, group ≠ []) :
    between.intercalate (front ++ groups.map between.intercalate) =
      between.intercalate (front ++ groups.flatten) := by
  have single : ∀ group ∈ front.map (fun text => [text]) ++ groups, group ≠ [] := by
    intro group mem
    rcases List.mem_append.mp mem with mem | mem
    · obtain ⟨text, -, rfl⟩ := List.mem_map.mp mem
      exact List.cons_ne_nil _ _
    · exact nonempty group mem
  simpa [Function.comp_def, ← List.flatMap_def] using intercalate_flatten single

theorem exports_eq (object : String) (item : ModuleItem) :
    exports object item = item.exportSites.map fun site =>
      ⟨site.name, (expression? object site.shown).map Expression.text, site.entry⟩ := by
  cases item with
  | exportList span entries source =>
    cases source with
    | none =>
      simp [exports, ModuleItem.exportSites, ExportEntry.shown, expression?, Expression.text]
    | some source =>
      simp [exports, ModuleItem.exportSites, ExportEntry.shown, expression?, text_exportExpression]
  | exportAll span name source => cases name <;> rfl
  | exportDeclaration span start names =>
    simp [exports, ModuleItem.exportSites, expression?, Expression.text]
  | exportDefault span keyword start name => cases name <;> rfl
  | _ => rfl

theorem text_getters (text : List Char) (own : String × ModuleItem) :
    ((exports own.1 own.2).filterMap fun (item : Export) => item.value.map (getter item.name)) =
      (gettersOf own).map (Statement.text text) := by
  rw [exports_eq, List.filterMap_map, gettersOf, List.map_filterMap]
  refine List.filterMap_congr fun site _ => ?_
  simp only [Function.comp_apply, Option.map_map]
  rfl

theorem text_bindingOf (text : List Char) (object : String) (binding : ImportBinding) :
    (bindingOf object binding).text text = bindingStatement object binding := by
  cases binding with
  | default name => rw [bindingOf, Statement.text_declare, bindingStatement, Expression.text]
  | «namespace» name => rw [bindingOf, Statement.text_declare, bindingStatement, Expression.text]
  | named imported name =>
    rw [bindingOf, Statement.text_declare, bindingStatement, text_exportExpression]

/-- A module from which more is imported than all its exports as one object is held by a
variable. -/
theorem loadingOf_imports (object : String) {span : Span} {bindings : List ImportBinding}
    {source : Source} (binds : bindings ≠ []) (more : ∀ name, bindings ≠ [.namespace name]) :
    loadingOf object ⟨span, .imports bindings, source⟩ =
      ⟨some object, source,
        .load (some object) source :: bindings.map (bindingOf object)⟩ := by
  unfold loadingOf
  split
  · rename_i is
    exact absurd (Usage.imports.inj is) binds
  · rename_i name is
    exact absurd (Usage.imports.inj is) (more name)
  · rename_i is
    cases is
  · rfl

theorem hoisted?_eq (text : List Char) (object : String) (item : ModuleItem) :
    hoisted? text object item = item.loadSite?.map fun site =>
      " ".intercalate ((loadingOf object site).statements.map (Statement.text text)) := by
  unfold hoisted?
  split
  · simp [ModuleItem.loadSite?, loadingOf]
  · simp [ModuleItem.loadSite?, loadingOf]
  · rename_i span bindings source binds more
    have texts : bindings.map (bindingStatement object) =
        (bindings.map (bindingOf object)).map (Statement.text text) := by
      rw [List.map_map]
      exact List.map_congr_left fun binding _ => (text_bindingOf text object binding).symm
    rw [ModuleItem.loadSite?, Option.map_some, loadingOf_imports object binds more,
      List.map_cons, Statement.text_load, texts]
  · simp [ModuleItem.loadSite?, loadingOf, Usage.bindings]
  · simp [ModuleItem.loadSite?, loadingOf, Usage.bindings]
  · simp [ModuleItem.loadSite?, loadingOf]
  · rename_i imports lists named passes
    cases item with
    | importDeclaration span bindings source => exact absurd rfl (imports span bindings source)
    | exportList span entries source =>
      cases source with
      | none => rfl
      | some source => exact absurd rfl (lists span entries source)
    | exportAll span name source =>
      cases name with
      | none => exact absurd rfl (passes span source)
      | some name => exact absurd rfl (named span name source)
    | _ => rfl

theorem statements_loadingOf (object : String) (site : LoadSite) :
    (loadingOf object site).statements ≠ [] := by
  unfold loadingOf
  split <;> exact List.cons_ne_nil _ _

/-- What runs before a script is the prologue for its items. -/
theorem prologue_eq (text : List Char) (items : List ModuleItem) :
    prologue text items = (prologueOf items).text text := by
  have getters : ((allExports items).filterMap fun (item : Export) =>
      item.value.map (getter item.name)) =
        (prologueOf items).getters.map (Statement.text text) := by
    rw [allExports, List.filterMap_flatMap, prologueOf, List.map_flatMap]
    exact List.flatMap_congr fun own _ => text_getters text own
  have functions : (if items.any passesAll then [passAllFunction] else []) =
      (prologueOf items).functions.map (Statement.text text) := by
    unfold prologueOf
    dsimp only
    split <;> rfl
  have loadings : (numbered 0 items).filterMap (fun own => hoisted? text own.1 own.2) =
      ((prologueOf items).loadings.map fun loading =>
        loading.statements.map (Statement.text text)).map " ".intercalate := by
    rw [prologueOf, List.map_map, List.map_filterMap]
    refine List.filterMap_congr fun own _ => ?_
    rw [hoisted?_eq, loading?, Option.map_map]
    rfl
  have nonempty : ∀ group ∈ (prologueOf items).loadings.map fun loading =>
      loading.statements.map (Statement.text text), group ≠ [] := by
    intro group mem
    obtain ⟨loading, listed, rfl⟩ := List.mem_map.mp mem
    obtain ⟨own, -, is⟩ := List.mem_filterMap.mp listed
    obtain ⟨site, -, rfl⟩ := Option.map_eq_some_iff.mp is
    exact List.map_eq_nil_iff.not.mpr (statements_loadingOf _ _)
  -- each declaration has been joined on its own, which makes no difference
  have front : "\"use strict\";" ::
      "Object.defineProperty(exports, \"__esModule\", \x7b value: true \x7d);" ::
        (prologueOf items).getters.map (Statement.text text) ++
          (prologueOf items).functions.map (Statement.text text) =
      (.strict :: .marker :: (prologueOf items).getters ++
        (prologueOf items).functions).map (Statement.text text) := by
    rw [List.map_append, List.map_cons, List.map_cons]
    rfl
  rw [prologue, getters, functions]
  change " ".intercalate (_ ++ (numbered 0 items).filterMap fun own =>
    hoisted? text own.1 own.2) = _
  rw [loadings, front, intercalate_append_flatten _ nonempty, ← List.flatMap_def,
    ← List.map_flatMap, ← List.map_append]
  rfl

/-! ## How a property is written -/

theorem toNat_lt_of_plain {c : Char} (plain : isPlainNamePart c = true) : c.toNat < 128 := by
  unfold isPlainNamePart isPlainNameStart Char.isAlpha Char.isUpper Char.isLower
    Char.isDigit at plain
  simp only [Bool.or_eq_true, Bool.and_eq_true, decide_eq_true_eq, beq_iff_eq, ge_iff_le,
    UInt32.le_iff_toNat_le] at plain
  rcases plain with (((⟨-, le⟩ | ⟨-, le⟩) | rfl) | rfl) | ⟨-, le⟩
  · exact Nat.lt_of_le_of_lt le (by decide)
  · exact Nat.lt_of_le_of_lt le (by decide)
  · decide
  · decide
  · exact Nat.lt_of_le_of_lt le (by decide)

theorem isNamePart_of_plain {c : Char} (plain : isPlainNamePart c = true) :
    isNamePart c = true := by
  rw [isNamePart, if_pos (toNat_lt_of_plain plain), plain]

theorem reaches_property (object name : String) :
    ∃ access, (Expression.property object name).text.toList = object.toList ++ access ∧
      Reaches name access := by
  rw [Expression.text, propertyOf]
  split
  · rename_i plain
    refine ⟨'.' :: name.toList, by simp, .word fun c rest ends plain' position newline => ?_⟩
    unfold isPlainName at plain
    split at plain
    · cases plain
    · -- a plain name has letters of ASCII only, which the scanner tells without its tables
      rename_i first letters is
      obtain ⟨start, parts⟩ := Bool.and_eq_true_iff.mp plain
      have parts : ∀ c ∈ first :: letters, isPlainNamePart c = true := by
        refine List.forall_mem_cons.mpr ⟨?_, List.all_eq_true.mp parts⟩
        rw [isPlainNamePart, start, Bool.true_or]
      have begins : isNameStart first = true := by
        rw [isNameStart, if_pos (toNat_lt_of_plain (parts first List.mem_cons_self)), start]
      have backslash : first ≠ '\\' := by
        rintro rfl
        revert start
        decide
      have word := Scan.token_word begins backslash
        (List.all_eq_true.mpr fun c mem => isNamePart_of_plain (parts c mem))
        ⟨ends, plain'⟩ rest position newline
      rwa [← is, String.ofList_toList, ← List.cons_append, ← is] at word
  · refine ⟨'[' :: Text.quotedChars name ++ [']'], ?_, .literal fun rest position newline => ?_⟩
    · simp [Text.quoted]
    · exact Scan.token_quoted name rest position newline

/-! ## What the statements are -/

theorem denotes_exportExpression {loadings : List Loading} {loading : Loading} {object : String}
    (mem : loading ∈ loadings) (holds : loading.temporary = some object) (name : String) :
    (exportExpression object name).Denotes loadings (.member loading.source name) := by
  unfold exportExpression
  split
  · rename_i named
    rw [beq_iff_eq.mp named]
    exact .default mem holds
  · rename_i named
    exact .member mem holds (by simpa using named)

theorem binds_bindingOf {loading : Loading} {object : String}
    (holds : loading.temporary = some object) (binding : ImportBinding) :
    Statement.Binds loading binding (bindingOf object binding) := by
  have mem : loading ∈ [loading] := List.mem_singleton_self _
  obtain ⟨value, is, denotes⟩ : ∃ value, bindingOf object binding = .declare binding.locally value ∧
      value.Denotes [loading] (binding.shown loading.source) := by
    cases binding with
    | default name => exact ⟨_, rfl, .default mem holds⟩
    | «namespace» name => exact ⟨_, rfl, .module mem holds⟩
    | named imported name => exact ⟨_, rfl, denotes_exportExpression mem holds imported⟩
  rw [is]
  exact .export denotes

theorem bindingOf_eq (object : String) (binding : ImportBinding) :
    ∃ value, bindingOf object binding = .declare binding.locally value := by
  cases binding <;> exact ⟨_, rfl⟩

/-- The statements for a declaration are what they have to be. -/
theorem lawful_loadingOf (object : String) (site : LoadSite) :
    (loadingOf object site).Lawful site := by
  obtain ⟨declaration, usage, source⟩ := site
  unfold loadingOf
  dsimp only
  split
  · exact ⟨rfl, rfl, rfl, ⟨[.load none source], [], rfl, rfl, .nil⟩, by simp⟩
  · exact ⟨rfl, rfl, rfl, ⟨[], _, rfl, rfl, .cons .module .nil⟩, by simp⟩
  · exact ⟨rfl, rfl, rfl, ⟨[.passAll source], [], rfl, rfl, .nil⟩, by simp⟩
  · rename_i passes
    refine ⟨rfl, rfl, ?_, ⟨[.load (some object) source], _, rfl, rfl, ?_⟩, ?_⟩
    · have none : (usage.bindings.map (bindingOf object)).filterMap Statement.required? = [] := by
        refine List.filterMap_eq_nil_iff.mpr fun statement mem => ?_
        obtain ⟨binding, -, rfl⟩ := List.mem_map.mp mem
        obtain ⟨value, is⟩ := bindingOf_eq object binding
        rw [is]
        rfl
      exact congrArg (List.cons source) none
    · rw [List.forall₂_map_right_iff]
      exact List.forall₂_same.mpr fun binding _ => binds_bindingOf rfl binding
    · refine iff_of_false (fun mem => ?_) passes
      rcases List.mem_cons.mp mem with is | mem
      · cases is
      · obtain ⟨binding, -, is⟩ := List.mem_map.mp mem
        obtain ⟨value, other⟩ := bindingOf_eq object binding
        rw [other] at is
        cases is

/-- What an item exports is a variable of the script, a value, or an export of the module that it
loads. -/
theorem shown_of_mem {item : ModuleItem} {site : ExportSite} (mem : site ∈ item.exportSites) :
    site.shown = .value ∨ (∃ name, site.shown = .variable name) ∨
      ∃ span source, item.loadSite? = some ⟨span, .passes, source⟩ ∧
        (site.shown = .module source ∨ ∃ name, site.shown = .member source name) := by
  cases item with
  | exportList span entries source =>
    obtain ⟨entry, -, rfl⟩ := List.mem_map.mp mem
    cases source with
    | none => exact .inr (.inl ⟨_, rfl⟩)
    | some source => exact .inr (.inr ⟨span, source, rfl, .inr ⟨_, rfl⟩⟩)
  | exportAll span name source =>
    cases name with
    | none => cases mem
    | some name =>
      rw [List.mem_singleton.mp mem]
      exact .inr (.inr ⟨span, source, rfl, .inl rfl⟩)
  | exportDeclaration span start names =>
    obtain ⟨name, -, rfl⟩ := List.mem_map.mp mem
    exact .inr (.inl ⟨_, rfl⟩)
  | exportDefault span keyword start name =>
    rw [List.mem_singleton.mp mem]
    cases name with
    | none => exact .inl rfl
    | some name => exact .inr (.inl ⟨_, rfl⟩)
  | _ => cases mem

/-- Elements that are kept correspond to what is made of them, if something is made of no others. -/
theorem forall₂_filterMap {α β : Type} {R : α → β → Prop} {keeps : α → Bool} {f : α → Option β}
    {xs : List α} (kept : ∀ x ∈ xs, keeps x = true → ∃ y, f x = some y ∧ R x y)
    (dropped : ∀ x ∈ xs, keeps x = false → f x = none) :
    List.Forall₂ R (xs.filter keeps) (xs.filterMap f) := by
  induction xs with
  | nil => exact .nil
  | cons x xs ih =>
    obtain ⟨kept, keptLater⟩ := List.forall_mem_cons.mp kept
    obtain ⟨dropped, droppedLater⟩ := List.forall_mem_cons.mp dropped
    cases is : keeps x with
    | true =>
      obtain ⟨y, made, related⟩ := kept is
      rw [List.filter_cons_of_pos is, List.filterMap_cons_some made]
      exact .cons related (ih keptLater droppedLater)
    | false =>
      rw [List.filter_cons_of_neg (by simp [is]), List.filterMap_cons_none (dropped is)]
      exact ih keptLater droppedLater

/-- The getters for an item return what its names stand for. -/
theorem gets_gettersOf {own : String × ModuleItem} {loadings : List Loading}
    (held : ∀ loading ∈ loading? own, loading ∈ loadings) :
    List.Forall₂ (Statement.Gets loadings) (own.2.exportSites.filter (·.shown ≠ .value))
      (gettersOf own) := by
  refine forall₂_filterMap (fun site mem named => ?_) fun site mem unnamed => ?_
  · have named := of_decide_eq_true named
    rcases shown_of_mem mem with shown | ⟨name, shown⟩ | ⟨span, source, is, shown⟩
    · exact absurd shown named
    · rw [shown]
      exact ⟨_, rfl, _, rfl, shown ▸ .variable⟩
    · have mem := held (loadingOf own.1 ⟨span, .passes, source⟩) (by rw [loading?, is]; rfl)
      rcases shown with shown | ⟨name, shown⟩
      · rw [shown]
        exact ⟨_, rfl, _, rfl, shown ▸ .module mem rfl⟩
      · rw [shown]
        exact ⟨_, rfl, _, rfl, shown ▸ denotes_exportExpression mem rfl name⟩
  · have shown := not_not.mp (of_decide_eq_false unnamed)
    rw [shown]
    rfl

/-! ## The prologue of a script -/

theorem map_numbered (number : Nat) (items : List ModuleItem) :
    (numbered number items).map (·.2) = items := by
  induction items generalizing number with
  | nil => rfl
  | cons item items ih => rw [numbered, List.map_cons, ih]

theorem flatMap_numbered {α : Type} (number : Nat) (items : List ModuleItem)
    (f : ModuleItem → List α) :
    (numbered number items).flatMap (fun own => f own.2) = items.flatMap f := by
  rw [← List.flatMap_map (fun own : String × ModuleItem => own.2), map_numbered]

/-- A variable holds the module of an item exactly if the next item gets another number. -/
theorem temporary_loading? (object : String) (item : ModuleItem) :
    (loading? (object, item)).bind (·.temporary) =
      if needsTemporary item then some object else none := by
  cases item with
  | importDeclaration span bindings source =>
    rcases bindings with _ | ⟨first, _ | ⟨second, others⟩⟩
    · rfl
    · cases first <;> rfl
    · cases first <;> rfl
  | exportList span entries source => cases source <;> rfl
  | exportAll span name source => cases name <;> rfl
  | _ => rfl

theorem temporary_injective : Function.Injective temporary := by
  intro number other same
  have digits := congrArg String.toList same
  rw [temporary, temporary, String.toList_append, String.toList_append,
    Nat.toString_eq_ofList_toDigits, Nat.toString_eq_ofList_toDigits, String.toList_ofList,
    String.toList_ofList] at digits
  have read := congrArg (Nat.ofDigitChars 10 · 0) (List.append_cancel_left digits)
  simpa only [String.toList_ofList, Nat.ofDigitChars_ten_toDigits] using read

/-- The variables that hold modules are numbered one after the other. -/
theorem temporaries_numbered (number : Nat) (items : List ModuleItem) :
    ((numbered number items).filterMap loading?).filterMap (·.temporary) =
      (List.range' number (items.countP needsTemporary)).map temporary := by
  rw [List.filterMap_filterMap]
  -- the number goes up exactly where a variable is taken, so the induction keeps them in step
  induction items generalizing number with
  | nil => rfl
  | cons item items ih =>
    rw [numbered]
    cases needs : needsTemporary item with
    | true =>
      have held := temporary_loading? (temporary number) item
      rw [needs, if_pos rfl] at held
      rw [List.filterMap_cons, held, if_pos rfl, ih, List.countP_cons_of_pos needs,
        List.range'_succ, List.map_cons]
    | false =>
      have free := temporary_loading? (temporary number) item
      rw [needs, if_neg (by simp)] at free
      rw [List.filterMap_cons, free, if_neg (by simp), ih,
        List.countP_cons_of_neg (by simp [needs])]

theorem loadings_lawful (number : Nat) (items : List ModuleItem) :
    List.Forall₂ Loading.Lawful (items.filterMap ModuleItem.loadSite?)
      ((numbered number items).filterMap loading?) := by
  induction items generalizing number with
  | nil => exact .nil
  | cons item items ih =>
    rw [numbered]
    cases is : item.loadSite? with
    | none =>
      have none : loading? (temporary number, item) = none := by rw [loading?, is]; rfl
      rw [List.filterMap_cons_none is, List.filterMap_cons_none none]
      exact ih _
    | some site =>
      have made : loading? (temporary number, item) =
          some (loadingOf (temporary number) site) := by rw [loading?, is]; rfl
      rw [List.filterMap_cons_some is, List.filterMap_cons_some made]
      exact .cons (lawful_loadingOf _ _) (ih _)

/-- A getter for every name that stands for more than a value. -/
theorem getters_lawful (items : List ModuleItem) :
    List.Forall₂ (Statement.Gets (prologueOf items).loadings)
      ((items.flatMap ModuleItem.exportSites).filter (·.shown ≠ .value))
      (prologueOf items).getters := by
  have each : ∀ own ∈ numbered 0 items, List.Forall₂ (Statement.Gets (prologueOf items).loadings)
      (own.2.exportSites.filter (·.shown ≠ .value)) (gettersOf own) := fun own mem =>
    gets_gettersOf fun loading is => List.mem_filterMap.mpr ⟨own, mem, is⟩
  rw [← flatMap_numbered, List.filter_flatMap]
  refine List.rel_flatten ?_
  rw [List.forall₂_map_left_iff, List.forall₂_map_right_iff]
  exact List.forall₂_same.mpr each

/-- The statements for a declaration declare the variable that holds the module, and what the
declaration binds. -/
theorem Loading.Lawful.declared {site : LoadSite} {loading : Loading} (h : loading.Lawful site) :
    loading.statements.filterMap Statement.declared? =
      loading.temporary.toList ++ site.usage.bindings.map (·.locally) := by
  obtain ⟨before, bindings, is, held, binds⟩ := h.binds
  rw [is, List.filterMap_append, held]
  refine congrArg (loading.temporary.toList ++ ·) ?_
  generalize site.usage.bindings = names at binds ⊢
  clear is
  -- a binding of either kind declares the name that is bound
  induction binds with
  | nil => rfl
  | cons first _ ih => cases first <;> exact congrArg (List.cons _) ih

/-- A name is declared as often as it is that of a variable that holds a module, or bound. -/
theorem count_declared {sites : List LoadSite} {loadings : List Loading}
    (lawful : List.Forall₂ Loading.Lawful sites loadings) (name : String) :
    ((loadings.flatMap (·.statements)).filterMap Statement.declared?).count name =
      (loadings.filterMap (·.temporary)).count name +
        (sites.flatMap fun site => site.usage.bindings.map (·.locally)).count name := by
  induction lawful with
  | nil => rfl
  | @cons site loading sites loadings first _ ih =>
    have held : ((loading :: loadings).filterMap (·.temporary)).count name =
        loading.temporary.toList.count name + (loadings.filterMap (·.temporary)).count name := by
      rw [← List.count_append]
      cases is : loading.temporary <;> simp [is]
    rw [List.flatMap_cons, List.filterMap_append, List.count_append, ih, first.declared,
      List.count_append, held, List.flatMap_cons, List.count_append]
    omega

theorem declared_prologueOf (items : List ModuleItem) : (prologueOf items).declared =
    ((prologueOf items).loadings.flatMap (·.statements)).filterMap Statement.declared? := by
  have getters : (prologueOf items).getters.filterMap Statement.declared? = [] := by
    refine List.filterMap_eq_nil_iff.mpr fun statement mem => ?_
    obtain ⟨own, -, mem⟩ := List.mem_flatMap.mp mem
    obtain ⟨site, -, is⟩ := List.mem_filterMap.mp mem
    obtain ⟨value, -, rfl⟩ := Option.map_eq_some_iff.mp is
    rfl
  have functions : (prologueOf items).functions.filterMap Statement.declared? = [] := by
    unfold prologueOf
    dsimp only
    split <;> rfl
  rw [Prologue.declared, Prologue.statements, List.filterMap_append, List.filterMap_append,
    functions, List.append_nil]
  change (prologueOf items).getters.filterMap Statement.declared? ++ _ = _
  rw [getters, List.nil_append]

theorem passesAll_eq_true {item : ModuleItem} : passesAll item = true ↔
    ∃ site, item.loadSite? = some site ∧ site.usage = .passesAll := by
  cases item with
  | exportList span entries source => cases source <;> simp [passesAll, ModuleItem.loadSite?]
  | exportAll span name source => cases name <;> simp [passesAll, ModuleItem.loadSite?]
  | _ => simp [passesAll, ModuleItem.loadSite?]

theorem any_passesAll_iff {isTyped : Bool} {text : List Char} {program : Program}
    (read : Program.read isTyped text = .ok program) : program.items.any passesAll = true ↔
      ∃ node ∈ program.statements, ∃ site, node.LoadsAt site ∧ site.usage = .passesAll := by
  calc program.items.any passesAll = true
    _ ↔ ∃ site ∈ program.loadSites, site.usage = .passesAll := by
      simp only [List.any_eq_true, passesAll_eq_true, Program.loadSites, List.mem_filterMap]
      constructor
      · rintro ⟨item, mem, site, is, all⟩
        exact ⟨site, ⟨item, mem, is⟩, all⟩
      · rintro ⟨site, ⟨item, mem, is⟩, all⟩
        exact ⟨item, mem, site, is, all⟩
    _ ↔ ∃ node ∈ program.statements, ∃ site, node.LoadsAt site ∧ site.usage = .passesAll := by
      simp only [(Program.lists_loadSites read).mem_iff]
      constructor
      · rintro ⟨site, ⟨node, mem, loads⟩, all⟩
        exact ⟨node, mem, site, loads, all⟩
      · rintro ⟨node, mem, site, loads, all⟩
        exact ⟨site, ⟨node, mem, loads⟩, all⟩

/-- A name that is not bound by what is loaded is declared once, where it holds a module. -/
theorem count_declared_temporary {isTyped : Bool} {text : List Char} {program : Program}
    (read : Program.read isTyped text = .ok program)
    (distinct : (prologueOf program.items).temporaries.Nodup) {name : String}
    (held : name ∈ (prologueOf program.items).temporaries) :
    (prologueOf program.items).declared.count name = 1 ↔
      ∀ node ∈ program.statements, ∀ site, node.LoadsAt site →
        ∀ binding ∈ site.usage.bindings, binding.locally ≠ name := by
  have once : ((prologueOf program.items).loadings.filterMap (·.temporary)).count name = 1 :=
    List.count_eq_one_of_mem distinct held
  have lawful : List.Forall₂ Loading.Lawful program.loadSites (prologueOf program.items).loadings :=
    loadings_lawful 0 program.items
  rw [declared_prologueOf, count_declared lawful, once, Nat.add_eq_left, List.count_eq_zero]
  simp only [List.mem_flatMap, List.mem_map, (Program.lists_loadSites read).mem_iff]
  constructor
  · rintro unbound node mem site loads binding bound rfl
    exact unbound ⟨site, ⟨node, mem, loads⟩, binding, bound, rfl⟩
  · rintro unbound ⟨site, ⟨node, mem, loads⟩, binding, bound, is⟩
    exact unbound node mem site loads binding bound is

/-- The prologue of a script is what it has to be. -/
theorem lawful_prologueOf {isTyped : Bool} {text : List Char} {program : Program}
    (read : Program.read isTyped text = .ok program) :
    (prologueOf program.items).Lawful program := by
  have numbered : (prologueOf program.items).temporaries =
      (List.range' 0 (program.items.countP needsTemporary)).map temporary :=
    temporaries_numbered 0 program.items
  have distinct : (prologueOf program.items).temporaries.Nodup := by
    rw [numbered]
    exact List.Nodup.map temporary_injective List.nodup_range'
  refine ⟨⟨_, Program.lists_exportSites read, fun order => ?_, getters_lawful program.items⟩, ?_,
    ⟨_, Program.lists_loadSites read, fun order => ?_, loadings_lawful 0 program.items⟩, ?_,
    distinct, fun name held => count_declared_temporary read distinct held⟩
  · exact exportSites_ordered read (List.Subset.refl _)
      (row_of_read read order).placed_places.apart
  · by_cases all : program.items.any passesAll = true
    · exact .inl ⟨if_pos all, (any_passesAll_iff read).mp all⟩
    · refine .inr ⟨if_neg all, fun node mem site loads is => ?_⟩
      exact all ((any_passesAll_iff read).mpr ⟨node, mem, site, loads, is⟩)
  · exact loadSites_ordered (row_of_read read order).placed_places.apart
  · rw [numbered, List.length_map, List.length_range', List.range_eq_range']

theorem any_isDeclaration_iff {program : Program} :
    program.items.any ModuleItem.isDeclaration = true ↔
      ∃ node ∈ program.statements, ∃ item, node.Has item ∧ item.isDeclaration = true := by
  rw [List.any_eq_true]
  constructor
  · rintro ⟨item, mem, declares⟩
    obtain ⟨node, listed, mem⟩ := Node.mem_itemsOfAll.mp mem
    exact ⟨node, listed, item, Node.mem_items.mp mem, declares⟩
  · rintro ⟨node, listed, item, has, declares⟩
    exact ⟨item, Node.mem_itemsOfAll.mpr ⟨node, listed, Node.mem_items.mpr has⟩, declares⟩

theorem code_of_declares (text : List Char) {program : Program}
    (declares : program.items.any ModuleItem.isDeclaration = true) :
    code text program.hashbang program.items =
      ((prologueOf program.items).text text).toList ++
        '\n' :: splice text (edits text program.hashbang program.items) := by
  rw [code, if_pos declares, prologue_eq]

/-- A module that is converted begins with the statements that it has to begin with, which reach
properties by their names whatever these are, and goes on with its own text. -/
theorem convert_prologue {isTyped : Bool} {text : List Char} {compiled : CompiledModule}
    (converts : convert isTyped text = .ok compiled) :
    ∃ program, Program.read isTyped text = .ok program ∧
      ((∃ node ∈ program.statements, ∃ item, node.Has item ∧ item.isDeclaration = true) →
        ∃ prologue : Prologue, prologue.Lawful program ∧
          compiled.code.toList = (prologue.text text).toList ++
            '\n' :: splice text (edits text program.hashbang program.items)) ∧
      ∀ object name, ∃ access,
        (Expression.property object name).text.toList = object.toList ++ access ∧
          Reaches name access := by
  obtain ⟨program, read, -, isCode⟩ := read_of_convert converts
  refine ⟨program, read, fun declares => ?_, reaches_property⟩
  exact ⟨prologueOf program.items, lawful_prologueOf read,
    isCode.trans (code_of_declares text (any_isDeclaration_iff.mpr declares))⟩

theorem convert_prologue_module :
    ∃ compiled program, ∃ prologue : Prologue,
      convert false "import a, { b } from './a';\nexport * from './c'".toList = .ok compiled ∧
      Program.read false "import a, { b } from './a';\nexport * from './c'".toList = .ok program ∧
      prologue.Lawful program ∧
      compiled.code.toList =
        (prologue.text "import a, { b } from './a';\nexport * from './c'".toList).toList ++
          '\n' :: splice "import a, { b } from './a';\nexport * from './c'".toList
            (edits "import a, { b } from './a';\nexport * from './c'".toList program.hashbang
              program.items) := by
  have run : (convert false
      "import a, { b } from './a';\nexport * from './c'".toList).toOption.isSome = true := by
    decide +kernel
  obtain ⟨compiled, converts⟩ := exists_ok_of_isSome run
  obtain ⟨program, read, begins, -⟩ := convert_prologue converts
  have found : (Program.read false
      "import a, { b } from './a';\nexport * from './c'".toList).toOption.map (fun program =>
        program.items.any ModuleItem.isDeclaration) = some true := by
    decide +kernel
  rw [read] at found
  obtain ⟨prologue, lawful, isCode⟩ := begins (any_isDeclaration_iff.mp (Option.some.inj found))
  exact ⟨compiled, program, prologue, converts, read, lawful, isCode⟩

/-- A name that an import declaration binds may be that of the variable that holds its module.  The
variable is declared twice then, and what is bound behind it is no export of the module. -/
theorem temporary_rebound :
    ∃ compiled program, ∃ prologue : Prologue,
      convert false "import __minipack_dep0, { b } from './a'".toList = .ok compiled ∧
      Program.read false "import __minipack_dep0, { b } from './a'".toList = .ok program ∧
      prologue.Lawful program ∧
      compiled.code = prologue.text "import __minipack_dep0, { b } from './a'".toList ++ "\n" ∧
      prologue.loadings.flatMap (·.statements) =
        [.load (some "__minipack_dep0") ⟨⟨35, 40⟩, "./a"⟩,
          .declare "__minipack_dep0" (.default "__minipack_dep0"),
          .declare "b" (.property "__minipack_dep0" "b")] ∧
      "__minipack_dep0" ∈ prologue.temporaries ∧ prologue.declared.count "__minipack_dep0" = 2 := by
  have run : (convert false "import __minipack_dep0, { b } from './a'".toList).toOption.isSome =
      true := by
    decide +kernel
  obtain ⟨compiled, converts⟩ := exists_ok_of_isSome run
  obtain ⟨program, read, -, isCode⟩ := read_of_convert converts
  have found : (Program.read false "import __minipack_dep0, { b } from './a'".toList).toOption.map
      (fun program => (program.hashbang, program.items)) =
      some (none, [.importDeclaration ⟨0, 40⟩ [.default "__minipack_dep0", .named "b" "b"]
        ⟨⟨35, 40⟩, "./a"⟩]) := by
    decide +kernel
  rw [read] at found
  obtain ⟨hashbang, items⟩ := Prod.mk.inj (Option.some.inj found)
  refine ⟨compiled, program, prologueOf program.items, converts, read, lawful_prologueOf read,
    ?_, ?_, ?_, ?_⟩
  · have body : splice "import __minipack_dep0, { b } from './a'".toList
        (edits "import __minipack_dep0, { b } from './a'".toList program.hashbang
          program.items) = [] := by
      rw [hashbang, items]
      decide +kernel
    have declares : program.items.any ModuleItem.isDeclaration = true := by
      rw [items]
      rfl
    rw [← String.toList_inj, isCode, code_of_declares _ declares, body, String.toList_append]
    rfl
  · rw [items]
    decide +kernel
  · rw [items]
    decide +kernel
  · rw [items]
    decide +kernel

end ModuleBundler.Conversion

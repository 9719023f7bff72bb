/-
# ModuleBundler.Proofs.Script.LoadSites — the modules that a script loads before it runs.

Import declarations and exports from another module load this module before anything of the script
runs.  `Node.LoadsAt` says without regard to any order which modules a construct loads so, and what
for.  The sites of a script list the same modules, statement by statement
(`Program.lists_loadSites`), and where the statements follow one another, in the order of the text
(`loadSites_ordered`).
-/
import ModuleBundler.Proofs.Script.ExportSites

namespace ModuleBundler.Script

/-- What a declaration loads a module for. -/
inductive Usage
  /-- to bind exports of it -/
  | imports (bindings : List ImportBinding)
  /-- to export something of it -/
  | passes
  /-- to export all that it exports, under the same names -/
  | passesAll
  deriving DecidableEq, Repr

/-- What is bound. -/
def Usage.bindings : Usage → List ImportBinding
  | .imports bindings => bindings
  | _ => []

/-- What a binding stands for, if the module comes from a source. -/
def ImportBinding.shown (source : Source) : ImportBinding → Shown
  | .default _ => .member source "default"
  | .namespace _ => .module source
  | .named imported _ => .member source imported

/-- A declaration that loads a module: its range, what it needs the module for, and the module. -/
structure LoadSite where
  declaration : Span
  usage : Usage
  source : Source
  deriving DecidableEq, Repr

/-- A site stands before another one. -/
def LoadSite.Before (site later : LoadSite) : Prop :=
  site.declaration.stop ≤ later.declaration.start

/-- The site that an item is. -/
def ModuleItem.loadSite? : ModuleItem → Option LoadSite
  | .importDeclaration span bindings source => some ⟨span, .imports bindings, source⟩
  | .exportList span _ (some source) => some ⟨span, .passes, source⟩
  | .exportAll span (some _) source => some ⟨span, .passes, source⟩
  | .exportAll span none source => some ⟨span, .passesAll, source⟩
  | _ => none

/-- What is replaced for a site is all of the declaration. -/
theorem ModuleItem.place_of_loadSite? {item : ModuleItem} {site : LoadSite}
    (is : item.loadSite? = some site) : item.place? = some site.declaration := by
  unfold loadSite? at is
  split at is <;> cases is <;> rfl

namespace Node

/-- A construct loads a module before its script runs, by itself or by one of its parts. -/
inductive LoadsAt : Node → LoadSite → Prop
  | importDeclaration {span : Span} {bindings : List ImportBinding} {source : Source}
    {parts : List Node} :
    LoadsAt (.branch span (.importDeclaration bindings source) parts)
      ⟨span, .imports bindings, source⟩
  | exportList {span : Span} {entries : List ExportEntry} {source : Source} {parts : List Node} :
    LoadsAt (.branch span (.exportList entries (some source)) parts) ⟨span, .passes, source⟩
  | exportNamespace {span : Span} {name : String × Span} {source : Source} {parts : List Node} :
    LoadsAt (.branch span (.exportAll (some name) source) parts) ⟨span, .passes, source⟩
  | exportAll {span : Span} {source : Source} {parts : List Node} :
    LoadsAt (.branch span (.exportAll none source) parts) ⟨span, .passesAll, source⟩
  | part {span : Span} {form : Form} {parts : List Node} {node : Node} {site : LoadSite}
    (mem : node ∈ parts) (looked : form.isClosed parts = false) (loads : node.LoadsAt site) :
    LoadsAt (.branch span form parts) site

theorem loadsAt_of_itemOf? {span : Span} {form : Form} {parts : List Node} {item : ModuleItem}
    {closed : Bool} {site : LoadSite} (h : itemOf? span form parts = some (item, closed))
    (is : item.loadSite? = some site) : (Node.branch span form parts).LoadsAt site := by
  unfold itemOf? at h
  split at h <;> cases h
  · cases is
    exact .importDeclaration
  · rename_i source
    cases source <;> cases is
    exact .exportList
  · rename_i name source
    cases name <;> cases is
    · exact .exportAll
    · exact .exportNamespace
  all_goals cases is

theorem loadsAt_of_has {node : Node} {item : ModuleItem} {site : LoadSite} (h : node.Has item)
    (is : item.loadSite? = some site) : node.LoadsAt site := by
  induction h with
  | own own => exact loadsAt_of_itemOf? own is
  | part mem looked _ ih => exact .part mem looked (ih is)

theorem exists_has_of_loadsAt {node : Node} {site : LoadSite} (h : node.LoadsAt site) :
    ∃ item, node.Has item ∧ item.loadSite? = some site := by
  induction h with
  | importDeclaration => exact ⟨_, .own rfl, rfl⟩
  | exportList => exact ⟨_, .own rfl, rfl⟩
  | exportNamespace => exact ⟨_, .own rfl, rfl⟩
  | exportAll => exact ⟨_, .own rfl, rfl⟩
  | part mem looked _ ih =>
    obtain ⟨item, has, is⟩ := ih
    exact ⟨item, .part mem looked has, is⟩

/-- The sites of the items of a construct are the modules that it loads. -/
theorem mem_loadSites {node : Node} {site : LoadSite} :
    site ∈ node.items.filterMap ModuleItem.loadSite? ↔ node.LoadsAt site := by
  rw [List.mem_filterMap]
  constructor
  · rintro ⟨item, mem, is⟩
    exact loadsAt_of_has (mem_items.mp mem) is
  · intro loads
    obtain ⟨item, has, is⟩ := exists_has_of_loadsAt loads
    exact ⟨item, mem_items.mpr has, is⟩

end Node

/-- The sites of a script, in the order of its tree. -/
def Program.loadSites (program : Program) : List LoadSite :=
  program.items.filterMap ModuleItem.loadSite?

/-- The sites of items stand in the order of the text where what is replaced for the items does. -/
theorem loadSites_ordered {nodes : List Node}
    (order : (Node.placesOfAll nodes).Pairwise fun place later => place.stop ≤ later.start) :
    ((Node.itemsOfAll nodes).filterMap ModuleItem.loadSite?).Pairwise LoadSite.Before := by
  refine List.pairwise_filterMap.mpr ((List.pairwise_filterMap.mp order).imp ?_)
  intro item later behind site is site' is'
  exact behind _ (ModuleItem.place_of_loadSite? is) _ (ModuleItem.place_of_loadSite? is')

/-- The sites of a script are those of its statements, in the order of each statement. -/
theorem Program.lists_loadSites {isTyped : Bool} {text : List Char} {program : Program}
    (read : Program.read isTyped text = .ok program) :
    program.Lists Node.LoadsAt LoadSite.Before program.loadSites := by
  have each (node : Node) (mem : node ∈ program.statements) :
      (node.items.filterMap ModuleItem.loadSite?).Pairwise LoadSite.Before := by
    have ordered := loadSites_ordered (Program.read_contained read node mem).placed_places.apart
    rwa [Node.itemsOfAll, Node.itemsOfAll, List.append_nil] at ordered
  have all : program.loadSites =
      program.statements.flatMap fun node => node.items.filterMap ModuleItem.loadSite? := by
    rw [Program.loadSites, Program.items, Node.itemsOfAll_eq_flatMap, List.filterMap_flatMap]
  rw [all]
  exact Program.lists_flatMap (fun _ _ _ => Node.mem_loadSites) each

end ModuleBundler.Script

/-
# ModuleBundler.Proofs.Script.ExportSites — where a script exports names.

A name is exported by an entry of a list, by the declaration that binds it, by `* as`, or as
`default`.  `Node.ExportsAt` says without regard to any order which names a construct exports and
what each of them stands for; the names that a declaration binds are those of its patterns, however
deep (`Node.Binds`).  The sites of a script list the same names (`Program.mem_exportSites`), and
where its statements follow one another, in the order of the text (`Program.exportSites_ordered`).
-/
import ModuleBundler.Proofs.Script.Items

namespace ModuleBundler.Script

/-! ## Bound names -/

/-- Whether a pattern or declaration binds whatever its parts bind. -/
def Form.isPattern : Form → Bool
  | .objectPattern | .arrayPattern | .rest | .shorthand | .variableDeclaration _ => true
  | _ => false

namespace Node

/-- A function or class is declared by the first name that stands directly in it. -/
inductive Declares : Node → String → Span → Prop
  | functionDeclaration {span own : Span} {isAsync isGenerator : Bool} {before after : List Node}
    {name : String} (first : ∀ node ∈ before, ∀ own text, node ≠ .leaf own (.binding text)) :
    Declares (.branch span (.functionDeclaration isAsync isGenerator)
      (before ++ .leaf own (.binding name) :: after)) name own
  | classDeclaration {span own : Span} {before after : List Node} {name : String}
    (first : ∀ node ∈ before, ∀ own text, node ≠ .leaf own (.binding text)) :
    Declares (.branch span .classDeclaration (before ++ .leaf own (.binding name) :: after))
      name own

/-- A pattern or declaration binds a name that stands at a range.  What stands in keys and in
default values is not bound. -/
inductive Binds : Node → String → Span → Prop
  | name {span : Span} {name : String} : Binds (.leaf span (.binding name)) name span
  | declared {node : Node} {name : String} {own : Span} (declares : node.Declares name own) :
    Binds node name own
  | property {span own : Span} {key : List Node} {value : Node} {name : String}
    (binds : value.Binds name own) : Binds (.branch span .property (key ++ [value])) name own
  | default {span own : Span} {target : Node} {value : List Node} {name : String}
    (binds : target.Binds name own) : Binds (.branch span .default (target :: value)) name own
  | declarator {span own : Span} {target : Node} {value : List Node} {name : String}
    (binds : target.Binds name own) : Binds (.branch span .declarator (target :: value)) name own
  | part {span own : Span} {form : Form} {parts : List Node} {node : Node} {name : String}
    (pattern : form.isPattern = true) (mem : node ∈ parts) (binds : node.Binds name own) :
    Binds (.branch span form parts) name own

theorem mem_ownBinding {nodes : List Node} {name : String} {own : Span} :
    (name, own) ∈ ownBinding nodes ↔
      ∃ before after, nodes = before ++ .leaf own (.binding name) :: after ∧
        ∀ node ∈ before, ∀ own text, node ≠ .leaf own (.binding text) := by
  induction nodes with
  | nil => simp [ownBinding]
  | cons node nodes ih =>
    by_cases leaf : ∃ span text, node = .leaf span (.binding text)
    · obtain ⟨span, text, rfl⟩ := leaf
      rw [ownBinding, List.mem_singleton]
      constructor
      · rintro ⟨⟩
        exact ⟨[], nodes, rfl, by simp⟩
      · rintro ⟨before, after, is, first⟩
        cases before with
        | nil =>
          cases is
          rfl
        | cons other before =>
          cases is
          exact absurd rfl (first _ List.mem_cons_self span text)
    · have other : ∀ own text, node ≠ .leaf own (.binding text) :=
        fun own text is => leaf ⟨own, text, is⟩
      have skipped : ownBinding (node :: nodes) = ownBinding nodes := by
        rw [ownBinding]
        exact other
      rw [skipped, ih]
      constructor
      · rintro ⟨before, after, rfl, first⟩
        exact ⟨node :: before, after, rfl, List.forall_mem_cons.mpr ⟨other, first⟩⟩
      · rintro ⟨before, after, is, first⟩
        cases before with
        | nil =>
          cases is
          exact absurd rfl (other _ _)
        | cons first' before =>
          cases is
          exact ⟨before, after, rfl, (List.forall_mem_cons.mp first).2⟩

/-- At most one name is declared. -/
theorem ownBinding_eq_head? (nodes : List Node) :
    ownBinding nodes = (ownBinding nodes).head?.toList := by
  induction nodes with
  | nil => rfl
  | cons node nodes ih =>
    unfold ownBinding
    split
    · rfl
    · rfl
    · rename_i is
      rw [← (List.cons.inj is).2]
      exact ih

theorem mem_ownBinding_function {span own : Span} {isAsync isGenerator : Bool}
    {parts : List Node} {name : String} : (name, own) ∈ ownBinding parts ↔
      (Node.branch span (.functionDeclaration isAsync isGenerator) parts).Declares name own := by
  rw [mem_ownBinding]
  constructor
  · rintro ⟨before, after, rfl, first⟩
    exact .functionDeclaration first
  · rintro ⟨first⟩
    exact ⟨_, _, rfl, first⟩

theorem mem_ownBinding_class {span own : Span} {parts : List Node} {name : String} :
    (name, own) ∈ ownBinding parts ↔
      (Node.branch span .classDeclaration parts).Declares name own := by
  rw [mem_ownBinding]
  constructor
  · rintro ⟨before, after, rfl, first⟩
    exact .classDeclaration first
  · rintro (_ | ⟨first⟩)
    exact ⟨_, _, rfl, first⟩

theorem mem_bindingsOfAll {nodes : List Node} {name : String} {own : Span} :
    (name, own) ∈ bindingsOfAll nodes ↔ ∃ node ∈ nodes, (name, own) ∈ node.bindings := by
  induction nodes with
  | nil => simp [bindingsOfAll]
  | cons node nodes ih => simp [bindingsOfAll, ih]

theorem bindingsOfLast_concat (nodes : List Node) (node : Node) :
    bindingsOfLast (nodes ++ [node]) = node.bindings := by
  induction nodes with
  | nil => rw [List.nil_append, bindingsOfLast]
  | cons first nodes ih =>
    rw [List.cons_append, bindingsOfLast, ih]
    simp

/-- What a relation says is bound is among the bindings. -/
theorem mem_bindings_of_binds {node : Node} {name : String} {own : Span}
    (h : node.Binds name own) : (name, own) ∈ node.bindings := by
  induction h with
  | name => simp [bindings]
  | declared declares =>
    cases declares with
    | functionDeclaration first =>
      rw [bindings]
      exact mem_ownBinding.mpr ⟨_, _, rfl, first⟩
    | classDeclaration first =>
      rw [bindings]
      exact mem_ownBinding.mpr ⟨_, _, rfl, first⟩
  | property _ ih =>
    rw [bindings, bindingsOfLast_concat]
    exact ih
  | default _ ih =>
    rw [bindings, bindingsOfFirst]
    exact ih
  | declarator _ ih =>
    rw [bindings, bindingsOfFirst]
    exact ih
  | part pattern mem _ ih =>
    have all := mem_bindingsOfAll.mpr ⟨_, mem, ih⟩
    unfold Form.isPattern at pattern
    split at pattern
    all_goals first
      | (rw [bindings]; exact all)
      | cases pattern

mutual

theorem binds_of_mem : ∀ {node : Node} {name : String} {own : Span},
    (name, own) ∈ node.bindings → node.Binds name own
  | .leaf span kind, name, own, mem => by
    cases kind with
    | binding text =>
      rw [bindings, List.mem_singleton] at mem
      cases mem
      exact .name
    | _ => simp [bindings] at mem
  | .branch span form parts, name, own, mem => by
    have part (pattern : form.isPattern = true) (mem : (name, own) ∈ bindingsOfAll parts) :
        (Node.branch span form parts).Binds name own := by
      obtain ⟨node, listed, binds⟩ := binds_of_mem_all mem
      exact .part pattern listed binds
    unfold bindings at mem
    split at mem
    · obtain ⟨key, value, rfl, binds⟩ := binds_of_mem_last mem
      exact .property binds
    · obtain ⟨target, value, rfl, binds⟩ := binds_of_mem_first mem
      exact .default binds
    · obtain ⟨target, value, rfl, binds⟩ := binds_of_mem_first mem
      exact .declarator binds
    · exact .declared (mem_ownBinding_function.mp mem)
    · exact .declared (mem_ownBinding_class.mp mem)
    · exact part rfl mem
    · exact part rfl mem
    · exact part rfl mem
    · exact part rfl mem
    · exact part rfl mem
    · cases mem

theorem binds_of_mem_all : ∀ {nodes : List Node} {name : String} {own : Span},
    (name, own) ∈ bindingsOfAll nodes → ∃ node ∈ nodes, node.Binds name own
  | [], _, _, mem => by simp [bindingsOfAll] at mem
  | node :: nodes, name, own, mem => by
    rw [bindingsOfAll] at mem
    rcases List.mem_append.mp mem with mem | mem
    · exact ⟨node, List.mem_cons_self, binds_of_mem mem⟩
    · obtain ⟨other, listed, binds⟩ := binds_of_mem_all mem
      exact ⟨other, List.mem_cons_of_mem _ listed, binds⟩

theorem binds_of_mem_first : ∀ {nodes : List Node} {name : String} {own : Span},
    (name, own) ∈ bindingsOfFirst nodes → ∃ node others, nodes = node :: others ∧
      node.Binds name own
  | [], _, _, mem => by simp [bindingsOfFirst] at mem
  | node :: others, name, own, mem => by
    rw [bindingsOfFirst] at mem
    exact ⟨node, others, rfl, binds_of_mem mem⟩

theorem binds_of_mem_last : ∀ {nodes : List Node} {name : String} {own : Span},
    (name, own) ∈ bindingsOfLast nodes → ∃ before node, nodes = before ++ [node] ∧
      node.Binds name own
  | [], _, _, mem => by simp [bindingsOfLast] at mem
  | [node], name, own, mem => by
    rw [bindingsOfLast] at mem
    exact ⟨[], node, rfl, binds_of_mem mem⟩
  | first :: node :: nodes, name, own, mem => by
    rw [bindingsOfLast] at mem
    · obtain ⟨before, last, is, binds⟩ := binds_of_mem_last mem
      exact ⟨first :: before, last, by rw [is, List.cons_append], binds⟩
    · simp

end

/-- The bindings of a construct are the names that it binds. -/
theorem mem_bindings {node : Node} {name : String} {own : Span} :
    (name, own) ∈ node.bindings ↔ node.Binds name own :=
  ⟨binds_of_mem, mem_bindings_of_binds⟩

/-- A declaration has a name exactly if it declares one. -/
theorem declaredName?_eq_some {node : Node} {name : String} :
    node.declaredName? = some name ↔ ∃ own, node.Declares name own := by
  have first {parts : List Node} : (ownBinding parts).head?.map (·.1) = some name ↔
      ∃ own, (name, own) ∈ ownBinding parts := by
    rw [ownBinding_eq_head?]
    simp
  unfold declaredName?
  split
  · exact first.trans (exists_congr fun own => mem_ownBinding_function)
  · exact first.trans (exists_congr fun own => mem_ownBinding_class)
  · rename_i function class'
    constructor
    · intro is
      cases is
    · rintro ⟨own, declares⟩
      cases declares with
      | functionDeclaration => exact absurd rfl (function _ _ _ _)
      | classDeclaration => exact absurd rfl (class' _ _)

end Node

/-! ## Sites -/

/-- What an exported name stands for. -/
inductive Shown
  /-- a variable of the script -/
  | variable (name : String)
  /-- an export of another module -/
  | member (source : Source) (name : String)
  /-- all exports of another module, as one object -/
  | module (source : Source)
  /-- a value without a name -/
  | value
  deriving DecidableEq, Repr

/-- A place where a script exports a name: the range of the name, the range of the entry of a list
or else of the declaration, and the range of the declaration. -/
structure ExportSite where
  name : String
  span : Span
  entry : Span
  declaration : Span
  shown : Shown
  deriving DecidableEq, Repr

/-- What an entry of a list stands for: a variable, or an export of the module that is named. -/
def ExportEntry.shown (entry : ExportEntry) : Option Source → Shown
  | some source => .member source entry.value
  | none => .variable entry.value

/-- The sites of an item. -/
def ModuleItem.exportSites : ModuleItem → List ExportSite
  | .exportList span entries source =>
    entries.map fun entry =>
      ⟨entry.exported, entry.exportedSpan, entry.span, span, entry.shown source⟩
  | .exportAll span name source =>
    name.toList.map fun name => ⟨name.1, name.2, span, span, .module source⟩
  | .exportDeclaration span _ names =>
    names.map fun name => ⟨name.1, name.2, span, span, .variable name.1⟩
  | .exportDefault span keyword _ name =>
    [⟨"default", keyword, span, span, name.elim .value .variable⟩]
  | _ => []

/-- The sites of a script, in the order of its tree. -/
def Program.exportSites (program : Program) : List ExportSite :=
  program.items.flatMap ModuleItem.exportSites

namespace Node

/-- A construct exports a name at a site, in itself or in its parts. -/
inductive ExportsAt : Node → ExportSite → Prop
  | exportList {span : Span} {entries : List ExportEntry} {source : Option Source}
    {parts : List Node} {entry : ExportEntry} (mem : entry ∈ entries) :
    ExportsAt (.branch span (.exportList entries source) parts)
      ⟨entry.exported, entry.exportedSpan, entry.span, span, entry.shown source⟩
  | exportAll {span own : Span} {name : String} {source : Source} {parts : List Node} :
    ExportsAt (.branch span (.exportAll (some (name, own)) source) parts)
      ⟨name, own, span, span, .module source⟩
  | exportDeclaration {span own : Span} {declaration : Node} {name : String}
    (binds : declaration.Binds name own) :
    ExportsAt (.branch span .exportDeclaration [declaration])
      ⟨name, own, span, span, .variable name⟩
  | namedDefault {span keyword own : Span} {value : Node} {name : String}
    (declares : value.Declares name own) :
    ExportsAt (.branch span (.exportDefault keyword) [value])
      ⟨"default", keyword, span, span, .variable name⟩
  | defaultValue {span keyword : Span} {value : Node}
    (unnamed : ∀ name own, ¬ value.Declares name own) :
    ExportsAt (.branch span (.exportDefault keyword) [value])
      ⟨"default", keyword, span, span, .value⟩
  | part {span : Span} {form : Form} {parts : List Node} {node : Node} {site : ExportSite}
    (mem : node ∈ parts) (looked : form.isClosed parts = false) (exports : node.ExportsAt site) :
    ExportsAt (.branch span form parts) site

/-- The sites of an item are sites of the construct that it is. -/
theorem exportsAt_of_itemOf? {span : Span} {form : Form} {parts : List Node} {item : ModuleItem}
    {closed : Bool} (h : itemOf? span form parts = some (item, closed)) {site : ExportSite}
    (mem : site ∈ item.exportSites) : (Node.branch span form parts).ExportsAt site := by
  unfold itemOf? at h
  split at h <;> cases h
  · cases mem
  · obtain ⟨entry, listed, rfl⟩ := List.mem_map.mp mem
    exact .exportList listed
  · obtain ⟨⟨name, own⟩, listed, rfl⟩ := List.mem_map.mp mem
    rw [Option.mem_toList.mp listed]
    exact .exportAll
  · obtain ⟨⟨name, own⟩, listed, rfl⟩ := List.mem_map.mp mem
    exact .exportDeclaration (mem_bindings.mp listed)
  · rename_i value
    rw [List.mem_singleton.mp mem]
    cases is : value.declaredName? with
    | some name =>
      obtain ⟨own, declares⟩ := declaredName?_eq_some.mp is
      exact .namedDefault declares
    | none =>
      refine .defaultValue fun name own declares => ?_
      rw [declaredName?_eq_some.mpr ⟨own, declares⟩] at is
      cases is
  · cases mem
  · cases mem

theorem exportsAt_of_has {node : Node} {item : ModuleItem} (h : node.Has item) {site : ExportSite}
    (mem : site ∈ item.exportSites) : node.ExportsAt site := by
  induction h with
  | own own => exact exportsAt_of_itemOf? own mem
  | part listed looked _ ih => exact .part listed looked (ih mem)

theorem exists_has_of_exportsAt {node : Node} {site : ExportSite} (h : node.ExportsAt site) :
    ∃ item, node.Has item ∧ site ∈ item.exportSites := by
  induction h with
  | exportList mem => exact ⟨_, .own rfl, List.mem_map_of_mem mem⟩
  | exportAll => exact ⟨_, .own rfl, List.mem_singleton_self _⟩
  | exportDeclaration binds =>
    exact ⟨_, .own rfl, List.mem_map.mpr ⟨_, mem_bindings.mpr binds, rfl⟩⟩
  | namedDefault declares =>
    refine ⟨_, .own rfl, ?_⟩
    rw [declaredName?_eq_some.mpr ⟨_, declares⟩]
    exact List.mem_singleton_self _
  | @defaultValue _ _ value unnamed =>
    have none : value.declaredName? = none := by
      refine Option.eq_none_iff_forall_ne_some.mpr fun name is => ?_
      obtain ⟨own, declares⟩ := declaredName?_eq_some.mp is
      exact unnamed name own declares
    refine ⟨_, .own rfl, ?_⟩
    rw [none]
    exact List.mem_singleton_self _
  | part mem looked _ ih =>
    obtain ⟨item, has, listed⟩ := ih
    exact ⟨item, .part mem looked has, listed⟩

/-- The sites of the items of a construct are the places where it exports a name. -/
theorem mem_exportSites {node : Node} {site : ExportSite} :
    site ∈ node.items.flatMap ModuleItem.exportSites ↔ node.ExportsAt site := by
  rw [List.mem_flatMap]
  constructor
  · rintro ⟨item, mem, listed⟩
    exact exportsAt_of_has (mem_items.mp mem) listed
  · intro exports
    obtain ⟨item, has, listed⟩ := exists_has_of_exportsAt exports
    exact ⟨item, mem_items.mpr has, listed⟩

end Node

/-! ## Their order -/

/-- A site stands before another one: in an earlier declaration, or earlier in the same. -/
def ExportSite.Before (site later : ExportSite) : Prop :=
  site.declaration.start < later.declaration.start ∨
    site.declaration = later.declaration ∧ site.span.stop ≤ later.span.start

namespace ModuleItem

theorem spans_exportSites (item : ModuleItem) :
    item.exportSites.map (·.span) = item.exportedSpans := by
  cases item <;> simp [exportSites, exportedSpans]

/-- The sites of an item stand in the declaration that it is. -/
theorem declaration_of_mem {item : ModuleItem} {site : ExportSite}
    (mem : site ∈ item.exportSites) : item.exportSpan? = some site.declaration := by
  cases item with
  | exportList span entries source =>
    obtain ⟨entry, -, rfl⟩ := List.mem_map.mp mem
    rfl
  | exportAll span name source =>
    obtain ⟨name, -, rfl⟩ := List.mem_map.mp mem
    rfl
  | exportDeclaration span start names =>
    obtain ⟨name, -, rfl⟩ := List.mem_map.mp mem
    rfl
  | exportDefault span keyword start name =>
    rw [List.mem_singleton.mp mem]
    rfl
  | _ => cases mem

/-- What is replaced for an export begins where the declaration does. -/
theorem start_of_exportSpan? {item : ModuleItem} {span : Span} (is : item.exportSpan? = some span) :
    ∃ place, item.place? = some place ∧ place.start = span.start := by
  cases item <;> cases is <;> exact ⟨_, rfl, rfl⟩

end ModuleItem

section

variable {isTyped : Bool} {text : List Char} {program : Program}
  (read : Program.read isTyped text = .ok program)

include read

/-- The sites of an item stand one behind the other. -/
theorem ordered_of_item {item : ModuleItem} (mem : item ∈ program.items) :
    item.exportSites.Pairwise ExportSite.Before := by
  have apart : (item.exportSites.map (·.span)).Pairwise fun span later =>
      span.stop ≤ later.start := by
    cases is : item.exportSpan? with
    | some span =>
      rw [ModuleItem.spans_exportSites]
      exact (Program.exported_of_read read item mem span is).apart
    | none =>
      have none : item.exportSites = [] := by
        refine List.eq_nil_iff_forall_not_mem.mpr fun site listed => ?_
        rw [ModuleItem.declaration_of_mem listed] at is
        cases is
      rw [none]
      exact .nil
  refine (List.pairwise_map.mp apart).imp_of_mem fun {site later} listed listed' behind => ?_
  refine .inr ⟨?_, behind⟩
  have same := ModuleItem.declaration_of_mem listed
  rw [ModuleItem.declaration_of_mem listed'] at same
  exact (Option.some.inj same).symm

/-- The sites of statements stand in the order of the text where what is replaced for them does. -/
theorem exportSites_ordered {nodes : List Node} (sub : nodes ⊆ program.statements)
    (order : (Node.placesOfAll nodes).Pairwise fun place later => place.stop ≤ later.start) :
    ((Node.itemsOfAll nodes).flatMap ModuleItem.exportSites).Pairwise ExportSite.Before := by
  have own {item : ModuleItem} (mem : item ∈ Node.itemsOfAll nodes) : item ∈ program.items := by
    obtain ⟨node, listed, mem⟩ := Node.mem_itemsOfAll.mp mem
    exact Node.mem_itemsOfAll.mpr ⟨node, sub listed, mem⟩
  refine List.pairwise_flatMap.mpr ⟨fun item mem => ordered_of_item read (own mem), ?_⟩
  have apart := List.pairwise_filterMap.mp order
  refine apart.imp_of_mem fun {item later} mem _ behind site listed site' listed' => .inl ?_
  obtain ⟨place, is, start⟩ :=
    ModuleItem.start_of_exportSpan? (ModuleItem.declaration_of_mem listed)
  obtain ⟨place', is', start'⟩ :=
    ModuleItem.start_of_exportSpan? (ModuleItem.declaration_of_mem listed')
  have nonempty := Program.nonempty_of_read read item (own mem) place is
  have le := behind place is place' is'
  omega

/-- The sites of a script are those of its statements, in the order of each statement. -/
theorem Program.lists_exportSites :
    program.Lists Node.ExportsAt ExportSite.Before program.exportSites := by
  have each (node : Node) (mem : node ∈ program.statements) :
      (node.items.flatMap ModuleItem.exportSites).Pairwise ExportSite.Before := by
    have ordered := exportSites_ordered read (List.cons_subset.mpr ⟨mem, List.nil_subset _⟩)
      (Program.read_contained read node mem).placed_places.apart
    rwa [Node.itemsOfAll, Node.itemsOfAll, List.append_nil] at ordered
  have all : program.exportSites =
      program.statements.flatMap fun node => node.items.flatMap ModuleItem.exportSites := by
    rw [Program.exportSites, Program.items, Node.itemsOfAll_eq_flatMap, List.flatMap_assoc]
  rw [all]
  exact Program.lists_flatMap (fun _ _ _ => Node.mem_exportSites) each

end

end ModuleBundler.Script

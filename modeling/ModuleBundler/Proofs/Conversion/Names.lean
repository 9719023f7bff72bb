/-
# ModuleBundler.Proofs.Conversion.Names — the names of a conversion.

A conversion declares names for itself: those of variables that hold modules, and that of the
function that passes all exports on (`ownNames`).  It relies on names that others give to it, such
as `require` (`outerNames`).  What becomes of the statements of a script declares what these
declare (`scope_statementTrees`), uses what these use (`used_statements`) and binds what these bind
(`bound_statements`).  The prologue declares own names and imports (`perm_scope_prologueTrees`), and
uses own and outer names and what the script exports (`used_prologueTrees`).
-/
import ModuleBundler.Proofs.Conversion.Prologue
import ModuleBundler.Proofs.Conversion.Trees
import ModuleBundler.Proofs.Script.Scopes

namespace ModuleBundler.Conversion

open Script

/-! ## Statements -/

theorem keepsNames_rewritten : Node.KeepsNames rewritten where
  leaf _ _ := rfl
  branch span form parts := by
    have kept : form.shape.role = form.role := by cases form <;> rfl
    rw [rewritten]
    rcases own : Node.itemOf? span form parts with _ | ⟨item, closed⟩
    · exact ⟨_, _, rfl, kept, fun _ => rewrittenAll_eq_map parts⟩
    · unfold Node.itemOf? at own
      split at own
      all_goals first
        | cases own
          exact ⟨_, _, rfl, rfl, fun _ => rewrittenAll_eq_map _⟩
        | cases own
          exact ⟨_, _, rfl, rfl, fun other => absurd rfl other⟩
        | cases own

/-- No export of a declaration is left. -/
theorem rewritten_unexported (span : Span) (form : Form) (parts : List Node) :
    ∃ form' parts', rewritten (.branch span form parts) = branch form' parts' ∧
      (form' = .exportDeclaration ∨ (∃ keyword, form' = .exportDefault keyword) →
        ∀ inner, parts' ≠ [inner]) := by
  rw [rewritten]
  rcases own : Node.itemOf? span form parts with _ | ⟨item, closed⟩
  · -- an export with one part is an item
    refine ⟨_, _, rfl, fun isExport inner single => ?_⟩
    rw [rewrittenAll_eq_map] at single
    obtain ⟨part, rfl, -⟩ := List.map_eq_singleton_iff.mp single
    rcases isExport with same | ⟨keyword, same⟩
    · cases form <;> cases same
      cases own
    · cases form <;> cases same
      cases own
  · unfold Node.itemOf? at own
    split at own
    all_goals first
      | cases own
        exact ⟨_, _, rfl, by rintro (same | ⟨keyword, same⟩) <;> cases same⟩
      | cases own

theorem exportedClass?_rewritten (node : Node) : (rewritten node).exportedClass? = none := by
  cases is : (rewritten node).exportedClass? with
  | none => rfl
  | some others =>
    cases node with
    | leaf span own => cases is
    | branch span form parts =>
      obtain ⟨form', parts', same, unexported⟩ := rewritten_unexported span form parts
      rw [same] at is
      rcases Node.exportedClass?_eq_some is with ⟨_, _, exported | ⟨keyword, exported⟩⟩
      · obtain ⟨-, rfl, single⟩ := Node.branch.inj exported
        exact absurd single (unexported (.inl rfl) _)
      · obtain ⟨-, rfl, single⟩ := Node.branch.inj exported
        exact absurd single (unexported (.inr ⟨_, rfl⟩) _)

/-- A construct that is converted declares what it has declared. -/
theorem declares_rewritten (node : Node) : (rewritten node).declares = node.declaration := by
  rw [← Node.declaration_eq keepsNames_rewritten]
  cases node with
  | leaf span own => rfl
  | branch span form parts =>
    obtain ⟨form', parts', same, unexported⟩ := rewritten_unexported span form parts
    rw [same]
    refine Node.declares_eq_declaration unexported fun decorated => ?_
    obtain ⟨own, others, is, role, kept⟩ := keepsNames_rewritten.branch span form parts
    obtain ⟨-, rfl, rfl⟩ := Node.branch.inj (same.symm.trans is)
    rw [kept (by rw [← role, decorated]; decide), List.getLast?_map]
    cases parts.getLast? with
    | none => rfl
    | some node => exact exportedClass?_rewritten node

theorem scope_rewritten (node : Node) : Node.scope [rewritten node] = node.declaration := by
  rw [Node.scope, List.flatMap_singleton, declares_rewritten]

theorem scope_defaultTrees (value : Node) :
    Node.scope (defaultTrees value) = value.declaredName?.toList := by
  unfold defaultTrees
  split
  · rename_i named
    rw [scope_rewritten, Node.declaredName?_toList named]
  · rename_i unnamed
    rw [Option.not_isSome_iff_eq_none.mp unnamed]
    rfl

/-- Decorators before an export leave what the class declares. -/
theorem scope_decoratedTrees (span : Span) (parts : List Node) :
    Node.scope (statementTrees (.branch span .decorated parts)) =
      (Node.branch span .decorated parts).declares := by
  unfold statementTrees
  dsimp only
  split
  · rename_i is
    rw [scope_rewritten, Node.declares, is]
    rfl
  · rename_i is
    rw [scope_defaultTrees, Node.declares, is]
    exact (Node.ownBinding_eq _).symm
  · -- no class is exported behind the decorators
    rename_i noDeclaration noDefault
    rw [scope_rewritten]
    refine (Node.declares_eq_declaration (by simp) fun _ => ?_).symm
    cases is : parts.getLast?.bind Node.exportedClass? with
    | none => rfl
    | some others =>
      obtain ⟨last, isLast, isClass⟩ := Option.bind_eq_some_iff.mp is
      rcases Node.exportedClass?_eq_some isClass with ⟨_, _, rfl | ⟨keyword, rfl⟩⟩
      · exact absurd isLast (noDeclaration _ _ _)
      · exact absurd isLast (noDefault _ _ _ _)

/-- What becomes of a statement declares what the statement declares. -/
theorem scope_statementTrees (node : Node) : Node.scope (statementTrees node) = node.declares := by
  unfold statementTrees
  split
  · rfl
  · rfl
  · rfl
  · exact scope_rewritten _
  · exact scope_defaultTrees _
  · exact scope_decoratedTrees _ _
  · -- a statement that is only converted
    rename_i noDeclaration noDefault undecorated
    rw [scope_rewritten]
    cases node with
    | leaf span own => rfl
    | branch span form parts =>
      refine (Node.declares_eq_declaration ?_ ?_).symm
      · rintro (rfl | ⟨keyword, rfl⟩) inner rfl
        · exact noDeclaration _ _ rfl
        · exact noDefault _ _ _ rfl
      · rintro rfl
        exact (undecorated _ _ rfl).elim

/-! ## The prologue -/

theorem scope_append (nodes others : List Node) :
    Node.scope (nodes ++ others) = Node.scope nodes ++ Node.scope others :=
  List.flatMap_append

theorem scope_bindingTrees (object : String) (bindings : List ImportBinding) :
    Node.scope (bindings.map (bindingTree object)) = bindings.map (·.locally) := by
  induction bindings with
  | nil => rfl
  | cons binding bindings ih =>
    rw [List.map_cons, List.map_cons, Node.scope, List.flatMap_cons, ← Node.scope, ih]
    cases binding <;> rfl

/-- The trees that load a module declare what the statements for it declare. -/
theorem scope_loadingTrees (own : String × ModuleItem) :
    Node.scope (loadingTrees own.1 own.2) =
      (loading? own).toList.flatMap fun loading =>
        loading.statements.filterMap Statement.declared? := by
  obtain ⟨object, item⟩ := own
  cases item with
  | importDeclaration span bindings source =>
    rcases bindings with _ | ⟨first, _ | ⟨second, others⟩⟩
    · rfl
    · cases first <;> rfl
    · let site : LoadSite := ⟨span, .imports (first :: second :: others), source⟩
      have loads : (loading? (object, .importDeclaration span (first :: second :: others)
          source)).toList = [loadingOf object site] := rfl
      have held : (loadingOf object site).temporary = some object := by cases first <;> rfl
      have trees : loadingTrees object (.importDeclaration span (first :: second :: others)
          source) = variableTree object (requireTree source.specifier) ::
            (first :: second :: others).map (bindingTree object) := by cases first <;> rfl
      rw [loads, List.flatMap_singleton, (lawful_loadingOf object site).declared, held, trees]
      exact congrArg (List.cons object) (scope_bindingTrees object _)
  | exportList span entries source => cases source <;> rfl
  | exportAll span name source => cases name <;> rfl
  | _ => rfl

theorem bound_exportTree (object key : String) : (exportTree object key).bound = [] := by
  unfold exportTree propertyTree
  split
  · rfl
  · split <;> rfl

theorem exists_of_mem_getterTrees {object : String} {item : ModuleItem} {tree : Node}
    (mem : tree ∈ getterTrees object item) :
    ∃ name value, tree = getterTree name value ∧ value.bound = [] := by
  unfold getterTrees at mem
  split at mem
  · obtain ⟨entry, -, rfl⟩ := List.mem_map.mp mem
    refine ⟨_, _, rfl, ?_⟩
    split
    · exact bound_exportTree object entry.value
    · rfl
  · exact ⟨_, _, List.mem_singleton.mp mem, rfl⟩
  · obtain ⟨name, -, rfl⟩ := List.mem_map.mp mem
    exact ⟨_, _, rfl, rfl⟩
  · exact ⟨_, _, List.mem_singleton.mp mem, rfl⟩
  · exact absurd mem List.not_mem_nil

theorem scope_getterTrees (object : String) (item : ModuleItem) :
    Node.scope (getterTrees object item) = [] := by
  refine List.flatMap_eq_nil_iff.mpr fun tree mem => ?_
  obtain ⟨name, value, rfl, -⟩ := exists_of_mem_getterTrees mem
  rfl

/-- The names that a conversion declares for itself: those of the variables that hold modules, and
that of the function that passes all exports on. -/
def ownNames (items : List ModuleItem) : List String :=
  (if items.any passesAll then ["__minipack_exportStar"] else []) ++ (prologueOf items).temporaries

theorem scope_prologueTrees {items : List ModuleItem}
    (declares : items.any ModuleItem.isDeclaration = true) :
    Node.scope (prologueTrees items) =
      (if items.any passesAll then ["__minipack_exportStar"] else []) ++
        (prologueOf items).declared := by
  have getters : Node.scope ((numbered 0 items).flatMap fun own => getterTrees own.1 own.2) =
      [] := by
    rw [Node.scope, List.flatMap_assoc]
    exact List.flatMap_eq_nil_iff.mpr fun own _ => scope_getterTrees own.1 own.2
  have functions : Node.scope (if items.any passesAll then [passAllTree] else []) =
      if items.any passesAll then ["__minipack_exportStar"] else [] := by
    split <;> rfl
  have loadings : Node.scope ((numbered 0 items).flatMap fun own => loadingTrees own.1 own.2) =
      (prologueOf items).declared := by
    rw [declared_prologueOf, prologueOf, Node.scope, List.flatMap_assoc, List.filterMap_flatMap,
      List.filterMap_eq_flatMap_toList, List.flatMap_assoc]
    exact List.flatMap_congr fun own _ => scope_loadingTrees own
  rw [prologueTrees, if_pos declares, scope_append, scope_append, scope_append, getters, functions,
    loadings]
  rfl

/-! ## Names of a script and of its conversion -/

/-- The names that a script gives to imports. -/
def importedNames (program : Program) : List String :=
  program.loadSites.flatMap fun site => site.usage.bindings.map (·.locally)

/-- The names that a script declares for itself as a module: those that it imports, and those of its
own variables, functions and classes. -/
def moduleNames (program : Program) : List String :=
  importedNames program ++ Node.scope program.statements

/-- The prologue declares own names, and those of imports. -/
theorem perm_scope_prologueTrees {program : Program}
    (declares : program.items.any ModuleItem.isDeclaration = true) :
    (Node.scope (prologueTrees program.items)).Perm
      (ownNames program.items ++ importedNames program) := by
  have declared : ((prologueOf program.items).declared).Perm
      ((prologueOf program.items).temporaries ++ importedNames program) := by
    -- a variable that holds a module stands before the imports from it, in between others, so
    -- only the counts are compared
    refine List.perm_iff_count.mpr fun name => ?_
    rw [declared_prologueOf, List.count_append]
    exact count_declared (loadings_lawful 0 program.items) name
  rw [scope_prologueTrees declares, ownNames, List.append_assoc]
  exact declared.append_left _

/-- A conversion declares what its script declares, and its own names. -/
theorem scope_trees {program : Program}
    (declares : program.items.any ModuleItem.isDeclaration = true) :
    (Node.scope (trees program)).Perm (ownNames program.items ++ moduleNames program) := by
  have statements : Node.scope (program.statements.flatMap statementTrees) =
      Node.scope program.statements := by
    rw [Node.scope, List.flatMap_assoc]
    exact List.flatMap_congr fun node _ => scope_statementTrees node
  rw [trees, scope_append, statements, moduleNames, ← List.append_assoc]
  exact (perm_scope_prologueTrees declares).append_right _

/-- A temporary name begins like all names of a conversion, and goes on differently from that of the
function. -/
theorem temporary_toList (number : Nat) :
    (temporary number).toList = "__minipack_".toList ++ ("dep" ++ toString number).toList := by
  simp [temporary]

/-- The variables that hold modules are numbered from zero on. -/
theorem temporaries_prologueOf (items : List ModuleItem) :
    (prologueOf items).temporaries =
      (List.range (items.countP needsTemporary)).map temporary := by
  rw [List.range_eq_range']
  exact temporaries_numbered 0 items

theorem ownNames_numbered (items : List ModuleItem) :
    ownNames items = (if items.any passesAll then ["__minipack_exportStar"] else []) ++
      (List.range (items.countP needsTemporary)).map temporary := by
  rw [ownNames, temporaries_prologueOf]

theorem exists_of_mem_temporaries {items : List ModuleItem} {name : String}
    (mem : name ∈ (prologueOf items).temporaries) : ∃ number, name = temporary number := by
  rw [temporaries_prologueOf] at mem
  obtain ⟨number, -, rfl⟩ := List.mem_map.mp mem
  exact ⟨number, rfl⟩

theorem nodup_ownNames (items : List ModuleItem) : (ownNames items).Nodup := by
  have temporaries : (prologueOf items).temporaries.Nodup := by
    rw [temporaries_prologueOf]
    exact List.Nodup.map temporary_injective List.nodup_range
  have other : "__minipack_exportStar" ∉ (prologueOf items).temporaries := by
    intro mem
    obtain ⟨number, same⟩ := exists_of_mem_temporaries mem
    -- behind the mark one goes on with a letter that the other has not
    have letters := congrArg (fun name : String => name.toList.drop 11) same
    rw [temporary_toList] at letters
    exact absurd letters (by simp)
  unfold ownNames
  split
  · exact List.nodup_cons.mpr ⟨other, temporaries⟩
  · exact temporaries

theorem ownNames_marked {items : List ModuleItem} {name : String} (own : name ∈ ownNames items) :
    "__minipack_".toList <+: name.toList := by
  rcases List.mem_append.mp own with function | holds
  · split at function
    · rw [List.mem_singleton.mp function]
      decide
    · exact absurd function List.not_mem_nil
  · obtain ⟨number, rfl⟩ := exists_of_mem_temporaries holds
    rw [temporary_toList]
    exact List.prefix_append _ _

/-! ## Names that are used -/

/-- Whether an item is an import at run time. -/
def isDeferred : ModuleItem → Bool
  | .dynamicImport _ _ => true
  | _ => false

/-- A name is used in a construct, or by what becomes of an import at run time in it. -/
def UsedOrDeferred (name : String) (used : List String) (items : List ModuleItem) : Prop :=
  name ∈ used ∨ (name ∈ ["Promise", "require"] ∧ ∃ item ∈ items, isDeferred item = true)

theorem UsedOrDeferred.mono {name : String} {used used' : List String}
    {items items' : List ModuleItem} (h : UsedOrDeferred name used items) (uses : used ⊆ used')
    (has : items ⊆ items') : UsedOrDeferred name used' items' :=
  h.imp (fun mem => uses mem) fun ⟨emitted, item, mem, deferred⟩ =>
    ⟨emitted, item, has mem, deferred⟩

mutual

theorem used_rewritten {name : String} : ∀ {node : Node}, name ∈ (rewritten node).used →
    UsedOrDeferred name node.used node.items
  | .leaf _ own, mem => by
    cases own <;> exact .inl mem
  | .branch span form parts, mem => by
    have inner (is : name ∈ Node.usedAll (rewrittenAll parts)) := used_rewrittenAll is
    rw [rewritten] at mem
    rw [Node.items]
    rcases own : Node.itemOf? span form parts with _ | ⟨item, closed⟩
    · rw [own] at mem
      exact inner mem
    · obtain rfl := closed_eq own
      rw [own] at mem
      cases item with
      | dynamicImport place source =>
        -- nothing is left of what stands in the import
        refine .inr ⟨?_, _, List.mem_singleton_self _, rfl⟩
        have emitted : (deferredTree source.specifier).used = ["Promise", "require"] := rfl
        rwa [← emitted]
      | exportDeclaration | exportDefault | requireCall =>
        exact (inner mem).mono (List.Subset.refl _) (List.subset_cons_self _ _)
      | importDeclaration | exportList | exportAll => exact absurd mem List.not_mem_nil

theorem used_rewrittenAll {name : String} : ∀ {nodes : List Node},
    name ∈ Node.usedAll (rewrittenAll nodes) →
      UsedOrDeferred name (Node.usedAll nodes) (Node.itemsOfAll nodes)
  | [], mem => .inl mem
  | node :: nodes, mem => by
    rcases List.mem_append.mp mem with first | others
    · exact (used_rewritten first).mono (List.subset_append_left _ _) (List.subset_append_left _ _)
    · exact (used_rewrittenAll others).mono (List.subset_append_right _ _)
        (List.subset_append_right _ _)

end

mutual

theorem bound_rewritten {name : String} : ∀ {node : Node}, name ∈ (rewritten node).bound →
    name ∈ node.bound
  | .leaf _ own, mem => by
    cases own <;> exact mem
  | .branch span form parts, mem => by
    have inner (is : name ∈ Node.boundAll (rewrittenAll parts)) := bound_rewrittenAll is
    rw [rewritten] at mem
    rcases own : Node.itemOf? span form parts with _ | ⟨item, closed⟩
    · rw [own] at mem
      exact inner mem
    · rw [own] at mem
      cases item with
      | exportDeclaration | exportDefault | requireCall => exact inner mem
      | dynamicImport | importDeclaration | exportList | exportAll =>
        exact absurd mem List.not_mem_nil

theorem bound_rewrittenAll {name : String} : ∀ {nodes : List Node},
    name ∈ Node.boundAll (rewrittenAll nodes) → name ∈ Node.boundAll nodes
  | [], mem => mem
  | node :: nodes, mem => by
    rcases List.mem_append.mp mem with first | others
    · exact List.mem_append_left _ (bound_rewritten first)
    · exact List.mem_append_right _ (bound_rewrittenAll others)

end

/-- A construct has no names and items that another one has not. -/
structure Within (inner node : Node) : Prop where
  used : inner.used ⊆ node.used
  bound : inner.bound ⊆ node.bound
  items : inner.items ⊆ node.items

theorem Within.refl (node : Node) : Within node node :=
  ⟨List.Subset.refl _, List.Subset.refl _, List.Subset.refl _⟩

/-- An exported construct is in its export. -/
theorem within_export (span : Span) (inner : Node) :
    Within inner (.branch span .exportDeclaration [inner]) :=
  ⟨List.subset_append_left _ _, List.subset_append_left _ _,
    List.Subset.trans (List.subset_append_left _ _) (List.subset_cons_self _ _)⟩

theorem within_default (span keyword : Span) (inner : Node) :
    Within inner (.branch span (.exportDefault keyword) [inner]) :=
  ⟨List.subset_append_left _ _, List.subset_append_left _ _,
    List.Subset.trans (List.subset_append_left _ _) (List.subset_cons_self _ _)⟩

/-- So is a class with the decorators before its export. -/
theorem within_decorated (span own : Span) {parts members : List Node} {last : Node}
    (is : parts.getLast? = some last)
    (inside : Within (.branch own .classDeclaration members) last) :
    Within (.branch own .classDeclaration (parts.dropLast ++ members))
      (.branch span .decorated parts) := by
  obtain ⟨before, rfl⟩ := List.getLast?_eq_some_iff.mp is
  rw [List.dropLast_concat]
  have isLast : last ∈ before ++ [last] := List.mem_append_right _ (List.mem_singleton_self _)
  refine ⟨fun name mem => ?_, fun name mem => ?_, fun item mem => ?_⟩
  · obtain ⟨node, listed, mem⟩ := Node.mem_usedAll.mp mem
    rcases List.mem_append.mp listed with listed | listed
    · exact Node.mem_usedAll.mpr ⟨node, List.mem_append_left _ listed, mem⟩
    · exact Node.mem_usedAll.mpr
        ⟨last, isLast, inside.used (Node.mem_usedAll.mpr ⟨node, listed, mem⟩)⟩
  · obtain ⟨node, listed, mem⟩ := Node.mem_boundAll.mp mem
    rcases List.mem_append.mp listed with listed | listed
    · exact Node.mem_boundAll.mpr ⟨node, List.mem_append_left _ listed, mem⟩
    · exact Node.mem_boundAll.mpr
        ⟨last, isLast, inside.bound (Node.mem_boundAll.mpr ⟨node, listed, mem⟩)⟩
  · obtain ⟨node, listed, mem⟩ := Node.mem_itemsOfAll.mp mem
    rcases List.mem_append.mp listed with listed | listed
    · exact Node.mem_itemsOfAll.mpr ⟨node, List.mem_append_left _ listed, mem⟩
    · exact Node.mem_itemsOfAll.mpr
        ⟨last, isLast, inside.items (Node.mem_itemsOfAll.mpr ⟨node, listed, mem⟩)⟩

/-- What becomes of a statement is made of one construct in it. -/
theorem exists_within {node tree : Node} (mem : tree ∈ statementTrees node) : ∃ inner,
    Within inner node ∧ (tree = rewritten inner ∨ tree = defaultTree (rewritten inner)) := by
  have single {inner : Node} (within : Within inner node) (mem : tree ∈ [rewritten inner]) :
      ∃ inner, Within inner node ∧
        (tree = rewritten inner ∨ tree = defaultTree (rewritten inner)) :=
    ⟨inner, within, .inl (List.mem_singleton.mp mem)⟩
  have default {inner : Node} (within : Within inner node) (mem : tree ∈ defaultTrees inner) :
      ∃ inner, Within inner node ∧
        (tree = rewritten inner ∨ tree = defaultTree (rewritten inner)) := by
    unfold defaultTrees at mem
    split at mem
    · exact single within mem
    · exact ⟨inner, within, .inr (List.mem_singleton.mp mem)⟩
  unfold statementTrees at mem
  split at mem
  · exact absurd mem List.not_mem_nil
  · exact absurd mem List.not_mem_nil
  · exact absurd mem List.not_mem_nil
  · exact single (within_export _ _) mem
  · exact default (within_default _ _ _) mem
  · split at mem
    · rename_i is
      exact single (within_decorated _ _ is (within_export _ _)) mem
    · rename_i is
      exact default (within_decorated _ _ is (within_default _ _ _)) mem
    · exact single (.refl _) mem
  · exact single (.refl _) mem

theorem used_defaultTree (value : Node) : (defaultTree value).used = "exports" :: value.used := by
  have expression : (asExpression value).used = value.used := by
    unfold asExpression
    split <;> rfl
  simp [defaultTree, memberOf, branch, leaf, Node.used, Node.usedAll, expression]

theorem bound_defaultTree (value : Node) : (defaultTree value).bound = value.bound := by
  have expression : (asExpression value).bound = value.bound := by
    unfold asExpression
    split <;> rfl
  simp [defaultTree, memberOf, branch, leaf, Node.bound, Node.boundAll, expression]

/-- The statements of a conversion use the names that the script uses, and three others. -/
theorem used_statements {program : Program} {name : String}
    (mem : name ∈ Node.usedAll (program.statements.flatMap statementTrees)) :
    name = "exports" ∨
      UsedOrDeferred name (Node.usedAll program.statements) program.items := by
  obtain ⟨tree, listed, mem⟩ := Node.mem_usedAll.mp mem
  obtain ⟨node, isStatement, listed⟩ := List.mem_flatMap.mp listed
  obtain ⟨inner, within, made⟩ := exists_within listed
  have uses : node.used ⊆ Node.usedAll program.statements := fun name mem =>
    Node.mem_usedAll.mpr ⟨node, isStatement, mem⟩
  have has : node.items ⊆ program.items := fun item mem =>
    Node.mem_itemsOfAll.mpr ⟨node, isStatement, mem⟩
  have kept (mem : name ∈ (rewritten inner).used) :
      UsedOrDeferred name (Node.usedAll program.statements) program.items :=
    (used_rewritten mem).mono (List.Subset.trans within.used uses)
      (List.Subset.trans within.items has)
  rcases made with rfl | rfl
  · exact .inr (kept mem)
  · rw [used_defaultTree] at mem
    exact (List.mem_cons.mp mem).imp id kept

/-- The statements of a conversion bind no name that the script does not bind. -/
theorem bound_statements {program : Program} {name : String}
    (mem : name ∈ Node.boundAll (program.statements.flatMap statementTrees)) :
    name ∈ Node.boundAll program.statements := by
  obtain ⟨tree, listed, mem⟩ := Node.mem_boundAll.mp mem
  obtain ⟨node, isStatement, listed⟩ := List.mem_flatMap.mp listed
  obtain ⟨inner, within, made⟩ := exists_within listed
  refine Node.mem_boundAll.mpr ⟨node, isStatement, within.bound (bound_rewritten ?_)⟩
  rcases made with rfl | rfl
  · exact mem
  · rwa [bound_defaultTree] at mem

/-- An export of a module is reached by the variable that holds the module. -/
theorem used_exportTree {object key name : String} (mem : name ∈ (exportTree object key).used) :
    name = object := by
  unfold exportTree propertyTree at mem
  split at mem
  · simpa [defaultOfTree, memberOf, branch, leaf, Node.used, Node.usedAll] using mem
  · split at mem
    · simpa [memberOf, branch, leaf, Node.used, Node.usedAll] using mem
    · simpa [branch, leaf, Node.used, Node.usedAll] using mem

theorem used_bindingTree {object name : String} {binding : ImportBinding}
    (mem : name ∈ (bindingTree object binding).used) : name = object := by
  have value (declared : String) (tree : Node) : (variableTree declared tree).used = tree.used := by
    simp [variableTree, branch, leaf, Node.used, Node.usedAll]
  cases binding with
  | default own =>
    rw [bindingTree, value] at mem
    simpa [defaultOfTree, memberOf, branch, leaf, Node.used, Node.usedAll] using mem
  | «namespace» own =>
    rw [bindingTree, value] at mem
    exact List.mem_singleton.mp mem
  | named imported own =>
    rw [bindingTree, value] at mem
    exact used_exportTree mem

/-- What loads a module uses `require`, the variable that holds the module if there is one, and the
function that passes all exports on if it is needed. -/
theorem used_loadingTrees {object : String} {item : ModuleItem} {name : String}
    (mem : name ∈ Node.usedAll (loadingTrees object item)) :
    name = "require" ∨ (needsTemporary item = true ∧ name = object) ∨
      (passesAll item = true ∧ name ∈ ["__minipack_exportStar", "exports"]) := by
  unfold loadingTrees at mem
  split at mem
  · exact .inl (List.mem_singleton.mp mem)
  · exact .inl (List.mem_singleton.mp mem)
  · rename_i span bindings source some_binding more
    rcases List.mem_cons.mp mem with first | others
    · exact .inl first
    · obtain ⟨tree, listed, mem⟩ := Node.mem_usedAll.mp others
      obtain ⟨binding, -, rfl⟩ := List.mem_map.mp listed
      refine .inr (.inl ⟨?_, used_bindingTree mem⟩)
      rw [needsTemporary]
      · exact some_binding
      · exact more
  · exact .inl (List.mem_singleton.mp mem)
  · exact .inl (List.mem_singleton.mp mem)
  · have used : name ∈ ["__minipack_exportStar", "require", "exports"] := mem
    simp only [List.mem_cons, List.not_mem_nil, or_false] at used
    rcases used with rfl | rfl | rfl
    · exact .inr (.inr ⟨rfl, by simp⟩)
    · exact .inl rfl
    · exact .inr (.inr ⟨rfl, by simp⟩)
  · exact absurd mem List.not_mem_nil

theorem used_getterTree {key name : String} {value : Node}
    (mem : name ∈ (getterTree key value).used) :
    name ∈ ["Object", "exports"] ∨ name ∈ value.used := by
  have used : (getterTree key value).used = ["Object", "exports"] ++ value.used := by
    simp [getterTree, definedTree, definitionTree, thunk, memberOf, branch, leaf, Node.used,
      Node.usedAll]
  rw [used] at mem
  exact List.mem_append.mp mem

/-- The getters for an item use two names besides those of the module and of what is exported. -/
theorem used_getterTrees {object : String} {item : ModuleItem} {name : String}
    (mem : name ∈ Node.usedAll (getterTrees object item)) :
    name ∈ ["Object", "exports"] ∨ (needsTemporary item = true ∧ name = object) ∨
      ∃ site ∈ item.exportSites, site.shown = .variable name := by
  obtain ⟨tree, listed, uses⟩ := Node.mem_usedAll.mp mem
  cases item with
  | exportList span entries source =>
    obtain ⟨entry, isEntry, rfl⟩ := List.mem_map.mp listed
    refine (used_getterTree uses).imp id fun uses => ?_
    cases source with
    | none =>
      obtain rfl : name = entry.value := List.mem_singleton.mp uses
      exact .inr ⟨_, List.mem_map_of_mem isEntry, rfl⟩
    | some source => exact .inl ⟨rfl, used_exportTree uses⟩
  | exportAll span exported source =>
    cases exported with
    | none => exact absurd listed List.not_mem_nil
    | some exported =>
      rw [List.mem_singleton.mp listed] at uses
      exact (used_getterTree uses).imp id fun uses => .inl ⟨rfl, List.mem_singleton.mp uses⟩
  | exportDeclaration span start names =>
    obtain ⟨exported, isName, rfl⟩ := List.mem_map.mp listed
    refine (used_getterTree uses).imp id fun uses => ?_
    obtain rfl : name = exported.1 := List.mem_singleton.mp uses
    exact .inr ⟨_, List.mem_map_of_mem isName, rfl⟩
  | exportDefault span keyword start own =>
    cases own with
    | none => exact absurd listed List.not_mem_nil
    | some own =>
      rw [List.mem_singleton.mp listed] at uses
      refine (used_getterTree uses).imp id fun uses => ?_
      obtain rfl : name = own := List.mem_singleton.mp uses
      exact .inr ⟨_, List.mem_singleton_self _, rfl⟩
  | _ => exact absurd listed List.not_mem_nil

/-- A variable that holds a module has an own name. -/
theorem mem_ownNames_of_numbered {items : List ModuleItem} {own : String × ModuleItem}
    (mem : own ∈ numbered 0 items) (needs : needsTemporary own.2 = true) :
    own.1 ∈ ownNames items := by
  have held := temporary_loading? own.1 own.2
  rw [if_pos needs] at held
  obtain ⟨loading, is, holds⟩ := Option.bind_eq_some_iff.mp held
  refine List.mem_append_right _ (List.mem_filterMap.mpr ⟨loading, ?_, holds⟩)
  exact List.mem_filterMap.mpr ⟨own, mem, is⟩

theorem mem_items_of_numbered {number : Nat} {items : List ModuleItem} {own : String × ModuleItem}
    (mem : own ∈ numbered number items) : own.2 ∈ items := by
  have mapped := List.mem_map_of_mem (f := (·.2)) mem
  rwa [map_numbered] at mapped

/-- The names of the parameters in the function that passes all exports on. -/
def parameterNames (items : List ModuleItem) : List String :=
  if items.any passesAll then ["from", "to", "key"] else []

/-- The names of the system of modules, and of the language, that a conversion relies on. -/
def outerNames (items : List ModuleItem) : List String :=
  ["require", "exports", "Object"] ++ if items.any isDeferred then ["Promise"] else []

theorem outer_mem {items : List ModuleItem} {name : String}
    (mem : name ∈ ["require", "exports", "Object"]) : name ∈ outerNames items :=
  List.mem_append_left _ mem

/-- The function that passes all exports on uses its parameters and `Object`. -/
theorem used_passAllTree {name : String} (mem : name ∈ passAllTree.used) :
    name = "Object" ∨ name ∈ ["from", "to", "key"] := by
  have used : passAllTree.used =
      ["Object", "from", "key", "Object", "to", "key", "Object", "to", "key", "from", "key"] := rfl
  rw [used] at mem
  simp only [List.mem_cons, List.not_mem_nil, or_false] at mem ⊢
  tauto

/-- The prologue uses outer names, own names, the names of variables that the script exports, and
parameters of the function that passes all exports on. -/
theorem used_prologueTrees {items : List ModuleItem} {name : String}
    (mem : name ∈ Node.usedAll (prologueTrees items)) :
    name ∈ outerNames items ∨ name ∈ ownNames items ∨ name ∈ parameterNames items ∨
      ∃ item ∈ items, ∃ site ∈ item.exportSites, site.shown = .variable name := by
  unfold prologueTrees at mem
  split at mem
  · obtain ⟨tree, listed, uses⟩ := Node.mem_usedAll.mp mem
    simp only [List.mem_append] at listed
    rcases listed with ((begins | getter) | function) | loads
    · have used : Node.usedAll beginTrees = ["Object", "exports"] := rfl
      have outer := Node.mem_usedAll.mpr ⟨tree, begins, uses⟩
      rw [used] at outer
      exact .inl (outer_mem (by simp at outer ⊢; tauto))
    · obtain ⟨own, numbered, listed⟩ := List.mem_flatMap.mp getter
      rcases used_getterTrees (Node.mem_usedAll.mpr ⟨tree, listed, uses⟩) with
        outer | ⟨needs, rfl⟩ | shown
      · exact .inl (outer_mem (by simp at outer ⊢; tauto))
      · exact .inr (.inl (mem_ownNames_of_numbered numbered needs))
      · exact .inr (.inr (.inr ⟨own.2, mem_items_of_numbered numbered, shown⟩))
    · split at function
      · rename_i passes
        rw [List.mem_singleton.mp function] at uses
        rcases used_passAllTree uses with rfl | parameter
        · exact .inl (outer_mem (by simp))
        · refine .inr (.inr (.inl ?_))
          rwa [parameterNames, if_pos passes]
      · exact absurd function List.not_mem_nil
    · obtain ⟨own, numbered, listed⟩ := List.mem_flatMap.mp loads
      rcases used_loadingTrees (Node.mem_usedAll.mpr ⟨tree, listed, uses⟩) with
        rfl | ⟨needs, rfl⟩ | ⟨passes, is⟩
      · exact .inl (outer_mem (by simp))
      · exact .inr (.inl (mem_ownNames_of_numbered numbered needs))
      · have any : items.any passesAll = true :=
          List.any_eq_true.mpr ⟨own.2, mem_items_of_numbered numbered, passes⟩
        rcases List.mem_cons.mp is with rfl | outer
        · refine .inr (.inl (List.mem_append_left _ ?_))
          rw [if_pos any]
          exact List.mem_singleton_self _
        · exact .inl (outer_mem (by simp_all))
  · exact absurd mem List.not_mem_nil

theorem bound_variableTree (name : String) {value : Node} (none : value.bound = []) :
    (variableTree name value).bound = (variableTree name value).declares := by
  change name :: (value.bound ++ []) ++ [] = [name]
  rw [none]
  rfl

theorem bound_bindingTree (object : String) (binding : ImportBinding) :
    (bindingTree object binding).bound = (bindingTree object binding).declares := by
  cases binding with
  | default own => exact bound_variableTree own rfl
  | «namespace» own => exact bound_variableTree own rfl
  | named imported own => exact bound_variableTree own (bound_exportTree object imported)

/-- What loads a module binds names for the whole module only. -/
theorem bound_loadingTrees {object : String} {item : ModuleItem} {tree : Node}
    (mem : tree ∈ loadingTrees object item) : tree.bound = tree.declares := by
  unfold loadingTrees at mem
  split at mem
  · rw [List.mem_singleton.mp mem]
    rfl
  · rw [List.mem_singleton.mp mem]
    rfl
  · rcases List.mem_cons.mp mem with rfl | binds
    · rfl
    · obtain ⟨binding, -, rfl⟩ := List.mem_map.mp binds
      exact bound_bindingTree object binding
  · rw [List.mem_singleton.mp mem]
    rfl
  · rw [List.mem_singleton.mp mem]
    rfl
  · rw [List.mem_singleton.mp mem]
    rfl
  · exact absurd mem List.not_mem_nil

/-- What the prologue binds, it declares for the module, or it is a parameter. -/
theorem bound_prologueTrees {items : List ModuleItem} {name : String}
    (mem : name ∈ Node.boundAll (prologueTrees items)) :
    name ∈ Node.scope (prologueTrees items) ∨ name ∈ parameterNames items := by
  obtain ⟨tree, listed, binds⟩ := Node.mem_boundAll.mp mem
  have declared (same : tree.bound = tree.declares) : name ∈ Node.scope (prologueTrees items) :=
    List.mem_flatMap.mpr ⟨tree, listed, same ▸ binds⟩
  have pieces := listed
  unfold prologueTrees at pieces
  split at pieces
  · simp only [List.mem_append] at pieces
    rcases pieces with ((begins | getter) | function) | loads
    · refine .inl (declared ?_)
      rcases List.mem_pair.mp begins with rfl | rfl <;> rfl
    · obtain ⟨own, -, getter⟩ := List.mem_flatMap.mp getter
      obtain ⟨key, value, rfl, none⟩ := exists_of_mem_getterTrees getter
      refine absurd binds ?_
      simp [getterTree, definedTree, definitionTree, thunk, memberOf, branch, leaf, Node.bound,
        Node.boundAll, none]
    · split at function
      · rename_i passes
        have own : Node.bound passAllTree = "__minipack_exportStar" :: ["from", "to", "key"] := rfl
        rw [parameterNames, if_pos passes]
        obtain rfl := List.mem_singleton.mp function
        rw [own] at binds
        rcases List.mem_cons.mp binds with rfl | parameter
        · exact .inl (List.mem_flatMap.mpr ⟨_, listed, List.mem_singleton_self _⟩)
        · exact .inr parameter
      · exact absurd function List.not_mem_nil
    · obtain ⟨own, -, loads⟩ := List.mem_flatMap.mp loads
      exact .inl (declared (bound_loadingTrees loads))
  · exact absurd pieces List.not_mem_nil

end ModuleBundler.Conversion

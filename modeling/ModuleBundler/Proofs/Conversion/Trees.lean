/-
# ModuleBundler.Proofs.Conversion.Trees — a conversion as one of trees.

A conversion edits a text.  What it means is a conversion of the tree that the text is read as:
declarations that name modules go, exported declarations stay, default values are assigned, imports
at run time become calls that are deferred (`statementTrees`), and calls that load modules and
getters for the exports stand before all that (`prologueTrees`).  The tree of a converted script has
no item but calls of `require`, and these name what the script names
(`place?_eq_none_of_mem_trees`, `mem_specifiers_trees_iff`).

Nothing is said here about the text.  Where it is read as this tree, the conversion has done what it
means to.
-/
import ModuleBundler.Proofs.Conversion.Specifiers
import ModuleBundler.Proofs.Script.Shape

namespace ModuleBundler.Conversion

open Script

/-! ## Pieces of trees -/

def leaf (own : Leaf) : Node :=
  .leaf ⟨0, 0⟩ own

def branch (form : Form) (parts : List Node) : Node :=
  .branch ⟨0, 0⟩ form parts

def memberOf (object : Node) (key : String) : Node :=
  branch (.member false) [object, leaf (.key key)]

/-- A call that loads a module. -/
def requireTree (specifier : String) : Node :=
  branch (.call false) [leaf (.name "require"), leaf (.string specifier)]

/-- A function without parameters that returns a value. -/
def thunk (value : Node) : Node :=
  branch (.functionExpression false false)
    [branch .parameters [], branch .body [branch .return [value]]]

/-- What an import at run time becomes. -/
def deferredTree (specifier : String) : Node :=
  branch (.call false)
    [memberOf (branch (.call false) [memberOf (leaf (.name "Promise")) "resolve"]) "then",
      thunk (requireTree specifier)]

def variableTree (name : String) (value : Node) : Node :=
  branch (.variableDeclaration "var") [branch .declarator [leaf (.binding name), value]]

/-! ## Statements -/

mutual

/-- A construct with its imports at run time converted, without ranges.  Declarations of modules
stand outside of every construct; what becomes of others matters to no script. -/
def rewritten : Node → Node
  | .leaf _ own => leaf own
  | .branch span form parts =>
    match Node.itemOf? span form parts with
    | some (.dynamicImport _ source, _) => deferredTree source.specifier
    | some (.importDeclaration _ _ _, _) | some (.exportList _ _ _, _)
    | some (.exportAll _ _ _, _) => branch .empty []
    | some (.exportDeclaration _ _ _, _) | some (.exportDefault _ _ _ _, _) =>
      branch .block (rewrittenAll parts)
    | some (.requireCall _, _) | none => branch form.shape (rewrittenAll parts)

def rewrittenAll : List Node → List Node
  | [] => []
  | node :: nodes => rewritten node :: rewrittenAll nodes

end

/-- A declaration in the place of a value. -/
def asExpression : Node → Node
  | .branch span (.functionDeclaration isAsync isGenerator) parts =>
    .branch span (.functionExpression isAsync isGenerator) parts
  | .branch span .classDeclaration parts => .branch span .classExpression parts
  | node => node

/-- The assignment of a default value. -/
def defaultTree (value : Node) : Node :=
  branch .expression [branch (.assign .assign)
    [memberOf (leaf (.name "exports")) "default", asExpression value]]

/-- What becomes of a default value: one that declares a name stays a declaration. -/
def defaultTrees (value : Node) : List Node :=
  if value.declaredName?.isSome then [rewritten value] else [defaultTree (rewritten value)]

/-- What becomes of a statement. -/
def statementTrees : Node → List Node
  | .branch _ (.importDeclaration _ _) _ | .branch _ (.exportList _ _) _
  | .branch _ (.exportAll _ _) _ => []
  | .branch _ .exportDeclaration [declaration] => [rewritten declaration]
  | .branch _ (.exportDefault _) [value] => defaultTrees value
  | .branch span .decorated parts =>
    -- decorators before the export come to stand before the class
    match parts.getLast? with
    | some (.branch _ .exportDeclaration [.branch own .classDeclaration members]) =>
      [rewritten (.branch own .classDeclaration (parts.dropLast ++ members))]
    | some (.branch _ (.exportDefault _) [.branch own .classDeclaration members]) =>
      defaultTrees (.branch own .classDeclaration (parts.dropLast ++ members))
    | _ => [rewritten (.branch span .decorated parts)]
  | node => [rewritten node]

/-! ## The prologue -/

def defaultOfTree (object : String) : Node :=
  let variable_ := leaf (.name object)
  branch .conditional
    [branch (.binary "&&") [variable_, memberOf variable_ "__esModule"],
      memberOf variable_ "default", variable_]

def propertyTree (object name : String) : Node :=
  if isPlainName name then memberOf (leaf (.name object)) name
  else branch (.index false) [leaf (.name object), leaf (.string name)]

def exportTree (object name : String) : Node :=
  if name == "default" then defaultOfTree object else propertyTree object name

def bindingTree (object : String) : ImportBinding → Node
  | .default name => variableTree name (defaultOfTree object)
  | .namespace name => variableTree name (leaf (.name object))
  | .named imported name => variableTree name (exportTree object imported)

/-- The statements that load the module of an item. -/
def loadingTrees (object : String) : ModuleItem → List Node
  | .importDeclaration _ [] source => [branch .expression [requireTree source.specifier]]
  | .importDeclaration _ [.namespace name] source =>
    [variableTree name (requireTree source.specifier)]
  | .importDeclaration _ bindings source =>
    variableTree object (requireTree source.specifier) :: bindings.map (bindingTree object)
  | .exportList _ _ (some source) => [variableTree object (requireTree source.specifier)]
  | .exportAll _ (some _) source => [variableTree object (requireTree source.specifier)]
  | .exportAll _ none source =>
    [branch .expression [branch (.call false) [leaf (.name "__minipack_exportStar"),
      requireTree source.specifier, leaf (.name "exports")]]]
  | _ => []

/-- A call that defines a property of an object. -/
def definitionTree (object name : Node) (parts : List Node) : Node :=
  branch .expression [branch (.call false)
    [memberOf (leaf (.name "Object")) "defineProperty", object, name, branch (.object none) parts]]

/-- A call that defines a property of an object by a function. -/
def definedTree (object name value : Node) : Node :=
  definitionTree object name
    [branch .property [leaf (.key "enumerable"), leaf (.atom "true")],
      branch .property [leaf (.key "get"), thunk value]]

def getterTree (name : String) (value : Node) : Node :=
  definedTree (leaf (.name "exports")) (leaf (.string name)) value

/-- The statements that define getters for what an item exports. -/
def getterTrees (object : String) : ModuleItem → List Node
  | .exportList _ entries source =>
    entries.map fun entry =>
      getterTree entry.exported
        (if source.isSome then exportTree object entry.value else leaf (.name entry.value))
  | .exportAll _ (some (name, _)) _ => [getterTree name (leaf (.name object))]
  | .exportDeclaration _ _ names => names.map fun (name, _) => getterTree name (leaf (.name name))
  | .exportDefault _ _ _ (some name) => [getterTree "default" (leaf (.name name))]
  | _ => []

/-- The statements with which every converted module begins. -/
def beginTrees : List Node :=
  [branch .expression [leaf (.string "use strict")],
    definitionTree (leaf (.name "exports")) (leaf (.string "__esModule"))
      [branch .property [leaf (.key "value"), leaf (.atom "true")]]]

/-- Whether a property is passed on: it is no default export, and the module has none like it. -/
def passableTree (object key : Node) : Node :=
  let hasOwn := memberOf (memberOf (leaf (.name "Object")) "prototype") "hasOwnProperty"
  branch (.binary "&&")
    [branch (.binary "!==") [key, leaf (.string "default")],
      branch (.unary "!") [branch (.call false) [memberOf hasOwn "call", object, key]]]

/-- The function that defines getters for all exports of another module. -/
def passAllTree : Node :=
  let source := leaf (.name "from")
  let key := leaf (.name "key")
  let each := branch (.functionExpression false false)
    [branch .parameters [leaf (.binding "key")],
      branch .body [branch .ifElse [passableTree (leaf (.name "to")) key,
        definedTree (leaf (.name "to")) key (branch (.index false) [source, key])]]]
  branch (.functionDeclaration false false)
    [leaf (.binding "__minipack_exportStar"),
      branch .parameters [leaf (.binding "from"), leaf (.binding "to")],
      branch .body [branch .expression [branch (.call false)
        [memberOf (branch (.call false) [memberOf (leaf (.name "Object")) "keys", source]) "forEach",
          each]]]]

/-- The statements that a prologue means. -/
def prologueTrees (items : List ModuleItem) : List Node :=
  if items.any ModuleItem.isDeclaration then
    beginTrees ++ (numbered 0 items).flatMap (fun own => getterTrees own.1 own.2) ++
      (if items.any passesAll then [passAllTree] else []) ++
      (numbered 0 items).flatMap (fun own => loadingTrees own.1 own.2)
  else []

/-- The statements that a conversion means. -/
def trees (program : Program) : List Node :=
  prologueTrees program.items ++ program.statements.flatMap statementTrees

/-! ## Items of what statements become -/

/-- The specifier by which an item names a module where it stands. -/
def kept? : ModuleItem → Option String
  | .dynamicImport _ source => some source.specifier
  | .requireCall source => some source.specifier
  | _ => none

/-- The specifier by which an item names a module in the prologue. -/
def loaded? : ModuleItem → Option String
  | .importDeclaration _ _ source => some source.specifier
  | .exportList _ _ source => source.map (·.specifier)
  | .exportAll _ _ source => some source.specifier
  | _ => none

/-- The gists of calls of `require`. -/
def requires (specifiers : List String) : List (Bool × Option String) :=
  specifiers.map fun specifier => (true, some specifier)

theorem requires_append (specifiers others : List String) :
    requires (specifiers ++ others) = requires specifiers ++ requires others :=
  List.map_append

/-- Whether nothing is looked for inside of an item. -/
def isClosed : ModuleItem → Bool
  | .exportDeclaration _ _ _ | .exportDefault _ _ _ _ | .requireCall _ => false
  | _ => true

theorem closed_eq {span : Span} {form : Form} {parts : List Node} {item : ModuleItem}
    {closed : Bool} (h : Node.itemOf? span form parts = some (item, closed)) : closed = isClosed item := by
  unfold Node.itemOf? at h
  split at h
  all_goals first
    | (cases h; rfl)
    | cases h

theorem rewrittenAll_eq_map (nodes : List Node) : rewrittenAll nodes = nodes.map rewritten := by
  induction nodes with
  | nil => rfl
  | cons node nodes ih => rw [rewrittenAll, ih, List.map_cons]

theorem keepsLeaves_rewritten : Node.KeepsLeaves rewritten where
  leaf _ _ := rfl
  branch span form parts := by
    rw [rewritten]
    split
    all_goals exact ⟨_, _, _, rfl⟩

mutual

theorem gists_rewritten : ∀ node : Node,
    (rewritten node).items.map ModuleItem.gist = requires (node.items.filterMap kept?)
  | .leaf _ _ => rfl
  | .branch span form parts => by
    have parts' := gists_rewrittenAll parts
    have same : Node.gistOf? ⟨0, 0⟩ form.shape (rewrittenAll parts) =
        (Node.itemOf? span form parts).map fun own => (own.1.gist, own.2) := by
      rw [rewrittenAll_eq_map]
      exact Node.gistOf?_map keepsLeaves_rewritten span form parts
    rw [rewritten, Node.items]
    rcases own : Node.itemOf? span form parts with _ | ⟨item, closed⟩
    · rw [own] at same
      dsimp only
      rw [branch, Node.gists_branch, same]
      exact parts'
    · obtain rfl := closed_eq own
      cases item with
      | requireCall source =>
        -- the call stays, and stays a call of the same module
        rw [own] at same
        dsimp only
        rw [branch, Node.gists_branch, same]
        exact congrArg (List.cons (true, some source.specifier)) parts'
      | exportDeclaration span start names => exact parts'
      | exportDefault span keyword start name => exact parts'
      | _ => rfl

theorem gists_rewrittenAll : ∀ nodes : List Node,
    (Node.itemsOfAll (rewrittenAll nodes)).map ModuleItem.gist =
      requires ((Node.itemsOfAll nodes).filterMap kept?)
  | [] => rfl
  | node :: nodes => by
    rw [rewrittenAll, Node.itemsOfAll, Node.itemsOfAll, List.map_append, List.filterMap_append,
      requires_append, gists_rewritten node, gists_rewrittenAll nodes]

end

theorem items_asExpression (node : Node) : (asExpression node).items = node.items := by
  unfold asExpression
  split <;> rfl

theorem gists_defaultTrees (value : Node) :
    (Node.itemsOfAll (defaultTrees value)).map ModuleItem.gist =
      requires (value.items.filterMap kept?) := by
  unfold defaultTrees
  split
  · rw [Node.itemsOfAll, Node.itemsOfAll, List.append_nil]
    exact gists_rewritten value
  · have own : Node.itemsOfAll [defaultTree (rewritten value)] =
        (asExpression (rewritten value)).items := by
      simp [defaultTree, memberOf, branch, leaf, Node.itemsOfAll, Node.items, Node.itemOf?]
    rw [own, items_asExpression]
    exact gists_rewritten value

theorem kept_export (span : Span) (declaration : Node) :
    (Node.branch span .exportDeclaration [declaration]).items.filterMap kept? =
      declaration.items.filterMap kept? := by
  change (declaration.items ++ []).filterMap kept? = _
  rw [List.append_nil]

theorem kept_default (span keyword : Span) (value : Node) :
    (Node.branch span (.exportDefault keyword) [value]).items.filterMap kept? =
      value.items.filterMap kept? := by
  change (value.items ++ []).filterMap kept? = _
  rw [List.append_nil]

/-- Decorators keep what they name where they come to stand in their class. -/
theorem kept_decorated (span own : Span) {parts members : List Node} {last : Node}
    (is : parts.getLast? = some last)
    (inside : last.items.filterMap kept? =
      (Node.branch own .classDeclaration members).items.filterMap kept?) :
    (Node.branch own .classDeclaration (parts.dropLast ++ members)).items.filterMap kept? =
      (Node.branch span .decorated parts).items.filterMap kept? := by
  obtain ⟨before, rfl⟩ := List.getLast?_eq_some_iff.mp is
  change (Node.itemsOfAll _).filterMap kept? = (Node.itemsOfAll (before ++ [last])).filterMap kept?
  rw [List.dropLast_concat, Node.itemsOfAll_append, Node.itemsOfAll_append, List.filterMap_append,
    List.filterMap_append, Node.itemsOfAll, Node.itemsOfAll, List.append_nil, inside]
  rfl

/-- What becomes of a statement keeps its imports at run time and its calls, and nothing else. -/
theorem gists_statementTrees (node : Node) :
    (Node.itemsOfAll (statementTrees node)).map ModuleItem.gist =
      requires (node.items.filterMap kept?) := by
  have single (node : Node) : (Node.itemsOfAll [rewritten node]).map ModuleItem.gist =
      requires (node.items.filterMap kept?) := by
    rw [Node.itemsOfAll, Node.itemsOfAll, List.append_nil]
    exact gists_rewritten node
  unfold statementTrees
  split
  · rfl
  · rfl
  · rfl
  · rw [kept_export]
    exact single _
  · rw [kept_default]
    exact gists_defaultTrees _
  · split
    · rename_i is
      rw [← kept_decorated _ _ is (kept_export _ _)]
      exact single _
    · rename_i is
      rw [← kept_decorated _ _ is (kept_default _ _ _)]
      exact gists_defaultTrees _
    · exact single _
  · exact single node

theorem gists_statements (nodes : List Node) :
    (Node.itemsOfAll (nodes.flatMap statementTrees)).map ModuleItem.gist =
      requires ((Node.itemsOfAll nodes).filterMap kept?) := by
  induction nodes with
  | nil => rfl
  | cons node nodes ih =>
    rw [List.flatMap_cons, Node.itemsOfAll_append, List.map_append, gists_statementTrees, ih,
      Node.itemsOfAll, List.filterMap_append, requires_append]

/-! ## Items of the prologue -/

theorem items_exportTree (object name : String) : (exportTree object name).items = [] := by
  unfold exportTree propertyTree
  split
  · rfl
  · split <;> rfl

theorem items_bindingTree (object : String) (binding : ImportBinding) :
    (bindingTree object binding).items = [] := by
  have own (name : String) {value : Node} (none : value.items = []) :
      (variableTree name value).items = [] := by
    change value.items ++ [] ++ [] = []
    rw [none]
    rfl
  cases binding with
  | default name => rfl
  | «namespace» name => rfl
  | named imported name => exact own name (items_exportTree object imported)

theorem items_getterTree (name : String) {value : Node} (none : value.items = []) :
    (getterTree name value).items = [] := by
  simp [getterTree, definedTree, definitionTree, thunk, memberOf, branch, leaf, Node.items,
    Node.itemsOfAll, Node.itemOf?, none]

theorem itemsOfAll_getterTrees (object : String) (item : ModuleItem) :
    Node.itemsOfAll (getterTrees object item) = [] := by
  have all {α : Type} (xs : List α) (name : α → String) (value : α → Node)
      (none : ∀ x ∈ xs, (value x).items = []) :
      Node.itemsOfAll (xs.map fun x => getterTree (name x) (value x)) = [] := by
    induction xs with
    | nil => rfl
    | cons x xs ih =>
      obtain ⟨first, others⟩ := List.forall_mem_cons.mp none
      rw [List.map_cons, Node.itemsOfAll, items_getterTree _ first, ih others]
      rfl
  unfold getterTrees
  split
  · refine all _ _ _ fun entry _ => ?_
    split
    · exact items_exportTree _ _
    · rfl
  · rfl
  · exact all _ _ _ fun _ _ => rfl
  · rfl
  · rfl

/-- The prologue loads the module of a declaration, and no other. -/
theorem gists_loadingTrees (object : String) (item : ModuleItem) :
    (Node.itemsOfAll (loadingTrees object item)).map ModuleItem.gist =
      requires (loaded? item).toList := by
  have bindingTrees (bindings : List ImportBinding) :
      Node.itemsOfAll (bindings.map (bindingTree object)) = [] := by
    induction bindings with
    | nil => rfl
    | cons binding bindings ih =>
      rw [List.map_cons, Node.itemsOfAll, items_bindingTree, ih]
      rfl
  unfold loadingTrees
  split
  · rfl
  · rfl
  · rw [Node.itemsOfAll, bindingTrees]
    rfl
  · rfl
  · rfl
  · rfl
  · rename_i imports lists named passes
    cases item with
    | importDeclaration span bindings source => exact absurd rfl (imports span bindings source)
    | exportList span entries source =>
      cases source with
      | none => rfl
      | some source => exact absurd rfl (lists span entries source)
    | exportAll span name source =>
      cases name with
      | none => exact absurd rfl (passes span source)
      | some name => exact absurd rfl (named span name source)
    | _ => rfl

theorem gists_numbered (number : Nat) (items : List ModuleItem) :
    (Node.itemsOfAll ((numbered number items).flatMap fun own => loadingTrees own.1 own.2)).map
      ModuleItem.gist = requires (items.filterMap loaded?) := by
  induction items generalizing number with
  | nil => rfl
  | cons item items ih =>
    rw [numbered, List.flatMap_cons, Node.itemsOfAll_append, List.map_append, gists_loadingTrees,
      ih, ← requires_append]
    cases is : loaded? item <;> simp [is]

/-- The calls in a prologue name what the declarations of the script name, in their order. -/
theorem gists_prologueTrees (items : List ModuleItem) :
    (Node.itemsOfAll (prologueTrees items)).map ModuleItem.gist =
      requires (items.filterMap loaded?) := by
  unfold prologueTrees
  split
  · have begins : Node.itemsOfAll beginTrees = [] := rfl
    have getters : Node.itemsOfAll
        ((numbered 0 items).flatMap fun own => getterTrees own.1 own.2) = [] := by
      rw [Node.itemsOfAll_flatMap]
      exact List.flatMap_eq_nil_iff.mpr fun own _ => itemsOfAll_getterTrees own.1 own.2
    have functions : Node.itemsOfAll
        (if items.any passesAll then [passAllTree] else []) = [] := by
      split <;> rfl
    rw [Node.itemsOfAll_append, Node.itemsOfAll_append, Node.itemsOfAll_append, begins, getters,
      functions]
    exact gists_numbered 0 items
  · rename_i undeclared
    have none : items.filterMap loaded? = [] := by
      refine List.filterMap_eq_nil_iff.mpr fun item mem => ?_
      have plain := List.any_eq_false.mp ((Bool.not_eq_true _).mp undeclared) item mem
      cases item with
      | dynamicImport span source => rfl
      | requireCall source => rfl
      | _ => exact absurd rfl plain
    rw [none]
    rfl

/-! ## Items of a conversion -/

theorem gists_trees (program : Program) :
    (Node.itemsOfAll (trees program)).map ModuleItem.gist =
      requires (program.items.filterMap loaded? ++ program.items.filterMap kept?) := by
  rw [trees, Node.itemsOfAll_append, List.map_append, gists_prologueTrees, gists_statements,
    ← requires_append]
  rfl

theorem unplaced_iff {items : List ModuleItem} : (∀ item ∈ items, item.place? = none) ↔
    ∀ gist ∈ items.map ModuleItem.gist, gist.1 = true := by
  simp [ModuleItem.gist]

/-- What a conversion leaves are calls, which the next one leaves alone. -/
theorem place?_eq_none_of_mem_trees {program : Program} :
    ∀ item ∈ Node.itemsOfAll (trees program), item.place? = none := by
  rw [unplaced_iff, gists_trees]
  simp [requires]

theorem mem_specifiers {items : List ModuleItem} {specifier : String} :
    specifier ∈ specifiers items ↔ some specifier ∈ (items.map ModuleItem.gist).map (·.2) := by
  rw [specifiers, distinct_eq_eraseDups, List.mem_eraseDups, List.map_map]
  simp [ModuleItem.gist]

/-- A module that an item names is loaded in the prologue, or by a call where the item stands. -/
theorem source?_eq_some_iff {item : ModuleItem} {specifier : String} :
    item.source?.map (·.specifier) = some specifier ↔
      loaded? item = some specifier ∨ kept? item = some specifier := by
  cases item with
  | exportList span entries source => simp [ModuleItem.source?, loaded?, kept?]
  | _ => simp [ModuleItem.source?, loaded?, kept?]

/-- A conversion names the modules that its script names. -/
theorem mem_specifiers_trees_iff {program : Program} {specifier : String} :
    specifier ∈ specifiers (Node.itemsOfAll (trees program)) ↔
      specifier ∈ specifiers program.items := by
  calc specifier ∈ specifiers (Node.itemsOfAll (trees program))
    _ ↔ specifier ∈ program.items.filterMap loaded? ++ program.items.filterMap kept? := by
      rw [mem_specifiers, gists_trees]
      simp [requires]
    _ ↔ ∃ item ∈ program.items, loaded? item = some specifier ∨ kept? item = some specifier := by
      simp only [List.mem_append, List.mem_filterMap, ← exists_or, ← and_or_left]
    _ ↔ specifier ∈ specifiers program.items := by
      simp only [← source?_eq_some_iff]
      rw [specifiers, distinct_eq_eraseDups, List.mem_eraseDups, List.mem_filterMap]

end ModuleBundler.Conversion

/-
# ModuleBundler.Proofs.Script.Scopes — the names that a script declares and uses.

A statement of a module declares names for the whole module: variables, functions and classes where
it stands outside of every block, and variables of the old kind from inside of blocks, too
(`Node.declares`).  What is declared depends on few properties of a tree, so conversions that keep
these declare the same names (`declaration_eq`).  The names that a construct uses or binds
anywhere in it are collected without regard to scopes (`Node.used`, `Node.bound`).
-/
import ModuleBundler.Proofs.Script.Shape

namespace ModuleBundler.Script

/-- What a construct has to do with names that are declared. -/
inductive Role
  /-- its last part binds names -/
  | last
  /-- its first part binds names -/
  | first
  /-- it has a name of its own -/
  | own
  /-- all its parts bind names -/
  | pattern
  /-- it declares variables, for its block or for the function around it -/
  | declared (isVar : Bool)
  /-- it is made of statements -/
  | compound
  | other
  deriving DecidableEq

def Form.role : Form → Role
  | .property => .last
  | .default | .declarator => .first
  | .functionDeclaration _ _ | .classDeclaration => .own
  | .objectPattern | .arrayPattern | .rest | .shorthand => .pattern
  | .variableDeclaration keyword => .declared (keyword == "var")
  | .block | .ifElse | .for | .forIn | .forOf _ | .while | .doWhile | .withObject | .switch
  | .case _ | .try | .catch | .finally | .labeled _ | .exportDeclaration | .exportDefault _
  | .decorated => .compound
  | _ => .other

namespace Node

/-- The names that a pattern or declaration binds. -/
def names (node : Node) : List String :=
  node.bindings.map (·.1)

mutual

/-- The names that statements declare for the function around them, from inside of blocks, too. -/
def hoisted : Node → List String
  | .leaf _ _ => []
  | .branch span form parts =>
    match form.role with
    | .declared true => names (.branch span form parts)
    | .compound => hoistedAll parts
    | _ => []

def hoistedAll : List Node → List String
  | [] => []
  | node :: nodes => hoisted node ++ hoistedAll nodes

end

/-- The names that a statement that exports nothing declares for the block in which it stands. -/
def declaration : Node → List String
  | .leaf _ _ => []
  | .branch span form parts =>
    match form.role with
    | .declared _ | .own => names (.branch span form parts)
    | _ => hoisted (.branch span form parts)

/-- The parts of a class that is exported. -/
def exportedClass? : Node → Option (List Node)
  | .branch _ .exportDeclaration [.branch _ .classDeclaration parts]
  | .branch _ (.exportDefault _) [.branch _ .classDeclaration parts] => some parts
  | _ => none

/-- The names that a statement of a module declares for the module.  Decorators before the export of
a class belong to the class. -/
def declares : Node → List String
  | .branch _ .exportDeclaration [inner] => inner.declaration
  | .branch _ (.exportDefault _) [value] => value.declaredName?.toList
  | .branch span .decorated parts =>
    match parts.getLast?.bind exportedClass? with
    | some others => (ownBinding (parts.dropLast ++ others)).map (·.1)
    | none => declaration (.branch span .decorated parts)
  | node => node.declaration

/-- The names that statements declare outside of everything. -/
def scope (nodes : List Node) : List String :=
  nodes.flatMap declares

mutual

/-- The names that are used in a construct. -/
def used : Node → List String
  | .leaf _ (.name text) => [text]
  | .leaf _ _ => []
  | .branch _ _ parts => usedAll parts

def usedAll : List Node → List String
  | [] => []
  | node :: nodes => used node ++ usedAll nodes

end

mutual

/-- The names that are bound in a construct. -/
def bound : Node → List String
  | .leaf _ (.binding text) => [text]
  | .leaf _ _ => []
  | .branch _ _ parts => boundAll parts

def boundAll : List Node → List String
  | [] => []
  | node :: nodes => bound node ++ boundAll nodes

end

theorem mem_usedAll {name : String} {nodes : List Node} :
    name ∈ usedAll nodes ↔ ∃ node ∈ nodes, name ∈ node.used := by
  induction nodes with
  | nil => simp [usedAll]
  | cons node nodes ih => simp [usedAll, ih]

theorem mem_boundAll {name : String} {nodes : List Node} :
    name ∈ boundAll nodes ↔ ∃ node ∈ nodes, name ∈ node.bound := by
  induction nodes with
  | nil => simp [boundAll]
  | cons node nodes ih => simp [boundAll, ih]

/-! ## What keeps names -/

/-- A map of constructs that keeps what matters to the names that they declare. -/
structure KeepsNames (f : Node → Node) : Prop where
  leaf : ∀ span own, f (.leaf span own) = .leaf ⟨0, 0⟩ own
  branch : ∀ span form parts, ∃ form' parts',
    f (.branch span form parts) = .branch ⟨0, 0⟩ form' parts' ∧ form'.role = form.role ∧
      (form.role ≠ .other → parts' = parts.map f)

theorem bindings_branch (span : Span) (form : Form) (parts : List Node) :
    bindings (.branch span form parts) =
      match form.role with
      | .last => bindingsOfLast parts
      | .first => bindingsOfFirst parts
      | .own => ownBinding parts
      | .pattern | .declared _ => bindingsOfAll parts
      | .compound | .other => [] := by
  cases form <;> rfl

theorem names_own {f : Node → Node} (keeps : KeepsNames f) (nodes : List Node) :
    (ownBinding (nodes.map f)).map (·.1) = (ownBinding nodes).map (·.1) := by
  induction nodes with
  | nil => rfl
  | cons node nodes ih =>
    cases node with
    | leaf span own =>
      rw [List.map_cons, keeps.leaf]
      cases own with
      | binding name => rfl
      | _ => exact ih
    | branch span form parts =>
      obtain ⟨form', parts', is, -, -⟩ := keeps.branch span form parts
      rw [List.map_cons, is]
      exact ih

mutual

theorem names_eq {f : Node → Node} (keeps : KeepsNames f) : ∀ node : Node,
    (f node).names = node.names
  | .leaf span own => by
    rw [keeps.leaf]
    cases own <;> rfl
  | .branch span form parts => by
    obtain ⟨form', parts', is, role, kept⟩ := keeps.branch span form parts
    -- the role tells which parts bind names, and these parts are kept
    rw [is, names, names, bindings_branch, bindings_branch, role]
    cases own : form.role with
    | last =>
      rw [kept (by simp [own])]
      exact namesOfLast_eq keeps parts
    | first =>
      rw [kept (by simp [own])]
      exact namesOfFirst_eq keeps parts
    | own =>
      rw [kept (by simp [own])]
      exact names_own keeps parts
    | pattern | declared isVar =>
      rw [kept (by simp [own])]
      exact namesOfAll_eq keeps parts
    | compound | other => rfl

theorem namesOfAll_eq {f : Node → Node} (keeps : KeepsNames f) : ∀ nodes : List Node,
    (bindingsOfAll (nodes.map f)).map (·.1) = (bindingsOfAll nodes).map (·.1)
  | [] => rfl
  | node :: nodes => by
    rw [List.map_cons, bindingsOfAll, bindingsOfAll, List.map_append, List.map_append,
      namesOfAll_eq keeps nodes]
    exact congrArg (· ++ _) (names_eq keeps node)

theorem namesOfFirst_eq {f : Node → Node} (keeps : KeepsNames f) : ∀ nodes : List Node,
    (bindingsOfFirst (nodes.map f)).map (·.1) = (bindingsOfFirst nodes).map (·.1)
  | [] => rfl
  | node :: _ => names_eq keeps node

theorem namesOfLast_eq {f : Node → Node} (keeps : KeepsNames f) : ∀ nodes : List Node,
    (bindingsOfLast (nodes.map f)).map (·.1) = (bindingsOfLast nodes).map (·.1)
  | [] => rfl
  | [node] => names_eq keeps node
  | _ :: node :: nodes => namesOfLast_eq keeps (node :: nodes)

end

mutual

theorem hoisted_eq {f : Node → Node} (keeps : KeepsNames f) : ∀ node : Node,
    (f node).hoisted = node.hoisted
  | .leaf span own => by rw [keeps.leaf]; rfl
  | .branch span form parts => by
    have same := names_eq keeps (.branch span form parts)
    obtain ⟨form', parts', is, role, kept⟩ := keeps.branch span form parts
    rw [is] at same ⊢
    rw [hoisted, hoisted, role]
    cases own : form.role with
    | declared isVar =>
      cases isVar with
      | true => exact same
      | false => rfl
    | compound =>
      rw [kept (by simp [own])]
      exact hoistedAll_eq keeps parts
    | _ => rfl

theorem hoistedAll_eq {f : Node → Node} (keeps : KeepsNames f) : ∀ nodes : List Node,
    hoistedAll (nodes.map f) = hoistedAll nodes
  | [] => rfl
  | node :: nodes => by
    rw [List.map_cons, hoistedAll, hoistedAll, hoisted_eq keeps node, hoistedAll_eq keeps nodes]

end

/-- Where names are kept, the same names are declared. -/
theorem declaration_eq {f : Node → Node} (keeps : KeepsNames f) (node : Node) :
    (f node).declaration = node.declaration := by
  have same := names_eq keeps node
  have hoists := hoisted_eq keeps node
  cases node with
  | leaf span own =>
    rw [keeps.leaf]
    rfl
  | branch span form parts =>
    obtain ⟨form', parts', is, role, -⟩ := keeps.branch span form parts
    rw [is] at same hoists ⊢
    rw [declaration, declaration, role]
    split
    · exact same
    · exact same
    · exact hoists

/-- A function or a class has at most one name. -/
theorem ownBinding_eq (parts : List Node) :
    (ownBinding parts).map (·.1) = ((ownBinding parts).head?.map (·.1)).toList := by
  induction parts with
  | nil => rfl
  | cons node parts ih =>
    cases node with
    | leaf span own =>
      cases own with
      | binding name => rfl
      | _ => exact ih
    | branch span form inner => exact ih

/-- A statement that exports nothing declares what it declares in a block. -/
theorem declares_eq_declaration {span : Span} {form : Form} {parts : List Node}
    (unexported : form = .exportDeclaration ∨ (∃ keyword, form = .exportDefault keyword) →
      ∀ inner, parts ≠ [inner])
    (undecorated : form = .decorated → parts.getLast?.bind exportedClass? = none) :
    (branch span form parts).declares = (branch span form parts).declaration := by
  unfold declares
  split
  · rename_i is
    obtain ⟨-, rfl, rfl⟩ := Node.branch.inj is
    exact absurd rfl (unexported (.inl rfl) _)
  · rename_i is
    obtain ⟨-, rfl, rfl⟩ := Node.branch.inj is
    exact absurd rfl (unexported (.inr ⟨_, rfl⟩) _)
  · rename_i is
    obtain ⟨rfl, rfl, rfl⟩ := Node.branch.inj is
    rw [undecorated rfl]
  · rfl

theorem declaredName?_toList {node : Node} (named : node.declaredName?.isSome = true) :
    node.declaration = node.declaredName?.toList := by
  unfold declaredName? at named ⊢
  split at named
  · exact ownBinding_eq _
  · exact ownBinding_eq _
  · cases named

/-! ## Leaving ranges out -/

theorem keepsNames_shape : KeepsNames shape where
  leaf _ _ := rfl
  branch span form parts := by
    refine ⟨form.shape, parts.map shape, ?_, ?_, fun _ => rfl⟩
    · rw [shape, shapes_eq_map]
    · cases form <;> rfl

theorem declaredName?_branch (span : Span) (form : Form) (parts : List Node) :
    declaredName? (.branch span form parts) =
      if form.role = .own then (ownBinding parts).head?.map (·.1) else none := by
  cases form <;> rfl

theorem declaredName?_shape (node : Node) : node.shape.declaredName? = node.declaredName? := by
  cases node with
  | leaf span own => rfl
  | branch span form parts =>
    have role : form.shape.role = form.role := by cases form <;> rfl
    have same := names_own keepsNames_shape parts
    rw [shape, declaredName?_branch, declaredName?_branch, role, shapes_eq_map, ← List.head?_map,
      same, List.head?_map]

theorem exportedClass?_eq_some {node : Node} {parts : List Node}
    (is : node.exportedClass? = some parts) : ∃ span own,
      node = .branch span .exportDeclaration [.branch own .classDeclaration parts] ∨
        ∃ keyword,
          node = .branch span (.exportDefault keyword) [.branch own .classDeclaration parts] := by
  unfold exportedClass? at is
  split at is
  · cases is
    exact ⟨_, _, .inl rfl⟩
  · cases is
    exact ⟨_, _, .inr ⟨_, rfl⟩⟩
  · cases is

theorem exportedClass?_shape (node : Node) :
    node.shape.exportedClass? = node.exportedClass?.map shapes := by
  cases node with
  | leaf span own => rfl
  | branch span form parts =>
    cases form with
    | exportDeclaration | exportDefault keyword =>
      rcases parts with _ | ⟨_ | ⟨own, inner, members⟩, _ | ⟨next, others⟩⟩
      · rfl
      · rfl
      · rfl
      · cases inner <;> rfl
      · cases inner <;> rfl
    | _ => rfl

theorem declares_shape (node : Node) : node.shape.declares = node.declares := by
  have plain := declaration_eq keepsNames_shape node
  cases node with
  | leaf span own => rfl
  | branch span form parts =>
    cases form with
    | exportDeclaration =>
      rcases parts with _ | ⟨inner, _ | ⟨next, others⟩⟩
      · rfl
      · exact declaration_eq keepsNames_shape inner
      · exact plain
    | exportDefault keyword =>
      rcases parts with _ | ⟨value, _ | ⟨next, others⟩⟩
      · rfl
      · exact congrArg Option.toList (declaredName?_shape value)
      · exact plain
    | decorated =>
      have last : (shapes parts).getLast?.bind exportedClass? =
          (parts.getLast?.bind exportedClass?).map shapes := by
        rw [shapes_eq_map, List.getLast?_map]
        cases parts.getLast? with
        | none => rfl
        | some node => exact exportedClass?_shape node
      change (Node.branch ⟨0, 0⟩ .decorated (shapes parts)).declares = _
      rw [declares, declares, last]
      cases parts.getLast?.bind exportedClass? with
      | none => exact plain
      | some others =>
        have same := names_own keepsNames_shape (parts.dropLast ++ others)
        rw [List.map_append, List.map_dropLast, ← shapes_eq_map, ← shapes_eq_map] at same
        exact same
    | _ => exact plain

theorem scope_shapes (nodes : List Node) : scope (shapes nodes) = scope nodes := by
  rw [scope, scope, shapes_eq_map, List.flatMap_map]
  exact List.flatMap_congr fun node _ => declares_shape node

/-! ## What is declared is bound -/

theorem mem_bound_own {name : String} {nodes : List Node}
    (mem : name ∈ (ownBinding nodes).map (·.1)) : name ∈ boundAll nodes := by
  induction nodes with
  | nil => exact mem
  | cons node nodes ih =>
    cases node with
    | leaf span own =>
      cases own with
      | binding text => exact List.mem_append_left _ mem
      | _ => exact List.mem_append_right _ (ih mem)
    | branch span form parts => exact List.mem_append_right _ (ih mem)

mutual

theorem mem_bound_of_names {name : String} : ∀ {node : Node}, name ∈ node.names → name ∈ node.bound
  | .leaf _ own, mem => by
    cases own <;> exact mem
  | .branch _ form parts, mem => by
    rw [names, bindings_branch] at mem
    rw [bound]
    cases own : form.role with
    | last =>
      rw [own] at mem
      exact mem_bound_of_last mem
    | first =>
      rw [own] at mem
      exact mem_bound_of_first mem
    | own =>
      rw [own] at mem
      exact mem_bound_own mem
    | pattern | declared isVar =>
      rw [own] at mem
      exact mem_bound_of_all mem
    | compound | other =>
      rw [own] at mem
      exact absurd mem List.not_mem_nil

theorem mem_bound_of_all {name : String} : ∀ {nodes : List Node},
    name ∈ (bindingsOfAll nodes).map (·.1) → name ∈ boundAll nodes
  | [], mem => mem
  | _ :: _, mem => by
    rw [bindingsOfAll, List.map_append] at mem
    rcases List.mem_append.mp mem with first | others
    · exact List.mem_append_left _ (mem_bound_of_names first)
    · exact List.mem_append_right _ (mem_bound_of_all others)

theorem mem_bound_of_first {name : String} : ∀ {nodes : List Node},
    name ∈ (bindingsOfFirst nodes).map (·.1) → name ∈ boundAll nodes
  | [], mem => mem
  | _ :: _, mem => List.mem_append_left _ (mem_bound_of_names mem)

theorem mem_bound_of_last {name : String} : ∀ {nodes : List Node},
    name ∈ (bindingsOfLast nodes).map (·.1) → name ∈ boundAll nodes
  | [], mem => mem
  | [_], mem => List.mem_append_left _ (mem_bound_of_names mem)
  | _ :: _ :: _, mem => List.mem_append_right _ (mem_bound_of_last mem)

end

mutual

theorem mem_bound_of_hoisted {name : String} : ∀ {node : Node},
    name ∈ node.hoisted → name ∈ node.bound
  | .leaf _ _, mem => absurd mem List.not_mem_nil
  | .branch span form parts, mem => by
    rw [hoisted] at mem
    split at mem
    · exact mem_bound_of_names mem
    · exact mem_bound_of_hoistedAll mem
    · exact absurd mem List.not_mem_nil

theorem mem_bound_of_hoistedAll {name : String} : ∀ {nodes : List Node},
    name ∈ hoistedAll nodes → name ∈ boundAll nodes
  | [], mem => mem
  | _ :: _, mem => by
    rcases List.mem_append.mp mem with first | others
    · exact List.mem_append_left _ (mem_bound_of_hoisted first)
    · exact List.mem_append_right _ (mem_bound_of_hoistedAll others)

end

theorem mem_bound_of_declaration {name : String} {node : Node} (mem : name ∈ node.declaration) :
    name ∈ node.bound := by
  cases node with
  | leaf span own => exact absurd mem List.not_mem_nil
  | branch span form parts =>
    rw [declaration] at mem
    split at mem
    · exact mem_bound_of_names mem
    · exact mem_bound_of_names mem
    · exact mem_bound_of_hoisted mem

theorem bound_exportedClass {node : Node} {parts : List Node}
    (is : node.exportedClass? = some parts) : node.bound = boundAll parts := by
  obtain ⟨span, own, rfl | ⟨keyword, rfl⟩⟩ := exportedClass?_eq_some is
  · exact List.append_nil _
  · exact List.append_nil _

theorem mem_bound_of_declares {name : String} {node : Node} (mem : name ∈ node.declares) :
    name ∈ node.bound := by
  unfold declares at mem
  split at mem
  · exact List.mem_append_left _ (mem_bound_of_declaration mem)
  · refine List.mem_append_left _ (mem_bound_of_declaration ?_)
    rwa [declaredName?_toList (Option.isSome_iff_exists.mpr ⟨name, Option.mem_toList.mp mem⟩)]
  · split at mem
    · rename_i parts _ others is
      obtain ⟨last, isLast, isClass⟩ := Option.bind_eq_some_iff.mp is
      obtain ⟨before, rfl⟩ := List.getLast?_eq_some_iff.mp isLast
      rw [List.dropLast_concat] at mem
      -- the name is bound in a decorator or in the class, and both are in the statement
      obtain ⟨node, listed, mem⟩ := mem_boundAll.mp (mem_bound_own mem)
      refine mem_boundAll.mpr ?_
      rcases List.mem_append.mp listed with listed | listed
      · exact ⟨node, List.mem_append_left _ listed, mem⟩
      · refine ⟨last, List.mem_append_right _ (List.mem_singleton_self _), ?_⟩
        rw [bound_exportedClass isClass]
        exact mem_boundAll.mpr ⟨node, listed, mem⟩
    · exact mem_bound_of_declaration mem
  · exact mem_bound_of_declaration mem

/-- Names that are declared outside of everything are bound. -/
theorem mem_bound_of_scope {name : String} {nodes : List Node} (mem : name ∈ scope nodes) :
    name ∈ boundAll nodes := by
  obtain ⟨node, listed, declares⟩ := List.mem_flatMap.mp mem
  exact mem_boundAll.mpr ⟨node, listed, mem_bound_of_declares declares⟩

end Node

end ModuleBundler.Script

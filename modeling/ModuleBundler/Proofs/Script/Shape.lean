/-
# ModuleBundler.Proofs.Script.Shape — constructs without their ranges.

Two texts are read alike if their trees differ in ranges alone.  `Node.shape` leaves the ranges of a
tree out; what the items of the tree say beyond ranges stays (`gists_shapes`): whether a conversion
leaves them alone, and the module they name.
-/
import ModuleBundler.Proofs.Script.Items

namespace ModuleBundler.Script

/-! ## Equality of trees -/

namespace Node

mutual

/-- Whether two constructs are equal. -/
def decEq : (node other : Node) → Decidable (node = other)
  | .leaf span own, .leaf span' own' =>
    if h : span = span' ∧ own = own' then .isTrue (by rw [h.1, h.2])
    else .isFalse (by simpa using h)
  | .leaf _ _, .branch _ _ _ => .isFalse (by simp)
  | .branch _ _ _, .leaf _ _ => .isFalse (by simp)
  | .branch span form parts, .branch span' form' parts' =>
    if h : span = span' ∧ form = form' then
      match decEqAll parts parts' with
      | .isTrue same => .isTrue (by rw [h.1, h.2, same])
      | .isFalse differ => .isFalse (by simp [differ])
    else .isFalse (by
      intro same
      obtain ⟨sameSpan, sameForm, -⟩ := Node.branch.inj same
      exact h ⟨sameSpan, sameForm⟩)

/-- Whether two lists of constructs are equal. -/
def decEqAll : (nodes others : List Node) → Decidable (nodes = others)
  | [], [] => .isTrue rfl
  | [], _ :: _ => .isFalse (by simp)
  | _ :: _, [] => .isFalse (by simp)
  | node :: nodes, other :: others =>
    match decEq node other with
    | .isFalse differ => .isFalse (by simp [differ])
    | .isTrue same =>
      match decEqAll nodes others with
      | .isTrue sameRest => .isTrue (by rw [same, sameRest])
      | .isFalse differ => .isFalse (by simp [differ])

end

instance : DecidableEq Node := decEq

end Node

/-! ## Leaving ranges out -/

/-- A form without the position of a comma. -/
def Form.shape : Form → Form
  | .array comma => .array (comma.map fun _ => 0)
  | .object comma => .object (comma.map fun _ => 0)
  | form => form

namespace Node

mutual

/-- A construct without its ranges; the declarations of modules keep those that their forms hold. -/
def shape : Node → Node
  | .leaf _ own => .leaf ⟨0, 0⟩ own
  | .branch _ form parts => .branch ⟨0, 0⟩ form.shape (shapes parts)

/-- Constructs without their ranges. -/
def shapes : List Node → List Node
  | [] => []
  | node :: nodes => node.shape :: shapes nodes

end

end Node

/-- What an item says beyond its ranges: whether a conversion leaves it alone, and the module that
it names. -/
def ModuleItem.gist (item : ModuleItem) : Bool × Option String :=
  (item.place?.isNone, item.source?.map (·.specifier))

namespace Node

/-- The gist of the item that a branch is, and whether its parts hold no further items. -/
def gistOf? (span : Span) (form : Form) (parts : List Node) :
    Option ((Bool × Option String) × Bool) :=
  (itemOf? span form parts).map fun own => (own.1.gist, own.2)

/-- A map of constructs that keeps leaves and branches apart. -/
structure KeepsLeaves (f : Node → Node) : Prop where
  leaf : ∀ span own, f (.leaf span own) = .leaf ⟨0, 0⟩ own
  branch : ∀ span form parts, ∃ span' form' parts',
    f (.branch span form parts) = .branch span' form' parts'

theorem KeepsLeaves.exists_leaf {f : Node → Node} (keeps : KeepsLeaves f) {node : Node}
    {span : Span} {own : Leaf} (h : f node = .leaf span own) :
    ∃ place, node = .leaf place own := by
  cases node with
  | leaf place other =>
    rw [keeps.leaf] at h
    obtain ⟨-, rfl⟩ := Node.leaf.inj h
    exact ⟨place, rfl⟩
  | branch place form parts =>
    obtain ⟨_, _, _, same⟩ := keeps.branch place form parts
    rw [same] at h
    cases h

theorem gistOf?_call_eq_none {span : Span} {isOptional : Bool} {parts : List Node}
    (other : ∀ own literal specifier,
      parts ≠ [.leaf own (.name "require"), .leaf literal (.string specifier)]) :
    gistOf? span (.call isOptional) parts = none := by
  unfold gistOf? itemOf?
  split
  all_goals first
    | rfl
    | exact absurd rfl (other _ _ _)
    | simp_all

/-- What a branch is does not depend on ranges, nor on what its parts are besides leaves. -/
theorem gistOf?_map {f : Node → Node} (keeps : KeepsLeaves f) (span : Span) (form : Form)
    (parts : List Node) :
    gistOf? ⟨0, 0⟩ form.shape (parts.map f) = gistOf? span form parts := by
  cases form with
  | exportDeclaration =>
    rcases parts with _ | ⟨declaration, _ | ⟨next, others⟩⟩ <;> rfl
  | exportDefault keyword =>
    rcases parts with _ | ⟨value, _ | ⟨next, others⟩⟩ <;> rfl
  | dynamicImport =>
    rcases parts with _ | ⟨⟨literal, own⟩ | ⟨inner, form, parts⟩, options⟩
    · rfl
    · rw [List.map_cons, keeps.leaf]
      cases own <;> rfl
    · obtain ⟨span', form', parts', same⟩ := keeps.branch inner form parts
      rw [List.map_cons, same]
      rfl
  | call isOptional =>
    by_cases required : ∃ own literal specifier,
        parts = [.leaf own (.name "require"), .leaf literal (.string specifier)]
    · obtain ⟨own, literal, specifier, rfl⟩ := required
      rw [List.map_cons, List.map_singleton, keeps.leaf, keeps.leaf]
      rfl
    · rw [gistOf?_call_eq_none fun own literal specifier same =>
        required ⟨own, literal, specifier, same⟩]
      refine gistOf?_call_eq_none fun own literal specifier same => required ?_
      obtain ⟨callee, arguments_, rfl, isCallee, same⟩ := List.map_eq_cons_iff.mp same
      obtain ⟨argument, rest, rfl, isArgument, same⟩ := List.map_eq_cons_iff.mp same
      obtain rfl := List.map_eq_nil_iff.mp same
      obtain ⟨place, rfl⟩ := keeps.exists_leaf isCallee
      obtain ⟨place', rfl⟩ := keeps.exists_leaf isArgument
      exact ⟨place, place', specifier, rfl⟩
  | _ => rfl

/-- The gists of a branch are its own and those of its parts, unless it is closed. -/
theorem gists_branch (span : Span) (form : Form) (parts : List Node) :
    (Node.branch span form parts).items.map ModuleItem.gist =
      match gistOf? span form parts with
      | none => (itemsOfAll parts).map ModuleItem.gist
      | some (gist, true) => [gist]
      | some (gist, false) => gist :: (itemsOfAll parts).map ModuleItem.gist := by
  rw [items, gistOf?]
  rcases itemOf? span form parts with _ | ⟨item, _ | _⟩ <;> rfl

theorem shapes_eq_map (nodes : List Node) : shapes nodes = nodes.map shape := by
  induction nodes with
  | nil => rfl
  | cons node nodes ih => rw [shapes, ih, List.map_cons]

theorem keepsLeaves_shape : KeepsLeaves shape :=
  ⟨fun _ _ => rfl, fun _ _ _ => ⟨_, _, _, rfl⟩⟩

theorem itemsOfAll_append (nodes others : List Node) :
    itemsOfAll (nodes ++ others) = itemsOfAll nodes ++ itemsOfAll others := by
  induction nodes with
  | nil => rfl
  | cons node nodes ih => rw [List.cons_append, itemsOfAll, itemsOfAll, ih, List.append_assoc]

theorem itemsOfAll_flatMap {α : Type} (xs : List α) (f : α → List Node) :
    itemsOfAll (xs.flatMap f) = xs.flatMap fun x => itemsOfAll (f x) := by
  induction xs with
  | nil => rfl
  | cons x xs ih => rw [List.flatMap_cons, List.flatMap_cons, itemsOfAll_append, ih]

mutual

/-- Leaving ranges out changes no gist. -/
theorem gists_shape : ∀ node : Node,
    node.shape.items.map ModuleItem.gist = node.items.map ModuleItem.gist
  | .leaf _ _ => rfl
  | .branch span form parts => by
    rw [shape, gists_branch, gists_branch, gists_shapes parts, shapes_eq_map,
      gistOf?_map keepsLeaves_shape]

theorem gists_shapes : ∀ nodes : List Node,
    (itemsOfAll (shapes nodes)).map ModuleItem.gist = (itemsOfAll nodes).map ModuleItem.gist
  | [] => rfl
  | node :: nodes => by
    rw [shapes, itemsOfAll, itemsOfAll, List.map_append, List.map_append, gists_shape node,
      gists_shapes nodes]

end

end Node

end ModuleBundler.Script

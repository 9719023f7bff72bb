/-
# ModuleBundler.Proofs.Script.Items — the items of constructs in a row.

`Node.Names` says without regard to any order which modules a construct names: the sources of its
declarations, of its imports at run time and of its calls of `require`, however deep they stand.
The items of a construct list them, and where the construct stands in a row, they list them in the
order of the text.
-/
import Mathlib.Data.List.Forall2
import ModuleBundler.Proofs.Script.Programs

namespace ModuleBundler.Script

/-! ## Items and places -/

namespace Node

mutual

/-- Every item of a proper construct is carried by a branch. -/
theorem Proper.carries {text : List Char} : ∀ {node : Node}, node.Proper text →
    ∀ item ∈ node.items, ∃ span form parts closed,
      itemOf? span form parts = some (item, closed) ∧ Carries span parts item closed
  | .leaf _ _, _, item, mem => by simp [Node.items] at mem
  | .branch span form parts, h, item, mem => by
    rw [Node.items] at mem
    split at mem
    · rename_i found is
      rw [List.mem_singleton] at mem
      subst mem
      exact ⟨span, form, parts, true, is, h.carried _ is⟩
    · rename_i found is
      rcases List.mem_cons.mp mem with rfl | mem
      · exact ⟨span, form, parts, false, is, h.carried _ is⟩
      · exact carriesOfAll h.parts item mem
    · exact carriesOfAll h.parts item mem

theorem Proper.carriesOfAll {text : List Char} : ∀ {nodes : List Node},
    (∀ node ∈ nodes, node.Proper text) → ∀ item ∈ Node.itemsOfAll nodes, ∃ span form parts closed,
      itemOf? span form parts = some (item, closed) ∧ Carries span parts item closed
  | [], _, item, mem => by simp [Node.itemsOfAll] at mem
  | node :: nodes, h, item, mem => by
    rw [Node.itemsOfAll] at mem
    rcases List.mem_append.mp mem with mem | mem
    · exact carries (h node List.mem_cons_self) item mem
    · exact carriesOfAll (fun other mem => h other (List.mem_cons_of_mem _ mem)) item mem

end

mutual

/-- The ranges that items take are in the fringe, in their order. -/
theorem places_sublist : ∀ node : Node, (node.items.filterMap ModuleItem.place?).Sublist node.fringe
  | .leaf _ _ => by
    rw [items]
    exact List.nil_sublist _
  | .branch span form parts => by
    have behind := places_sublist_all parts
    rw [items, fringe]
    rcases itemOf? span form parts with _ | ⟨item, _ | _⟩
    · exact behind
    · cases place : item.place? with
      | none => simpa [place] using behind
      | some range => simpa [place] using behind
    · cases place : item.place? with
      | none => simp [place]
      | some range => simp [place]

theorem places_sublist_all : ∀ nodes : List Node,
    ((itemsOfAll nodes).filterMap ModuleItem.place?).Sublist (fringeOfAll nodes)
  | [] => by
    rw [itemsOfAll]
    exact List.nil_sublist _
  | node :: nodes => by
    rw [itemsOfAll, fringeOfAll, List.filterMap_append]
    exact (places_sublist node).append (places_sublist_all nodes)

end

end Node

namespace Node

/-- The ranges that the items of constructs take, in the order of the tree. -/
def placesOfAll (nodes : List Node) : List Span :=
  (itemsOfAll nodes).filterMap ModuleItem.place?

theorem placesOfAll_cons (node : Node) (nodes : List Node) :
    placesOfAll (node :: nodes) = placesOfAll [node] ++ placesOfAll nodes := by
  simp [placesOfAll, itemsOfAll]

end Node

/-- The ranges that the first line and the items of a script take, in their order. -/
def Program.places (program : Program) : List Span :=
  program.hashbang.toList ++ Node.placesOfAll program.statements

theorem Row.placed_places {text : List Char} {low high : Nat} {nodes : List Node}
    (h : Row text low high nodes) :
    Placed low high (Node.placesOfAll nodes) :=
  h.placed.sublist (Node.places_sublist_all nodes)

/-- Every item of a script that has been read is carried by a branch. -/
theorem Program.carries_of_read {isTyped : Bool} {text : List Char} {program : Program}
    (h : Program.read isTyped text = .ok program) :
    ∀ item ∈ program.items, ∃ span form parts closed,
      Node.itemOf? span form parts = some (item, closed) ∧ Node.Carries span parts item closed :=
  Node.Proper.carriesOfAll fun node mem =>
    (Program.read_contained h node mem).proper _ List.mem_cons_self

/-- The items of a script that has been read are proper. -/
theorem Program.proper_of_read {isTyped : Bool} {text : List Char} {program : Program}
    (h : Program.read isTyped text = .ok program) : ∀ item ∈ program.items, item.Proper := by
  intro item mem
  obtain ⟨_, _, _, _, -, carries⟩ := Program.carries_of_read h item mem
  exact carries.own

theorem Node.itemsOfAll_eq_flatMap (nodes : List Node) :
    Node.itemsOfAll nodes = nodes.flatMap Node.items := by
  induction nodes with
  | nil => rfl
  | cons node nodes ih => rw [Node.itemsOfAll, ih, List.flatMap_cons]

theorem Node.mem_itemsOfAll {nodes : List Node} {item : ModuleItem} :
    item ∈ Node.itemsOfAll nodes ↔ ∃ node ∈ nodes, item ∈ node.items := by
  rw [Node.itemsOfAll_eq_flatMap, List.mem_flatMap]

theorem Node.mem_fringeOfAll {nodes : List Node} {span : Span} :
    span ∈ Node.fringeOfAll nodes ↔ ∃ node ∈ nodes, span ∈ node.fringe := by
  induction nodes with
  | nil => simp [Node.fringeOfAll]
  | cons node nodes ih => simp [Node.fringeOfAll, ih]

/-- What a conversion replaces for an item has characters. -/
theorem Program.nonempty_of_read {isTyped : Bool} {text : List Char} {program : Program}
    (h : Program.read isTyped text = .ok program) :
    ∀ item ∈ program.items, ∀ place ∈ item.place?, place.start < place.stop := by
  intro item mem place is
  obtain ⟨_, _, _, _, -, carries⟩ := Program.carries_of_read h item mem
  exact carries.taken place is

/-- What an item exports is named in order inside of its range. -/
theorem Program.exported_of_read {isTyped : Bool} {text : List Char} {program : Program}
    (h : Program.read isTyped text = .ok program) :
    ∀ item ∈ program.items, ∀ span ∈ item.exportSpan?,
      Placed span.start span.stop item.exportedSpans := by
  intro item mem span is
  obtain ⟨own, form, parts, closed, found, carries⟩ := Program.carries_of_read h item mem
  have same : own = span := by
    unfold Node.itemOf? at found
    split at found <;> cases found
    all_goals first
      | exact Option.some.inj is
      | cases is
  exact same ▸ carries.exported

/-! ## The modules that a construct names -/

/-- Whether a branch is not looked through: the declarations that name a module have no parts, and
the options of an import at run time that names its module are dropped. -/
def Form.isClosed (form : Form) (parts : List Node) : Bool :=
  match form, parts with
  | .importDeclaration _ _, _ | .exportList _ _, _ | .exportAll _ _, _ => true
  | .dynamicImport, .leaf _ (.string _) :: _ => true
  | _, _ => false

namespace Node

/-- A construct names a module: it has a declaration with that source, an import at run time of a
literal, or a call of `require` whose only argument is a literal. -/
inductive Names : Node → Source → Prop
  | importDeclaration {span : Span} {bindings : List ImportBinding} {source : Source}
    {parts : List Node} : Names (.branch span (.importDeclaration bindings source) parts) source
  | exportList {span : Span} {entries : List ExportEntry} {source : Source} {parts : List Node} :
    Names (.branch span (.exportList entries (some source)) parts) source
  | exportAll {span : Span} {name : Option (String × Span)} {source : Source}
    {parts : List Node} : Names (.branch span (.exportAll name source) parts) source
  | dynamicImport {span literal : Span} {specifier : String} {options : List Node} :
    Names (.branch span .dynamicImport (.leaf literal (.string specifier) :: options))
      ⟨literal, specifier⟩
  | requireCall {span own literal : Span} {isOptional : Bool} {specifier : String} :
    Names (.branch span (.call isOptional)
      [.leaf own (.name "require"), .leaf literal (.string specifier)]) ⟨literal, specifier⟩
  | part {span : Span} {form : Form} {parts : List Node} {node : Node} {source : Source}
    (mem : node ∈ parts) (looked : form.isClosed parts = false) (names : node.Names source) :
    Names (.branch span form parts) source

theorem closed_of_itemOf? {span : Span} {form : Form} {parts : List Node} {item : ModuleItem}
    {closed : Bool} (h : itemOf? span form parts = some (item, closed)) :
    form.isClosed parts = closed := by
  unfold itemOf? at h
  split at h
  all_goals first
    | (cases h; rfl)
    | cases h

theorem not_closed_of_itemOf? {span : Span} {form : Form} {parts : List Node}
    (h : itemOf? span form parts = none) : form.isClosed parts = false := by
  unfold Form.isClosed
  split
  all_goals first
    | rfl
    | cases h

theorem mem_items_branch {span : Span} {form : Form} {parts : List Node} {item : ModuleItem} :
    item ∈ (Node.branch span form parts).items ↔
      (∃ closed, itemOf? span form parts = some (item, closed)) ∨
        form.isClosed parts = false ∧ item ∈ itemsOfAll parts := by
  rw [items]
  rcases is : itemOf? span form parts with _ | ⟨own, _ | _⟩
  · simp [not_closed_of_itemOf? is]
  · simp [closed_of_itemOf? is, eq_comm]
  · simp [closed_of_itemOf? is, eq_comm]

/-- A construct has an item: it is the item itself, or one of its parts has it. -/
inductive Has : Node → ModuleItem → Prop
  | own {span : Span} {form : Form} {parts : List Node} {item : ModuleItem} {closed : Bool}
    (is : itemOf? span form parts = some (item, closed)) : Has (.branch span form parts) item
  | part {span : Span} {form : Form} {parts : List Node} {node : Node} {item : ModuleItem}
    (mem : node ∈ parts) (looked : form.isClosed parts = false) (has : node.Has item) :
    Has (.branch span form parts) item

mutual

theorem has_of_mem_items : ∀ {node : Node} {item : ModuleItem}, item ∈ node.items → node.Has item
  | .leaf _ _, _, mem => by simp [items] at mem
  | .branch span form parts, item, mem => by
    rcases mem_items_branch.mp mem with ⟨closed, own⟩ | ⟨looked, listed⟩
    · exact .own own
    · obtain ⟨node, mem, has⟩ := has_of_mem_itemsOfAll listed
      exact .part mem looked has

theorem has_of_mem_itemsOfAll : ∀ {nodes : List Node} {item : ModuleItem},
    item ∈ itemsOfAll nodes → ∃ node ∈ nodes, node.Has item
  | [], _, mem => by simp [itemsOfAll] at mem
  | node :: nodes, item, mem => by
    rw [itemsOfAll] at mem
    rcases List.mem_append.mp mem with mem | mem
    · exact ⟨node, List.mem_cons_self, has_of_mem_items mem⟩
    · obtain ⟨other, listed, has⟩ := has_of_mem_itemsOfAll mem
      exact ⟨other, List.mem_cons_of_mem _ listed, has⟩

end

/-- The items of a construct are those that it has. -/
theorem mem_items {node : Node} {item : ModuleItem} : item ∈ node.items ↔ node.Has item := by
  refine ⟨has_of_mem_items, fun has => ?_⟩
  induction has with
  | own own => exact mem_items_branch.mpr (.inl ⟨_, own⟩)
  | part mem looked _ ih =>
    exact mem_items_branch.mpr (.inr ⟨looked, mem_itemsOfAll.mpr ⟨_, mem, ih⟩⟩)

/-- An item that is a construct itself names what the construct names first. -/
theorem names_of_itemOf? {span : Span} {form : Form} {parts : List Node} {item : ModuleItem}
    {closed : Bool} {source : Source} (h : itemOf? span form parts = some (item, closed))
    (is : item.source? = some source) : (Node.branch span form parts).Names source := by
  unfold itemOf? at h
  split at h
  · cases h
    cases is
    exact .importDeclaration
  · cases h
    cases is
    exact .exportList
  · cases h
    cases is
    exact .exportAll
  · cases h
    cases is
  · cases h
    cases is
  · cases h
    cases is
    exact .dynamicImport
  · cases h
    cases is
    exact .requireCall
  · cases h

theorem exists_has_of_names {node : Node} {source : Source} (h : node.Names source) :
    ∃ item, node.Has item ∧ item.source? = some source := by
  induction h with
  | importDeclaration => exact ⟨_, .own rfl, rfl⟩
  | exportList => exact ⟨_, .own rfl, rfl⟩
  | exportAll => exact ⟨_, .own rfl, rfl⟩
  | dynamicImport => exact ⟨_, .own rfl, rfl⟩
  | requireCall => exact ⟨_, .own rfl, rfl⟩
  | part mem looked _ ih =>
    obtain ⟨item, has, is⟩ := ih
    exact ⟨item, .part mem looked has, is⟩

theorem names_of_has {node : Node} {item : ModuleItem} {source : Source} (h : node.Has item)
    (is : item.source? = some source) : node.Names source := by
  induction h with
  | own own => exact names_of_itemOf? own is
  | part mem looked _ ih => exact .part mem looked (ih is)

/-- The sources of constructs, in the order of the tree. -/
def sourcesOfAll (nodes : List Node) : List Source :=
  (itemsOfAll nodes).filterMap ModuleItem.source?

/-- The items of constructs name what the constructs name. -/
theorem mem_sourcesOfAll {nodes : List Node} {source : Source} :
    source ∈ sourcesOfAll nodes ↔ ∃ node ∈ nodes, node.Names source := by
  unfold sourcesOfAll
  rw [List.mem_filterMap]
  constructor
  · rintro ⟨item, mem, is⟩
    obtain ⟨node, listed, mem⟩ := mem_itemsOfAll.mp mem
    exact ⟨node, listed, names_of_has (mem_items.mp mem) is⟩
  · rintro ⟨node, listed, names⟩
    obtain ⟨item, has, is⟩ := exists_has_of_names names
    exact ⟨item, mem_itemsOfAll.mpr ⟨node, listed, mem_items.mpr has⟩, is⟩

end Node

/-! ## Their order -/

/-- An item has the literal that it names its module by in its range. -/
theorem ModuleItem.Proper.inside {item : ModuleItem} {place : Span} {source : Source}
    (h : item.Proper) (there : item.place? = some place) (is : item.source? = some source) :
    source.Inside place := by
  cases item with
  | importDeclaration span bindings found =>
    cases there
    cases is
    exact h.1
  | exportList span entries found =>
    cases there
    cases is
    exact h
  | exportAll span name found =>
    cases there
    cases is
    exact h
  | exportDeclaration span start names => cases is
  | exportDefault span keyword start name => cases is
  | dynamicImport span found =>
    cases there
    cases is
    exact h
  | requireCall found => cases there

theorem ModuleItem.Proper.nonempty {item : ModuleItem} {source : Source} (h : item.Proper)
    (is : item.source? = some source) : source.literal.start < source.literal.stop := by
  cases place : item.place? with
  | some range => exact (h.inside place is).nonempty
  | none =>
    cases item with
    | requireCall found =>
      cases is
      exact h
    | _ => cases place

theorem Node.place_of_itemOf? {span : Span} {form : Form} {parts : List Node} {item : ModuleItem}
    (h : Node.itemOf? span form parts = some (item, true)) : item.place? = some span := by
  unfold Node.itemOf? at h
  split at h
  all_goals first
    | (cases h; rfl)
    | cases h

/-- The ranges of the literals by which constructs name modules, in the order of the tree. -/
def Node.literalsOfAll (nodes : List Node) : List Span :=
  (Node.sourcesOfAll nodes).map (·.literal)

namespace Row

variable {text : List Char}

/-- The parts of a branch that is looked through stand where it does. -/
theorem parts {low high : Nat} {span : Span} {form : Form} {parts : List Node}
    (h : Row text low high [.branch span form parts]) (looked : form.isClosed parts = false) :
    Row text low high parts := by
  refine ⟨h.placed.sublist ?_, (h.proper _ List.mem_cons_self).parts⟩
  rw [Node.fringeOfAll_singleton, Node.fringe]
  rcases is : Node.itemOf? span form parts with _ | ⟨item, _ | _⟩
  · exact .refl _
  · exact List.sublist_append_right _ _
  · rw [Node.closed_of_itemOf? is] at looked
    cases looked

/-- An item that takes all of its range has its literal there. -/
theorem closed_literals {low high : Nat} {span : Span} {form : Form} {parts : List Node}
    {item : ModuleItem} (h : Row text low high [.branch span form parts])
    (is : Node.itemOf? span form parts = some (item, true)) :
    Placed low high (Node.literalsOfAll [.branch span form parts]) := by
  have proper := ((h.proper _ List.mem_cons_self).carried _ is).own
  have place := Node.place_of_itemOf? is
  have placed := h.placed
  rw [Node.fringeOfAll_singleton, Node.fringe, is] at placed
  obtain ⟨lower, -, upper⟩ := placed.within span (by simp [place])
  unfold Node.literalsOfAll Node.sourcesOfAll
  rw [Node.itemsOfAll, Node.items, is]
  cases source : item.source? with
  | none => simpa [source, Node.itemsOfAll] using Placed.nil
  | some source' =>
    have there := proper.inside place source
    simpa [source, Node.itemsOfAll] using Placed.singleton (Nat.le_trans lower there.start_le)
      (Nat.le_of_lt there.nonempty) (Nat.le_trans there.stop_le upper)

/-- A branch whose parts are looked through has its own literal only if it is a call. -/
theorem open_literals {low high : Nat} {span : Span} {form : Form} {parts : List Node}
    {item : ModuleItem} (h : Row text low high [.branch span form parts])
    (is : Node.itemOf? span form parts = some (item, false))
    (behind : Placed low high (Node.literalsOfAll parts)) :
    Placed low high (Node.literalsOfAll [.branch span form parts]) := by
  have placed := h.placed
  rw [Node.fringeOfAll_singleton, Node.fringe, is] at placed
  unfold Node.literalsOfAll Node.sourcesOfAll at behind ⊢
  rw [Node.itemsOfAll, Node.items, is]
  unfold Node.itemOf? at is
  split at is
  · cases is
  · cases is
  · cases is
  · cases is
    simpa [Node.itemsOfAll, List.filterMap_cons, ModuleItem.source?] using behind
  · cases is
    simpa [Node.itemsOfAll, List.filterMap_cons, ModuleItem.source?] using behind
  · cases is
  · cases is
    have literal := placed.sublist (List.sublist_cons_self _ _)
    simpa [ModuleItem.source?, Node.itemsOfAll, Node.items, Node.fringeOfAll, Node.fringe,
      Leaf.isListed] using literal
  · cases is

mutual

/-- The literals of a construct in a row follow one another there. -/
theorem literals : ∀ {node : Node} {low high : Nat}, Row text low high [node] →
    Placed low high (Node.literalsOfAll [node])
  | .leaf _ _, _, _, _ => .nil
  | .branch span form parts, low, high, h => by
    rcases is : Node.itemOf? span form parts with _ | ⟨item, _ | _⟩
    · have behind := literalsOfAll (h.parts (Node.not_closed_of_itemOf? is))
      unfold Node.literalsOfAll Node.sourcesOfAll at behind ⊢
      rw [Node.itemsOfAll, Node.items, is]
      simpa [Node.itemsOfAll] using behind
    · exact h.open_literals is (literalsOfAll (h.parts (Node.closed_of_itemOf? is)))
    · exact h.closed_literals is

theorem literalsOfAll : ∀ {nodes : List Node} {low high : Nat}, Row text low high nodes →
    Placed low high (Node.literalsOfAll nodes)
  | [], _, _, _ => .nil
  | node :: nodes, low, high, h => by
    obtain ⟨middle, le, first, second⟩ := h.part_cons
    have placed := (literals first).append le
      (literalsOfAll (h.sublist (List.sublist_cons_self _ _))) (literalsOfAll second)
    simpa [Node.literalsOfAll, Node.sourcesOfAll, Node.itemsOfAll] using placed

end

end Row

/-- Statements that stand inside of their ranges, which follow one another, stand in a row. -/
theorem Row.of_contained {text : List Char} {low : Nat} {nodes : List Node}
    (contained : ∀ node ∈ nodes, node.Contained text) (lower : ∀ node ∈ nodes, low ≤ node.span.start)
    (order : nodes.Pairwise fun node later => node.span.stop ≤ later.span.start) :
    ∃ high, Row text low high nodes := by
  induction nodes generalizing low with
  | nil => exact ⟨0, .nil⟩
  | cons node nodes ih =>
    obtain ⟨behind, order⟩ := List.pairwise_cons.mp order
    obtain ⟨here, contained⟩ := List.forall_mem_cons.mp contained
    obtain ⟨first, lower⟩ := List.forall_mem_cons.mp lower
    -- the others stand behind the lower bound, and behind this statement
    obtain ⟨high, row⟩ := ih contained lower order
    obtain ⟨high', row'⟩ := ih contained behind order
    refine ⟨max node.span.stop (max high high'), ?_⟩
    exact (here.mono first (Nat.le_refl _)).append (Nat.le_max_left _ _)
      (row.mono (Nat.le_refl _) (by omega)) (row'.mono (Nat.le_refl _) (by omega))

/-- Constructs in a row each of which stands in a text stand there in a row. -/
theorem Row.within {text : List Char} {low high : Nat} {nodes : List Node}
    (h : Row text low high nodes) (within : ∀ node ∈ nodes, node.Within text) :
    Row text low text.length nodes := by
  refine ⟨⟨fun span mem => ?_, h.placed.apart⟩, h.proper⟩
  obtain ⟨lower, ordered, -⟩ := h.placed.within span mem
  obtain ⟨node, listed, mem⟩ := Node.mem_fringeOfAll.mp mem
  have placed := (within node listed).row.placed
  rw [Node.fringeOfAll_singleton] at placed
  exact ⟨lower, ordered, (placed.within span mem).2.2⟩

/-- The statements of a script follow one another, behind the line that names an interpreter. -/
structure Program.InOrder (program : Program) : Prop where
  ordered : ∀ node ∈ program.statements, node.span.start ≤ node.span.stop
  behind : ∀ span ∈ program.hashbang, ∀ node ∈ program.statements, span.stop ≤ node.span.start
  apart : program.statements.Pairwise fun node later => node.span.stop ≤ later.span.start

instance (program : Program) : Decidable program.InOrder :=
  decidable_of_iff
    ((∀ node ∈ program.statements, node.span.start ≤ node.span.stop) ∧
      (∀ span ∈ program.hashbang, ∀ node ∈ program.statements, span.stop ≤ node.span.start) ∧
      program.statements.Pairwise fun node later => node.span.stop ≤ later.span.start)
    ⟨fun ⟨ordered, behind, apart⟩ => ⟨ordered, behind, apart⟩,
      fun order => ⟨order.ordered, order.behind, order.apart⟩⟩

/-! ## What statements have -/

namespace Program

variable {α : Type} {program : Program} {has : Node → α → Prop} {before : α → α → Prop}

/-- A list of what the statements of a script have: one statement after the other, and of each one
exactly what it has, in an order. -/
def Lists (program : Program) (has : Node → α → Prop) (before : α → α → Prop) (xs : List α) :
    Prop :=
  ∃ groups : List (List α), xs = groups.flatten ∧
    List.Forall₂ (fun node group => (∀ x, x ∈ group ↔ has node x) ∧ group.Pairwise before)
      program.statements groups

theorem lists_flatMap {listed : Node → List α}
    (exact : ∀ node ∈ program.statements, ∀ x, x ∈ listed node ↔ has node x)
    (order : ∀ node ∈ program.statements, (listed node).Pairwise before) :
    program.Lists has before (program.statements.flatMap listed) := by
  refine ⟨program.statements.map listed, List.flatMap_def .., ?_⟩
  rw [List.forall₂_map_right_iff]
  exact List.forall₂_same.mpr fun node mem => ⟨exact node mem, order node mem⟩

theorem Lists.mem_iff {xs : List α} (h : program.Lists has before xs) {x : α} :
    x ∈ xs ↔ ∃ node ∈ program.statements, has node x := by
  obtain ⟨groups, rfl, each⟩ := h
  generalize program.statements = statements at each ⊢
  induction each with
  | nil => simp
  | cons first _ ih => simp [first.1, ih]

end Program

end ModuleBundler.Script

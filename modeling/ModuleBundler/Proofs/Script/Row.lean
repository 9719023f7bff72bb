/-
# ModuleBundler.Proofs.Script.Row — constructs that stand in a row.

A conversion replaces ranges of a text and copies string literals, so what it does to a text depends
on where these ranges stand.  The `fringe` of a construct lists them, and the names beside them, in
the order of the tree.  Constructs stand in a `Row` between two positions of a text if their fringes
follow one another there and overlap nowhere, and if each of them is `Proper`: the names that it
binds are words, the literals that it names modules by have characters and lie inside of it, and
what it exports stands behind the words that say so.

Most forms are plain: a branch of such a form stands in a row where its parts do.
-/
import ModuleBundler.Script.ModuleItem

namespace ModuleBundler.Script

/-! ## Ranges -/

/-- Ranges that follow one another between two positions. -/
structure Placed (low high : Nat) (spans : List Span) : Prop where
  within : ∀ span ∈ spans, low ≤ span.start ∧ span.start ≤ span.stop ∧ span.stop ≤ high
  apart : spans.Pairwise fun span later => span.stop ≤ later.start

namespace Placed

variable {low middle high : Nat} {span : Span} {spans others : List Span}

theorem nil : Placed low high [] :=
  ⟨by simp, .nil⟩

theorem singleton (lower : low ≤ span.start) (ordered : span.start ≤ span.stop)
    (upper : span.stop ≤ high) : Placed low high [span] :=
  ⟨by simp [lower, ordered, upper], List.pairwise_singleton _ _⟩

theorem mono {lower higher : Nat} (h : Placed low high spans) (le : lower ≤ low)
    (le' : high ≤ higher) : Placed lower higher spans := by
  refine ⟨fun span mem => ?_, h.apart⟩
  obtain ⟨first, ordered, last⟩ := h.within span mem
  exact ⟨Nat.le_trans le first, ordered, Nat.le_trans last le'⟩

/-- Ranges stay in a row where others are left out. -/
theorem sublist (h : Placed low high spans) (sub : others.Sublist spans) :
    Placed low high others :=
  ⟨fun span mem => h.within span (sub.mem mem), h.apart.sublist sub⟩

/-- Ranges up to a position, and others behind it. -/
theorem append (h : Placed low middle spans) (le : middle ≤ high) (h' : Placed low high others)
    (behind : Placed middle high others) : Placed low high (spans ++ others) := by
  refine ⟨fun span mem => ?_, List.pairwise_append.mpr ⟨h.apart, behind.apart, ?_⟩⟩
  · rcases List.mem_append.mp mem with mem | mem
    · exact (h.mono (Nat.le_refl low) le).within span mem
    · exact h'.within span mem
  · intro span mem later mem'
    exact Nat.le_trans (h.within span mem).2.2 (behind.within later mem').1

/-- A row can be parted anywhere. -/
theorem part (h : Placed low high (spans ++ others)) :
    ∃ middle ≤ high, Placed low middle spans ∧ Placed middle high others := by
  obtain ⟨apart, apart', between⟩ := List.pairwise_append.mp h.apart
  cases others with
  | nil => exact ⟨high, Nat.le_refl high, h.sublist (List.sublist_append_left _ _), nil⟩
  | cons first others =>
    have inside := h.within first (by simp)
    refine ⟨first.start, Nat.le_trans inside.2.1 inside.2.2, ⟨fun span mem => ?_, apart⟩,
      ⟨fun span mem => ?_, apart'⟩⟩
    · have bounds := h.within span (List.mem_append_left _ mem)
      exact ⟨bounds.1, bounds.2.1, between span mem first List.mem_cons_self⟩
    · have bounds := h.within span (List.mem_append_right _ mem)
      refine ⟨?_, bounds.2⟩
      rcases List.mem_cons.mp mem with rfl | mem
      · exact Nat.le_refl _
      · exact Nat.le_trans inside.2.1 (List.rel_of_pairwise_cons apart' mem)

end Placed

/-! ## Words of a text -/

/-- A word begins at a position of a text, and behind blanks and comments the next lexeme begins at
another one. -/
def WordAt (text : List Char) (word : String) (position next : Nat) : Prop :=
  ∃ newline escaped stop,
    (Scan.token (text.drop position) position newline).lexeme.token = .word word escaped ∧
    (Scan.token (text.drop position) position newline).lexeme.span = ⟨position, stop⟩ ∧
    (Scan.lexeme (text.drop stop) stop false).lexeme.span.start = next

/-- Words stand one behind the other from a position on, and the next lexeme begins at another
one. -/
def WordsAt (text : List Char) : List String → (position next : Nat) → Prop
  | [], position, next => position = next
  | word :: words, position, next =>
    ∃ between, WordAt text word position between ∧ WordsAt text words between next

/-- A mark begins at a position of a text. -/
def MarkAt (text : List Char) (mark : Mark) (position : Nat) : Prop :=
  ∃ newline, (Scan.token (text.drop position) position newline).lexeme.token = .mark mark

/-- The words that export what stands behind them. -/
def Form.exportWords? : Form → Option (List String)
  | .exportDeclaration => some ["export"]
  | .exportDefault _ => some ["export", "default"]
  | _ => none

/-- Whether a construct is the declaration of a class. -/
def Node.declaresClass : Node → Bool
  | .branch _ .classDeclaration _ => true
  | _ => false

/-- A construct begins at a position behind words that export it.  Nothing stands before it, but for
decorators of a default export that is no class. -/
def Node.Follows (text : List Char) (words : List String) (position : Nat) (value : Node) : Prop :=
  value.span.start = position ∨
    "default" ∈ words ∧ MarkAt text .at position ∧ value.declaresClass = false

/-- Words stand from a position on, and a construct follows them. -/
def Introduced (text : List Char) (words : List String) (start : Nat) (value : Node) : Prop :=
  ∃ next, WordsAt text words start next ∧ value.Follows text words next

/-! ## Proper items -/

/-- A name that consists of the letters of names. -/
def IsWord (name : String) : Prop :=
  ∀ c ∈ name.toList, isNamePart c = true

/-- A word stands on one line. -/
theorem IsWord.newline_not_mem {name : String} (h : IsWord name) : '\n' ∉ name.toList :=
  fun mem => absurd (h _ mem) (by decide)

/-- The name that an import binds in its script. -/
def ImportBinding.locally : ImportBinding → String
  | .default name => name
  | .namespace name => name
  | .named _ name => name

/-- A literal that has characters and lies in a range. -/
structure Source.Inside (source : Source) (span : Span) : Prop where
  start_le : span.start ≤ source.literal.start
  nonempty : source.literal.start < source.literal.stop
  stop_le : source.literal.stop ≤ span.stop

theorem Source.Inside.nonempty_span {source : Source} {span : Span} (h : source.Inside span) :
    span.start < span.stop :=
  Nat.lt_of_le_of_lt h.start_le (Nat.lt_of_lt_of_le h.nonempty h.stop_le)

namespace ModuleItem

/-- The range that an item takes in the text and that a conversion replaces.  A call of `require`
stays as it is. -/
def place? : ModuleItem → Option Span
  | .importDeclaration span _ _ => some span
  | .exportList span _ _ => some span
  | .exportAll span _ _ => some span
  | .exportDeclaration span start _ => some ⟨span.start, start⟩
  | .exportDefault span _ start _ => some ⟨span.start, start⟩
  | .dynamicImport span _ => some span
  | .requireCall _ => none

/-- The ranges of the names that an item exports; a default export has the word `default` for one. -/
def exportedSpans : ModuleItem → List Span
  | .exportList _ entries _ => entries.map (·.exportedSpan)
  | .exportAll _ name _ => name.toList.map (·.2)
  | .exportDeclaration _ _ names => names.map (·.2)
  | .exportDefault _ keyword _ _ => [keyword]
  | _ => []

/-- The range of the construct that an item is, if it exports something. -/
def exportSpan? : ModuleItem → Option Span
  | .exportList span _ _ => some span
  | .exportAll span _ _ => some span
  | .exportDeclaration span _ _ => some span
  | .exportDefault span _ _ _ => some span
  | _ => none

/-- An item whose literal lies inside of it, and whose variables are words. -/
def Proper : ModuleItem → Prop
  | .importDeclaration span bindings source =>
    source.Inside span ∧ ∀ binding ∈ bindings, IsWord binding.locally
  | .exportList span _ (some source) => source.Inside span
  | .exportList _ entries none => ∀ entry ∈ entries, IsWord entry.value
  | .exportAll span _ source => source.Inside span
  | .exportDeclaration _ _ names => ∀ name ∈ names, IsWord name.1
  | .exportDefault _ _ _ name => ∀ text ∈ name, IsWord text
  | .dynamicImport span source => source.Inside span
  | .requireCall source => source.literal.start < source.literal.stop

end ModuleItem

/-! ## The fringe -/

/-- Whether a leaf has a range that matters: names and strings do. -/
def Leaf.isListed : Leaf → Bool
  | .name _ | .binding _ | .key _ | .string _ => true
  | .atom _ | .hole => false

/-- Whether no branch of a form takes a range of its own: the declarations of modules and imports
at run time do. -/
def Form.isPlain : Form → Bool
  | .importDeclaration _ _ | .exportList _ _ | .exportAll _ _ => false
  | .exportDeclaration | .exportDefault _ => false
  | .dynamicImport => false
  | _ => true

namespace Node

mutual

/-- The ranges of a construct that matter to a conversion, in the order of the tree: those that its
items take, and the names and string literals beside them. -/
def fringe : Node → List Span
  | .leaf span own => if own.isListed then [span] else []
  | .branch span form parts =>
    match itemOf? span form parts with
    | some (item, true) => item.place?.toList
    | some (item, false) => item.place?.toList ++ fringeOfAll parts
    | none => fringeOfAll parts

/-- The same for a list of constructs. -/
def fringeOfAll : List Node → List Span
  | [] => []
  | node :: nodes => fringe node ++ fringeOfAll nodes

end

theorem fringeOfAll_append (nodes others : List Node) :
    fringeOfAll (nodes ++ others) = fringeOfAll nodes ++ fringeOfAll others := by
  induction nodes with
  | nil => rfl
  | cons node nodes ih => rw [List.cons_append, fringeOfAll, fringeOfAll, ih, List.append_assoc]

theorem fringeOfAll_singleton (node : Node) : fringeOfAll [node] = fringe node :=
  List.append_nil _

theorem fringeOfAll_sublist {nodes others : List Node} (sub : others.Sublist nodes) :
    (fringeOfAll others).Sublist (fringeOfAll nodes) := by
  induction sub with
  | slnil => exact .slnil
  | cons node _ ih => exact ih.trans (List.sublist_append_right _ _)
  | cons_cons node _ ih => exact (List.append_sublist_append_left _).mpr ih

end Node

/-! ## Proper constructs -/

/-- A leaf that is a word if it is a name, and that has characters if it is a string. -/
def Leaf.Proper (span : Span) : Leaf → Prop
  | .name text => IsWord text
  | .binding text => IsWord text
  | .string _ => span.start < span.stop
  | _ => True

namespace Node

/-- An item that a branch of some range is, with its parts.  It takes a range that has characters,
the names that it exports stand in order inside of the branch, and if it takes all of the branch,
nothing in the parts reaches out of it. -/
structure Carries (span : Span) (parts : List Node) (item : ModuleItem) (closed : Bool) :
    Prop where
  own : item.Proper
  taken : ∀ place ∈ item.place?, place.start < place.stop
  exported : Placed span.start span.stop item.exportedSpans
  hidden : closed = true → Placed span.start span.stop (fringeOfAll parts)

/-- A construct of a text all of whose leaves and items are proper.  What it exports stands behind
the words that say so. -/
inductive Proper (text : List Char) : Node → Prop
  | leaf {span : Span} {leaf : Leaf} (own : leaf.Proper span) : Proper text (.leaf span leaf)
  | branch {span : Span} {form : Form} {parts : List Node}
    (carried : ∀ found ∈ itemOf? span form parts, Carries span parts found.1 found.2)
    (words : ∀ words ∈ form.exportWords?, ∀ value, parts = [value] →
      Introduced text words span.start value)
    (all : ∀ part ∈ parts, part.Proper text) : Proper text (.branch span form parts)

section

variable {text : List Char}

theorem Proper.of_leaf {span : Span} {leaf : Leaf} (h : (Node.leaf span leaf).Proper text) :
    leaf.Proper span := by
  cases h
  assumption

theorem Proper.parts {span : Span} {form : Form} {parts : List Node}
    (h : (Node.branch span form parts).Proper text) : ∀ part ∈ parts, part.Proper text := by
  cases h
  assumption

theorem Proper.carried {span : Span} {form : Form} {parts : List Node}
    (h : (Node.branch span form parts).Proper text) :
    ∀ found ∈ itemOf? span form parts, Carries span parts found.1 found.2 := by
  cases h
  assumption

theorem Proper.words {span : Span} {form : Form} {parts : List Node}
    (h : (Node.branch span form parts).Proper text) :
    ∀ words ∈ form.exportWords?, ∀ value, parts = [value] →
      Introduced text words span.start value := by
  cases h
  assumption

/-- A name that stands directly in a list of proper constructs is a word. -/
theorem Proper.ownBinding {nodes : List Node} (h : ∀ node ∈ nodes, node.Proper text) :
    ∀ found ∈ Node.ownBinding nodes, IsWord found.1 := by
  intro found mem
  induction nodes with
  | nil => cases mem
  | cons node nodes ih =>
    unfold Node.ownBinding at mem
    split at mem
    · cases mem
    · rename_i equal
      rw [List.mem_singleton] at mem
      subst mem
      rw [(List.cons.inj equal).1] at h
      exact (h _ List.mem_cons_self).of_leaf
    · rename_i equal
      rw [← (List.cons.inj equal).2] at mem
      exact ih (fun other listed => h other (List.mem_cons_of_mem _ listed)) mem

mutual

/-- What a proper construct binds are words. -/
theorem Proper.bindings : ∀ {node : Node}, node.Proper text → ∀ found ∈ node.bindings, IsWord found.1
  | .leaf span kind, h, found, mem => by
    cases kind with
    | binding text =>
      rw [Node.bindings, List.mem_singleton] at mem
      subst mem
      exact h.of_leaf
    | _ => simp [Node.bindings] at mem
  | .branch span form parts, h, found, mem => by
    unfold Node.bindings at mem
    split at mem
    · exact bindingsOfLast h.parts found mem
    · exact bindingsOfFirst h.parts found mem
    · exact bindingsOfFirst h.parts found mem
    · exact ownBinding h.parts found mem
    · exact ownBinding h.parts found mem
    · exact bindingsOfAll h.parts found mem
    · exact bindingsOfAll h.parts found mem
    · exact bindingsOfAll h.parts found mem
    · exact bindingsOfAll h.parts found mem
    · exact bindingsOfAll h.parts found mem
    · simp at mem

theorem Proper.bindingsOfAll : ∀ {nodes : List Node}, (∀ node ∈ nodes, node.Proper text) →
    ∀ found ∈ Node.bindingsOfAll nodes, IsWord found.1
  | [], _, found, mem => by simp [Node.bindingsOfAll] at mem
  | node :: nodes, h, found, mem => by
    rw [Node.bindingsOfAll] at mem
    rcases List.mem_append.mp mem with mem | mem
    · exact bindings (h node List.mem_cons_self) found mem
    · exact bindingsOfAll (fun node mem => h node (List.mem_cons_of_mem _ mem)) found mem

theorem Proper.bindingsOfFirst : ∀ {nodes : List Node}, (∀ node ∈ nodes, node.Proper text) →
    ∀ found ∈ Node.bindingsOfFirst nodes, IsWord found.1
  | [], _, found, mem => by simp [Node.bindingsOfFirst] at mem
  | node :: _, h, found, mem => by
    rw [Node.bindingsOfFirst] at mem
    exact bindings (h node List.mem_cons_self) found mem

theorem Proper.bindingsOfLast : ∀ {nodes : List Node}, (∀ node ∈ nodes, node.Proper text) →
    ∀ found ∈ Node.bindingsOfLast nodes, IsWord found.1
  | [], _, found, mem => by simp [Node.bindingsOfLast] at mem
  | [node], h, found, mem => by
    rw [Node.bindingsOfLast] at mem
    exact bindings (h node List.mem_cons_self) found mem
  | _ :: node :: nodes, h, found, mem => by
    rw [Node.bindingsOfLast] at mem
    · exact bindingsOfLast (fun node mem => h node (List.mem_cons_of_mem _ mem)) found mem
    · simp

end

/-- The name that a proper construct declares is a word. -/
theorem Proper.declaredName? {node : Node} (h : node.Proper text) :
    ∀ text ∈ node.declaredName?, IsWord text := by
  have first {parts : List Node} (all : ∀ part ∈ parts, part.Proper text) :
      ∀ text ∈ (Node.ownBinding parts).head?.map (·.1), IsWord text := by
    intro text mem
    obtain ⟨found, listed, rfl⟩ := Option.map_eq_some_iff.mp mem
    exact ownBinding all found (List.mem_of_mem_head? listed)
  unfold Node.declaredName?
  split
  · exact first h.parts
  · exact first h.parts
  · intro text mem
    cases mem

end

/-- The only items of a plain form are calls of `require`. -/
theorem itemOf?_of_isPlain {span : Span} {form : Form} {parts : List Node}
    (plain : form.isPlain = true) {found : ModuleItem × Bool}
    (h : itemOf? span form parts = some found) :
    ∃ own literal specifier, found = (.requireCall ⟨literal, specifier⟩, false) ∧
      parts = [.leaf own (.name "require"), .leaf literal (.string specifier)] := by
  unfold itemOf? at h
  split at h
  all_goals first
    | exact absurd plain Bool.false_ne_true
    | exact ⟨_, _, _, (Option.some.inj h).symm, rfl⟩
    | cases h

theorem fringe_of_isPlain {span : Span} {form : Form} {parts : List Node}
    (plain : form.isPlain = true) : fringe (.branch span form parts) = fringeOfAll parts := by
  rw [fringe]
  cases h : itemOf? span form parts with
  | none => rfl
  | some found =>
    obtain ⟨own, literal, specifier, rfl, -⟩ := itemOf?_of_isPlain plain h
    rfl

theorem exportWords?_of_isPlain {form : Form} (plain : form.isPlain = true) :
    form.exportWords? = none := by
  cases form with
  | exportDeclaration => cases plain
  | exportDefault keyword => cases plain
  | _ => rfl

theorem proper_of_isPlain {text : List Char} {span : Span} {form : Form} {parts : List Node}
    (plain : form.isPlain = true) (all : ∀ part ∈ parts, part.Proper text) :
    (Node.branch span form parts).Proper text := by
  refine .branch (fun found h => ?_) (fun words is => ?_) all
  · obtain ⟨own, literal, specifier, rfl, rfl⟩ := itemOf?_of_isPlain plain h
    exact ⟨(all (.leaf literal (.string specifier)) (by simp)).of_leaf, nofun, .nil, nofun⟩
  · rw [exportWords?_of_isPlain plain] at is
    cases is

/-! ## What is bound -/

theorem ownBinding_sublist (nodes : List Node) :
    ((ownBinding nodes).map (·.2)).Sublist (fringeOfAll nodes) := by
  induction nodes with
  | nil => exact .slnil
  | cons node nodes ih =>
    unfold ownBinding
    split
    · rename_i equal
      cases equal
    · rename_i equal
      cases equal
      exact .cons_cons _ (List.nil_sublist _)
    · rename_i equal
      cases equal
      exact ih.trans (List.sublist_append_right _ _)

mutual

/-- What a construct binds is in its fringe, in the same order. -/
theorem bindings_sublist : ∀ node : Node, (node.bindings.map (·.2)).Sublist node.fringe
  | .leaf span own => by
    cases own with
    | binding name => exact .refl _
    | _ => exact List.nil_sublist _
  | .branch span form parts => by
    have fringe (plain : form.isPlain = true) {bound : List (String × Span)}
        (sub : (bound.map (·.2)).Sublist (fringeOfAll parts)) :
        (bound.map (·.2)).Sublist (Node.branch span form parts).fringe := by
      rw [fringe_of_isPlain plain]
      exact sub
    unfold bindings
    split
    · exact fringe rfl (bindingsOfLast_sublist parts)
    · exact fringe rfl (bindingsOfFirst_sublist parts)
    · exact fringe rfl (bindingsOfFirst_sublist parts)
    · exact fringe rfl (ownBinding_sublist parts)
    · exact fringe rfl (ownBinding_sublist parts)
    · exact fringe rfl (bindingsOfAll_sublist parts)
    · exact fringe rfl (bindingsOfAll_sublist parts)
    · exact fringe rfl (bindingsOfAll_sublist parts)
    · exact fringe rfl (bindingsOfAll_sublist parts)
    · exact fringe rfl (bindingsOfAll_sublist parts)
    · exact List.nil_sublist _

theorem bindingsOfAll_sublist : ∀ nodes : List Node,
    ((bindingsOfAll nodes).map (·.2)).Sublist (fringeOfAll nodes)
  | [] => .refl _
  | node :: nodes => by
    rw [bindingsOfAll, fringeOfAll, List.map_append]
    exact (bindings_sublist node).append (bindingsOfAll_sublist nodes)

theorem bindingsOfFirst_sublist : ∀ nodes : List Node,
    ((bindingsOfFirst nodes).map (·.2)).Sublist (fringeOfAll nodes)
  | [] => .refl _
  | node :: _ => (bindings_sublist node).trans (List.sublist_append_left _ _)

theorem bindingsOfLast_sublist : ∀ nodes : List Node,
    ((bindingsOfLast nodes).map (·.2)).Sublist (fringeOfAll nodes)
  | [] => .refl _
  | [node] => (bindings_sublist node).trans (List.sublist_append_left _ _)
  | _ :: node :: nodes =>
    (bindingsOfLast_sublist (node :: nodes)).trans (List.sublist_append_right _ _)

end

end Node

/-! ## Rows -/

/-- Proper constructs that stand in order between two positions of a text. -/
structure Row (text : List Char) (low high : Nat) (nodes : List Node) : Prop where
  placed : Placed low high (Node.fringeOfAll nodes)
  proper : ∀ node ∈ nodes, node.Proper text

namespace Row

variable {text : List Char} {low middle high : Nat} {nodes others : List Node}

theorem nil : Row text low high [] :=
  ⟨.nil, by simp⟩

theorem mono {lower higher : Nat} (h : Row text low high nodes) (le : lower ≤ low)
    (le' : high ≤ higher) : Row text lower higher nodes :=
  ⟨h.placed.mono le le', h.proper⟩

/-- Constructs stay in a row where others are left out. -/
theorem sublist (h : Row text low high nodes) (sub : others.Sublist nodes) :
    Row text low high others :=
  ⟨h.placed.sublist (Node.fringeOfAll_sublist sub), fun node mem => h.proper node (sub.mem mem)⟩

/-- Constructs up to a position, and others behind it. -/
theorem append (h : Row text low middle nodes) (le : middle ≤ high)
    (h' : Row text low high others) (behind : Row text middle high others) :
    Row text low high (nodes ++ others) := by
  refine ⟨?_, fun node mem => ?_⟩
  · rw [Node.fringeOfAll_append]
    exact h.placed.append le h'.placed behind.placed
  · rcases List.mem_append.mp mem with mem | mem
    · exact h.proper node mem
    · exact behind.proper node mem

/-- A row can be parted anywhere. -/
theorem part (h : Row text low high (nodes ++ others)) :
    ∃ middle ≤ high, Row text low middle nodes ∧ Row text middle high others := by
  have placed := h.placed
  rw [Node.fringeOfAll_append] at placed
  obtain ⟨middle, le, first, second⟩ := placed.part
  exact ⟨middle, le, ⟨first, fun node mem => h.proper node (List.mem_append_left _ mem)⟩,
    ⟨second, fun node mem => h.proper node (List.mem_append_right _ mem)⟩⟩

theorem part_cons {node : Node} (h : Row text low high (node :: nodes)) :
    ∃ middle ≤ high, Row text low middle [node] ∧ Row text middle high nodes := by
  rw [← List.singleton_append] at h
  exact h.part

/-- A leaf stands where its range lies. -/
theorem leaf {span : Span} {kind : Leaf} (proper : kind.Proper span) (lower : low ≤ span.start)
    (ordered : span.start ≤ span.stop) (upper : span.stop ≤ high) :
    Row text low high [.leaf span kind] := by
  refine ⟨?_, by simpa using .leaf proper⟩
  rw [Node.fringeOfAll_singleton, Node.fringe]
  split
  · exact .singleton lower ordered upper
  · exact .nil

/-- A leaf whose range does not matter stands anywhere. -/
theorem unlistedLeaf {span : Span} {kind : Leaf} (proper : kind.Proper span)
    (unlisted : kind.isListed = false) : Row text low high [.leaf span kind] := by
  refine ⟨?_, by simpa using .leaf proper⟩
  rw [Node.fringeOfAll_singleton, Node.fringe, unlisted]
  exact .nil

/-- A plain branch stands where its parts do. -/
theorem branch {span : Span} {form : Form} {parts : List Node} (plain : form.isPlain = true) :
    Row text low high [.branch span form parts] ↔ Row text low high parts := by
  constructor
  · intro h
    have placed := h.placed
    rw [Node.fringeOfAll_singleton, Node.fringe_of_isPlain plain] at placed
    exact ⟨placed, (h.proper _ List.mem_cons_self).parts⟩
  · intro h
    refine ⟨?_, by simpa using Node.proper_of_isPlain plain h.proper⟩
    rw [Node.fringeOfAll_singleton, Node.fringe_of_isPlain plain]
    exact h.placed

/-- A literal that stands in a row lies inside of its range. -/
theorem inside {literal : Span} {specifier : String}
    (h : Row text low high [.leaf literal (.string specifier)]) :
    Source.Inside ⟨literal, specifier⟩ ⟨low, high⟩ := by
  obtain ⟨lower, -, upper⟩ := h.placed.within literal List.mem_cons_self
  exact ⟨lower, (h.proper _ List.mem_cons_self).of_leaf, upper⟩

/-- The ranges of keys in a row follow one another there. -/
theorem placed_keys {α : Type} {span : α → Span} {name : α → String} {items : List α}
    (h : Row text low high (items.map fun a => .leaf (span a) (.key (name a)))) :
    Placed low high (items.map span) := by
  have same : Node.fringeOfAll (items.map fun a => .leaf (span a) (.key (name a))) =
      items.map span := by
    clear h
    induction items with
    | nil => rfl
    | cons a items ih =>
      rw [List.map_cons, Node.fringeOfAll, ih]
      rfl
  exact same ▸ h.placed

/-- An item that takes all of its range stands there. -/
theorem closed {span : Span} {form : Form} {parts : List Node} {item : ModuleItem}
    (found : Node.itemOf? span form parts = some (item, true)) (place : item.place? = some span)
    (proper : item.Proper) (exported : Placed span.start span.stop item.exportedSpans)
    (wordless : form.exportWords? = none) (hidden : Row text span.start span.stop parts)
    (lower : low ≤ span.start) (nonempty : span.start < span.stop) (upper : span.stop ≤ high) :
    Row text low high [.branch span form parts] := by
  refine ⟨?_, ?_⟩
  · rw [Node.fringeOfAll_singleton, Node.fringe, found]
    dsimp only
    rw [place]
    exact .singleton lower (Nat.le_of_lt nonempty) upper
  · rw [List.forall_mem_singleton]
    refine .branch (fun other mem => ?_) (fun words is => ?_) hidden.proper
    · rw [found] at mem
      cases mem
      refine ⟨proper, ?_, exported, fun _ => hidden.placed⟩
      rw [place]
      rintro _ ⟨⟩
      exact nonempty
    · rw [wordless] at is
      cases is

/-- An exported construct stands behind the words that export it, whose range it ends. -/
theorem opened {start stop : Nat} {form : Form} {value : Node} {item : ModuleItem}
    (found : Node.itemOf? ⟨start, stop⟩ form [value] = some (item, false))
    (place : item.place? = some ⟨start, value.span.start⟩) (proper : item.Proper)
    (exported : Placed start stop item.exportedSpans)
    (words : ∀ words ∈ form.exportWords?, Introduced text words start value)
    (h : Row text value.span.start stop [value]) (lt : start < value.span.start)
    (le : value.span.start ≤ stop) : Row text start stop [.branch ⟨start, stop⟩ form [value]] := by
  refine ⟨?_, ?_⟩
  · rw [Node.fringeOfAll_singleton, Node.fringe, found]
    dsimp only
    rw [place]
    have words : Placed start value.span.start [⟨start, value.span.start⟩] :=
      .singleton (Nat.le_refl _) (Nat.le_of_lt lt) (Nat.le_refl _)
    exact words.append le (h.placed.mono (Nat.le_of_lt lt) (Nat.le_refl _)) h.placed
  · rw [List.forall_mem_singleton]
    refine .branch (fun other mem => ?_) (fun own is other same => ?_) h.proper
    · rw [found] at mem
      cases mem
      refine ⟨proper, ?_, exported, nofun⟩
      rw [place]
      rintro _ ⟨⟩
      exact lt
    · cases same
      exact words own is

/-- A branch that is no item and exports nothing stands where its parts do. -/
theorem unlisted {span : Span} {form : Form} {parts : List Node}
    (none : Node.itemOf? span form parts = none) (wordless : form.exportWords? = .none)
    (h : Row text low high parts) : Row text low high [.branch span form parts] := by
  refine ⟨?_, ?_⟩
  · rw [Node.fringeOfAll_singleton, Node.fringe, none]
    exact h.placed
  · rw [List.forall_mem_singleton]
    refine .branch (fun other mem => ?_) (fun words is => ?_) h.proper
    · rw [none] at mem
      cases mem
    · rw [wordless] at is
      cases is

/-- An import at run time takes its range if it names its module, and stands where its arguments do
otherwise. -/
theorem dynamicImport {start anchor stop : Nat} {parts : List Node}
    (h : Row text anchor stop parts) (le : start ≤ anchor) :
    Row text start stop [.branch ⟨start, stop⟩ .dynamicImport parts] := by
  cases found : Node.itemOf? ⟨start, stop⟩ .dynamicImport parts with
  | none => exact unlisted found rfl (h.mono le (Nat.le_refl _))
  | some pair =>
    unfold Node.itemOf? at found
    split at found <;> try contradiction
    have all := h.mono le (Nat.le_refl _)
    have inside := (all.sublist (List.singleton_sublist.mpr List.mem_cons_self)).inside
    exact closed rfl rfl inside .nil rfl all (Nat.le_refl _) inside.nonempty_span (Nat.le_refl _)

end Row

/-- A construct that stands inside of its range in a text. -/
def Node.Contained (text : List Char) (node : Node) : Prop :=
  Row text node.span.start node.span.stop [node]

/-! ## Replacements -/

/-- Constructs that may take the place of others: they stand in a row wherever these do. -/
def Replaces (others nodes : List Node) : Prop :=
  ∀ ⦃text low high⦄, Row text low high nodes → Row text low high others

namespace Replaces

theorem refl (nodes : List Node) : Replaces nodes nodes :=
  fun _ _ _ row => row

theorem trans {nodes between others : List Node} (h : Replaces others between)
    (h' : Replaces between nodes) : Replaces others nodes :=
  fun _ _ _ row => h (h' row)

theorem of_sublist {nodes others : List Node} (sub : others.Sublist nodes) :
    Replaces others nodes :=
  fun _ _ _ row => row.sublist sub

/-- A leaf whose range does not matter may stand anywhere. -/
theorem leaf {nodes : List Node} {span : Span} {kind : Leaf} (proper : kind.Proper span)
    (unlisted : kind.isListed = false) : Replaces [.leaf span kind] nodes :=
  fun _ _ _ _ => .unlistedLeaf proper unlisted

/-- A name or a string may be taken for another one of the same range. -/
theorem renamed {span : Span} {kind other : Leaf} (listed : kind.isListed = true)
    (proper : kind.Proper span → other.Proper span) :
    Replaces [.leaf span other] [.leaf span kind] := by
  intro text low high row
  have placed := row.placed
  rw [Node.fringeOfAll_singleton, Node.fringe, if_pos listed] at placed
  obtain ⟨lower, ordered, upper⟩ := placed.within span List.mem_cons_self
  exact .leaf (proper (row.proper _ List.mem_cons_self).of_leaf) lower ordered upper

/-- A name that is used may be declared instead. -/
theorem binding {span : Span} {text : String} :
    Replaces [.leaf span (.binding text)] [.leaf span (.name text)] :=
  renamed rfl fun isWord => isWord

/-- What is replaced one by one is replaced as a whole. -/
theorem cons {node other : Node} {nodes others : List Node} (h : Replaces [other] [node])
    (h' : Replaces others nodes) : Replaces (other :: others) (node :: nodes) := by
  intro text low high row
  obtain ⟨middle, le, first, second⟩ := row.part_cons
  exact (h first).append le (h' (row.sublist (List.sublist_cons_self _ _))) (h' second)

/-- A plain branch may be taken for its parts. -/
theorem parts {span : Span} {form : Form} {parts : List Node} (plain : form.isPlain = true) :
    Replaces parts [.branch span form parts] :=
  fun _ _ _ row => (Row.branch plain).mp row

/-- Constructs may be put into a plain branch. -/
theorem branch {span : Span} {form : Form} {nodes others : List Node}
    (plain : form.isPlain = true) (h : Replaces others nodes) :
    Replaces [.branch span form others] nodes :=
  fun _ _ _ row => (Row.branch plain).mpr (h row)

end Replaces

end ModuleBundler.Script

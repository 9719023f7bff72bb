/-
# ModuleBundler.Proofs.Conversion.Splicing — a conversion range by range.

`Program.Takes` says without regard to any edit which ranges of a script a conversion may replace:
the line that names an interpreter, and, however deep they stand, the declarations of modules, the
words that export a declaration or a value, and the imports at run time of a literal.  Where the
statements of a script follow one another, two of these ranges overlap only if one of them lies in
the other, and the edits that are made replace exactly the outermost ones (`Covers.outermost_iff`).
What a conversion writes are then the pieces of the text between these ranges, each once and in
their order, and the replacements between them (`convert_splices`).
-/
import ModuleBundler.Proofs.Conversion.Statementwise

namespace ModuleBundler

namespace Script

/-! ## Ranges in ranges -/

/-- A range that lies in another one. -/
structure Span.In (inner outer : Span) : Prop where
  start_le : outer.start ≤ inner.start
  stop_le : inner.stop ≤ outer.stop

/-- Ranges that overlap only if one of them lies in the other. -/
def Span.Nested (span other : Span) : Prop :=
  span.In other ∨ other.In span ∨ span.stop ≤ other.start ∨ other.stop ≤ span.start

namespace Span

variable {span other outer outer' : Span}

theorem In.refl (span : Span) : span.In span :=
  ⟨Nat.le_refl _, Nat.le_refl _⟩

theorem In.trans (h : span.In other) (h' : other.In outer) : span.In outer :=
  ⟨Nat.le_trans h'.start_le h.start_le, Nat.le_trans h.stop_le h'.stop_le⟩

theorem In.antisymm (h : span.In other) (h' : other.In span) : span = other := by
  cases span
  cases other
  exact Span.mk.injEq .. ▸ ⟨Nat.le_antisymm h'.start_le h.start_le,
    Nat.le_antisymm h.stop_le h'.stop_le⟩

theorem Nested.symm (h : span.Nested other) : other.Nested span := by
  rcases h with h | h | h | h
  · exact .inr (.inl h)
  · exact .inl h
  · exact .inr (.inr (.inr h))
  · exact .inr (.inr (.inl h))

/-- What lies in ranges of which one ends before the other begins does not overlap. -/
theorem Nested.of_apart (h : span.In outer) (h' : other.In outer')
    (le : outer.stop ≤ outer'.start) : span.Nested other :=
  .inr (.inr (.inl (Nat.le_trans h.stop_le (Nat.le_trans le h'.start_le))))

end Span

/-- A range that is one of some ranges and lies in no other of them. -/
structure Outermost (takes : Span → Prop) (range : Span) : Prop where
  taken : takes range
  outer : ∀ other, takes other → range.In other → other = range

/-- Ranges that follow one another, and cover all ranges of a kind to which they belong.  The ranges
of this kind have characters and overlap only if one lies in the other. -/
structure Covers (takes : Span → Prop) (places : List Span) : Prop where
  apart : places.Pairwise fun place later => place.stop ≤ later.start
  taken : ∀ place ∈ places, takes place
  covered : ∀ range, takes range → ∃ place ∈ places, range.In place
  nonempty : ∀ range, takes range → range.start < range.stop
  nested : ∀ range other, takes range → takes other → range.Nested other

namespace Covers

variable {takes takes' : Span → Prop} {places places' : List Span} {range : Span}

theorem none (h : ∀ range, ¬ takes range) : Covers takes [] :=
  ⟨.nil, by simp, fun _ taken => absurd taken (h _), fun _ taken => absurd taken (h _),
    fun _ _ taken => absurd taken (h _)⟩

theorem congr (h : Covers takes places) (h' : ∀ range, takes' range ↔ takes range) :
    Covers takes' places where
  apart := h.apart
  taken place mem := (h' place).mpr (h.taken place mem)
  covered range taken := h.covered range ((h' range).mp taken)
  nonempty range taken := h.nonempty range ((h' range).mp taken)
  nested range other taken taken' :=
    h.nested range other ((h' range).mp taken) ((h' other).mp taken')

/-- Ranges before others. -/
theorem append (h : Covers takes places) (h' : Covers takes' places')
    (between : ∀ place ∈ places, ∀ later ∈ places', place.stop ≤ later.start) :
    Covers (fun range => takes range ∨ takes' range) (places ++ places') where
  apart := List.pairwise_append.mpr ⟨h.apart, h'.apart, between⟩
  taken place mem := (List.mem_append.mp mem).imp (h.taken place) (h'.taken place)
  covered range taken := by
    rcases taken with taken | taken
    · obtain ⟨place, mem, inside⟩ := h.covered range taken
      exact ⟨place, List.mem_append_left _ mem, inside⟩
    · obtain ⟨place, mem, inside⟩ := h'.covered range taken
      exact ⟨place, List.mem_append_right _ mem, inside⟩
  nonempty range taken := taken.elim (h.nonempty range) (h'.nonempty range)
  nested range other taken taken' := by
    -- ranges of the two kinds lie in places of which one ends before the other begins
    have across {range other : Span} (taken : takes range) (taken' : takes' other) :
        range.Nested other := by
      obtain ⟨place, mem, inside⟩ := h.covered range taken
      obtain ⟨later, mem', inside'⟩ := h'.covered other taken'
      exact .of_apart inside inside' (between place mem later mem')
    rcases taken with taken | taken <;> rcases taken' with taken' | taken'
    · exact h.nested range other taken taken'
    · exact across taken taken'
    · exact (across taken' taken).symm
    · exact h'.nested range other taken taken'

/-- A range around others covers these, too. -/
theorem around {outer : Span} (h : Covers takes places) (nonempty : outer.start < outer.stop)
    (within : ∀ place ∈ places, place.In outer) :
    Covers (fun range => range = outer ∨ takes range) [outer] := by
  have inside (range : Span) (taken : range = outer ∨ takes range) : range.In outer := by
    rcases taken with rfl | taken
    · exact .refl _
    · obtain ⟨place, mem, inside⟩ := h.covered range taken
      exact inside.trans (within place mem)
  refine ⟨List.pairwise_singleton _ _, ?_, fun range taken => ⟨outer, by simp, inside range taken⟩,
    fun range taken => ?_, fun range other taken taken' => ?_⟩
  · intro place mem
    exact .inl (List.mem_singleton.mp mem)
  · rcases taken with rfl | taken
    · exact nonempty
    · exact h.nonempty range taken
  · rcases taken with rfl | taken
    · exact .inr (.inl (inside other taken'))
    · rcases taken' with rfl | taken'
      · exact .inl (inside range (.inr taken))
      · exact h.nested range other taken taken'

theorem singleton (nonempty : range.start < range.stop) : Covers (· = range) [range] :=
  ((none fun _ taken => taken).around nonempty (by simp)).congr fun _ => by simp

/-- Two of the ranges that cover others are one, or do not overlap. -/
theorem eq_or_apart (h : Covers takes places) : ∀ place ∈ places, ∀ later ∈ places,
    place = later ∨ place.stop ≤ later.start ∨ later.stop ≤ place.start :=
  List.Pairwise.forall_of_forall_of_flip (fun _ _ => .inl rfl) (h.apart.imp (.inr ∘ .inl))
    (h.apart.imp (.inr ∘ .inr))

/-- The outermost ranges of a kind are those that cover all others. -/
theorem outermost_iff (h : Covers takes places) : Outermost takes range ↔ range ∈ places := by
  constructor
  · intro outermost
    obtain ⟨place, mem, inside⟩ := h.covered range outermost.taken
    rw [← outermost.outer place (h.taken place mem) inside]
    exact mem
  · intro mem
    refine ⟨h.taken range mem, fun other taken inside => ?_⟩
    obtain ⟨place, mem', inside'⟩ := h.covered other taken
    -- the range that covers the other one has the characters of this range, so it is the same
    have both := inside.trans inside'
    have lt := h.nonempty range (h.taken range mem)
    have lower := both.start_le
    have upper := both.stop_le
    rcases h.eq_or_apart range mem place mem' with rfl | before | behind
    · exact inside'.antisymm inside
    · omega
    · omega

end Covers

/-! ## The ranges that a conversion takes -/

namespace Node

/-- A construct has a range that a conversion may replace: a declaration of a module or an import at
run time of a literal as a whole, or the words before what is exported.  The range may stand in any
part, also in one of an import that is replaced as a whole. -/
inductive Takes : Node → Span → Prop
  | importDeclaration {span : Span} {bindings : List ImportBinding} {source : Source}
    {parts : List Node} : Takes (.branch span (.importDeclaration bindings source) parts) span
  | exportList {span : Span} {entries : List ExportEntry} {source : Option Source}
    {parts : List Node} : Takes (.branch span (.exportList entries source) parts) span
  | exportAll {span : Span} {name : Option (String × Span)} {source : Source}
    {parts : List Node} : Takes (.branch span (.exportAll name source) parts) span
  | exportDeclaration {span : Span} {declaration : Node} :
    Takes (.branch span .exportDeclaration [declaration]) ⟨span.start, declaration.span.start⟩
  | exportDefault {span keyword : Span} {value : Node} :
    Takes (.branch span (.exportDefault keyword) [value]) ⟨span.start, value.span.start⟩
  | dynamicImport {span literal : Span} {specifier : String} {options : List Node} :
    Takes (.branch span .dynamicImport (.leaf literal (.string specifier) :: options)) span
  | part {span range : Span} {form : Form} {parts : List Node} {node : Node} (mem : node ∈ parts)
    (takes : node.Takes range) : Takes (.branch span form parts) range

/-- One of some constructs has a range that a conversion may replace. -/
def TakesAmong (nodes : List Node) (range : Span) : Prop :=
  ∃ node ∈ nodes, node.Takes range

/-- An item takes its place. -/
theorem takes_of_itemOf? {span place : Span} {form : Form} {parts : List Node}
    {found : ModuleItem × Bool} (h : itemOf? span form parts = some found)
    (is : found.1.place? = some place) : (Node.branch span form parts).Takes place := by
  unfold itemOf? at h
  split at h
  · cases h
    cases is
    exact .importDeclaration
  · cases h
    cases is
    exact .exportList
  · cases h
    cases is
    exact .exportAll
  · cases h
    cases is
    exact .exportDeclaration
  · cases h
    cases is
    exact .exportDefault
  · cases h
    cases is
    exact .dynamicImport
  · cases h
    cases is
  · cases h

/-- What a branch takes is the place of the item that it is, or stands in its parts. -/
theorem takes_branch {span range : Span} {form : Form} {parts : List Node} :
    (Node.branch span form parts).Takes range ↔
      (∃ found ∈ itemOf? span form parts, found.1.place? = some range) ∨
        TakesAmong parts range := by
  constructor
  · intro h
    cases h with
    | part mem takes => exact .inr ⟨_, mem, takes⟩
    | _ => exact .inl ⟨_, rfl, rfl⟩
  · rintro (⟨found, is, place⟩ | ⟨node, mem, takes⟩)
    · exact takes_of_itemOf? is place
    · exact .part mem takes

theorem takesAmong_cons {node : Node} {nodes : List Node} {range : Span} :
    TakesAmong (node :: nodes) range ↔ node.Takes range ∨ TakesAmong nodes range := by
  simp [TakesAmong]

end Node

namespace Row

variable {text : List Char} {low high : Nat} {span : Span} {form : Form} {parts nodes : List Node}

/-- An import or export that is replaced as a whole covers what stands in its parts. -/
theorem covers_closed (h : Row text low high [.branch span form parts]) {item : ModuleItem}
    (is : Node.itemOf? span form parts = some (item, true))
    (inner : Covers (Node.TakesAmong parts) (Node.placesOfAll parts)) :
    Covers (Node.branch span form parts).Takes (Node.placesOfAll [.branch span form parts]) := by
  have carried := (h.proper _ List.mem_cons_self).carried _ is
  have place := Node.place_of_itemOf? is
  -- no edit is made for the parts, but what they have lies in the range of the construct
  have hidden := (carried.hidden rfl).sublist (Node.places_sublist_all parts)
  have places : Node.placesOfAll [.branch span form parts] = [span] := by
    simp [Node.placesOfAll, Node.itemsOfAll, Node.items, is, place]
  rw [places]
  refine (inner.around (carried.taken span place) fun inside mem => ?_).congr fun range => ?_
  · obtain ⟨lower, -, upper⟩ := hidden.within inside mem
    exact ⟨lower, upper⟩
  · rw [Node.takes_branch, is]
    simp [place, eq_comm]

/-- The words before what is exported stand before all that stands in it. -/
theorem covers_open (h : Row text low high [.branch span form parts]) {item : ModuleItem}
    (is : Node.itemOf? span form parts = some (item, false))
    (inner : Covers (Node.TakesAmong parts) (Node.placesOfAll parts)) :
    Covers (Node.branch span form parts).Takes (Node.placesOfAll [.branch span form parts]) := by
  have carried := (h.proper _ List.mem_cons_self).carried _ is
  have apart := h.placed_places.apart
  have places : Node.placesOfAll [.branch span form parts] =
      item.place?.toList ++ Node.placesOfAll parts := by
    cases place : item.place? with
    | none => simp [Node.placesOfAll, Node.itemsOfAll, Node.items, is, place]
    | some range => simp [Node.placesOfAll, Node.itemsOfAll, Node.items, is, place]
  rw [places] at apart ⊢
  cases place : item.place? with
  | none =>
    refine inner.congr fun range => ?_
    rw [Node.takes_branch, is]
    simp [place]
  | some words =>
    rw [place] at apart
    have own := Covers.singleton (carried.taken words place)
    refine (own.append inner fun word mem later mem' => ?_).congr fun range => ?_
    · rw [List.mem_singleton.mp mem]
      exact List.rel_of_pairwise_cons apart mem'
    · rw [Node.takes_branch, is]
      simp [place, eq_comm]

mutual

/-- The places of a construct in a row cover all ranges that it has.  The induction is on the tree;
parts that are hidden stand in a row of their own. -/
theorem covers : ∀ {node : Node} {low high : Nat}, Row text low high [node] →
    Covers node.Takes (Node.placesOfAll [node])
  | .leaf _ _, _, _, _ => .none nofun
  | .branch span form parts, low, high, h => by
    rcases is : Node.itemOf? span form parts with _ | ⟨item, _ | _⟩
    · have inner := coversAll (h.parts (Node.not_closed_of_itemOf? is))
      have places : Node.placesOfAll [.branch span form parts] = Node.placesOfAll parts := by
        simp [Node.placesOfAll, Node.itemsOfAll, Node.items, is]
      rw [places]
      refine inner.congr fun range => ?_
      rw [Node.takes_branch, is]
      simp
    · exact h.covers_open is (coversAll (h.parts (Node.closed_of_itemOf? is)))
    · have proper := h.proper _ List.mem_cons_self
      exact h.covers_closed is (coversAll ⟨(proper.carried _ is).hidden rfl, proper.parts⟩)

theorem coversAll : ∀ {nodes : List Node} {low high : Nat}, Row text low high nodes →
    Covers (Node.TakesAmong nodes) (Node.placesOfAll nodes)
  | [], _, _, _ => .none (by simp [Node.TakesAmong])
  | node :: nodes, low, high, h => by
    have apart := h.placed_places.apart
    rw [Node.placesOfAll_cons] at apart ⊢
    obtain ⟨-, -, between⟩ := List.pairwise_append.mp apart
    have first := covers (h.sublist (List.singleton_sublist.mpr List.mem_cons_self))
    have others := coversAll (h.sublist (List.sublist_cons_self _ _))
    exact (first.append others between).congr fun _ => Node.takesAmong_cons

end

end Row

/-- A script has a range that a conversion may replace: the line that names an interpreter, or one
of its statements'. -/
def Program.Takes (program : Program) (range : Span) : Prop :=
  program.hashbang = some range ∨ Node.TakesAmong program.statements range

end Script

namespace Conversion

open Script

section

variable {isTyped : Bool} {text : List Char} {program : Program}
  (read : Program.read isTyped text = .ok program)

include read

theorem covers_hashbang :
    Covers (program.hashbang = some ·) program.hashbang.toList := by
  have first := Program.hashbang_eq read
  cases is : program.hashbang with
  | none => exact .none nofun
  | some span =>
    rw [is] at first
    have nonempty : span.start < span.stop := by
      split at first
      · cases first
      · rename_i characters
        cases first
        exact Nat.pos_of_ne_zero characters
    exact (Covers.singleton nonempty).congr fun range => by simp [eq_comm]

/-- The places of a script cover all ranges that it has. -/
theorem covers_program (order : program.InOrder) : Covers program.Takes program.places := by
  have apart := (placed_program read order).apart
  rw [spans_edits] at apart
  obtain ⟨-, -, between⟩ := List.pairwise_append.mp apart
  exact (covers_hashbang read).append (row_of_read read order).coversAll between

/-- Whatever item of a script has a place takes it. -/
theorem takes_of_item {item : ModuleItem} {place : Span} (mem : item ∈ program.items)
    (is : item.place? = some place) : program.Takes place := by
  obtain ⟨node, listed, mem⟩ := Node.mem_itemsOfAll.mp mem
  have covers := (Program.read_contained read node listed).covers
  refine .inr ⟨node, listed, covers.taken place (List.mem_filterMap.mpr ⟨item, ?_, is⟩)⟩
  rw [Node.itemsOfAll, Node.itemsOfAll, List.append_nil]
  exact mem

end

/-! ## The pieces of a text -/

/-- The pieces of a text before, between and behind the ranges of edits, from a position on, with
the replacements of these ranges between them. -/
def pieces (text : List Char) (position : Nat) : List Edit → List Char
  | [] => text.drop position
  | edit :: edits =>
    Span.slice ⟨position, edit.span.start⟩ text ++ edit.replacement ++
      pieces text edit.span.stop edits

/-- The edit that leaves its range as it is. -/
def Edit.keeping (text : List Char) (edit : Edit) : Edit :=
  ⟨edit.span, edit.span.slice text⟩

/-- The edits that a conversion makes in a script. -/
def applied (text : List Char) (program : Program) : List Edit :=
  made (edits text program.hashbang program.items)

theorem spliceFrom_eq_pieces {text : List Char} {position : Nat} {edits : List Edit}
    (ordered : ∀ edit ∈ edits, edit.span.start ≤ edit.span.stop) :
    spliceFrom position (text.drop position) edits =
      pieces text position (madeFrom position edits) := by
  induction edits generalizing position with
  | nil => rfl
  | cons edit edits ih =>
    obtain ⟨own, ordered⟩ := List.forall_mem_cons.mp ordered
    by_cases earlier : edit.span.start < position
    · rw [spliceFrom, madeFrom, if_pos earlier, if_pos earlier]
      exact ih ordered
    · have le := Nat.le_of_not_lt earlier
      rw [spliceFrom_cons le, madeFrom_cons le, List.drop_drop,
        Nat.add_sub_cancel' (Nat.le_trans le own), ih ordered]
      rfl

/-- What is left of a text and the replacements of its ranges make up the edited text. -/
theorem splice_eq_pieces {text : List Char} {edits : List Edit}
    (ordered : ∀ edit ∈ edits, edit.span.start ≤ edit.span.stop) :
    splice text edits = pieces text 0 (made edits) :=
  spliceFrom_eq_pieces fun edit mem => ordered edit (Edit.mem_sorted.mp mem)

theorem slice_append_drop {start stop : Nat} (le : start ≤ stop) (text : List Char) :
    Span.slice ⟨start, stop⟩ text ++ text.drop stop = text.drop start := by
  have parted := List.take_append_drop (stop - start) (text.drop start)
  rwa [List.drop_drop, Nat.add_sub_cancel' le] at parted

/-- The pieces of a text and the ranges between them make up the text. -/
theorem pieces_keeping {text : List Char} {position high : Nat} {edits : List Edit}
    (placed : Edit.Placed position high edits) :
    pieces text position (edits.map (Edit.keeping text)) = text.drop position := by
  induction edits generalizing position with
  | nil => rfl
  | cons edit edits ih =>
    obtain ⟨lower, ordered, -, rest⟩ := placed.cons
    calc pieces text position ((edit :: edits).map (Edit.keeping text))
      _ = Span.slice ⟨position, edit.span.start⟩ text ++ (edit.span.slice text ++
            pieces text edit.span.stop (edits.map (Edit.keeping text))) := List.append_assoc _ _ _
      _ = Span.slice ⟨position, edit.span.start⟩ text ++ text.drop edit.span.start := by
          rw [ih rest, slice_append_drop ordered]
      _ = text.drop position := slice_append_drop lower text

/-- Of edits that follow one another all are made. -/
theorem Edit.Placed.madeFrom_eq {low high : Nat} {edits : List Edit}
    (placed : Edit.Placed low high edits) : madeFrom low edits = edits := by
  induction edits generalizing low with
  | nil => rfl
  | cons edit edits ih =>
    obtain ⟨lower, -, -, rest⟩ := placed.cons
    rw [madeFrom_cons lower, ih rest]

/-- Where the statements of a script follow one another, all of its edits are made. -/
theorem applied_eq {isTyped : Bool} {text : List Char} {program : Program}
    (read : Program.read isTyped text = .ok program) (order : program.InOrder) :
    applied text program = edits text program.hashbang program.items ∧
      Edit.Placed 0 text.length (applied text program) := by
  have placed := placed_program read order
  have all : applied text program = edits text program.hashbang program.items := by
    rw [applied, made, placed.sorted, placed.madeFrom_eq]
  exact ⟨all, all ▸ placed⟩

/-- A script without ranges that a conversion may replace has no items that take any. -/
theorem code_of_untaken {isTyped : Bool} {text : List Char} {program : Program}
    (read : Program.read isTyped text = .ok program) (none : ∀ range, ¬ program.Takes range) :
    code text program.hashbang program.items = text := by
  refine code_of_unplaced text ?_ fun item mem => ?_
  · exact Option.eq_none_iff_forall_ne_some.mpr fun span is => none span (.inl is)
  · refine Option.eq_none_iff_forall_ne_some.mpr fun place is => ?_
    exact none place (takes_of_item read mem is)

/-- A conversion writes, behind the prologue of a module, the pieces of the text between the ranges
of its edits with their replacements.  Where the statements of the script follow one another, these
ranges lie in the text one behind the other, and are exactly the outermost ones of those that the
script has; each of these lies in one of them, and two overlap only if one lies in the other.  A
script that has no such range stays as it is. -/
theorem convert_splices {isTyped : Bool} {text : List Char} {compiled : CompiledModule}
    (converts : convert isTyped text = .ok compiled) :
    ∃ program, Program.read isTyped text = .ok program ∧
      compiled.code.toList = opening text program ++ pieces text 0 (applied text program) ∧
      (program.InOrder →
        Edit.Placed 0 text.length (applied text program) ∧
        pieces text 0 ((applied text program).map (Edit.keeping text)) = text ∧
        (∀ range, range ∈ (applied text program).map (·.span) ↔
          Outermost program.Takes range) ∧
        (∀ range, program.Takes range →
          range.start < range.stop ∧ ∃ edit ∈ applied text program, range.In edit.span) ∧
        ∀ range other, program.Takes range → program.Takes other → range.Nested other) ∧
      ((∀ range, ¬ program.Takes range) → compiled.code.toList = text) := by
  obtain ⟨program, read, -, isCode⟩ := read_of_convert converts
  refine ⟨program, read, ?_, fun order => ?_, fun none => ?_⟩
  · have body : splice text (edits text program.hashbang program.items) =
        pieces text 0 (applied text program) :=
      splice_eq_pieces fun edit mem => (edits_growing read edit mem).ordered
    rw [isCode, code, body, opening]
    split <;> simp [applied]
  · obtain ⟨all, placed⟩ := applied_eq read order
    have covers := covers_program read order
    have spans : (applied text program).map (·.span) = program.places := by
      rw [all, spans_edits]
    refine ⟨placed, pieces_keeping placed, fun range => ?_, fun range taken => ?_, covers.nested⟩
    · rw [spans]
      exact covers.outermost_iff.symm
    · obtain ⟨place, mem, inside⟩ := covers.covered range taken
      rw [← spans] at mem
      obtain ⟨edit, listed, rfl⟩ := List.mem_map.mp mem
      exact ⟨covers.nonempty range taken, edit, listed, inside⟩
  · rw [isCode]
    exact code_of_untaken read none

/-- An import at run time in the options of another one is no outermost range. -/
theorem convert_splices_nested :
    ∃ compiled program,
      convert false "import './b';\nimport('./c', import('./d'))".toList = .ok compiled ∧
      Program.read false "import './b';\nimport('./c', import('./d'))".toList = .ok program ∧
      ∀ range, range ∈ [⟨0, 13⟩, ⟨14, 42⟩] ↔ Outermost program.Takes range := by
  have run : (convert false
      "import './b';\nimport('./c', import('./d'))".toList).toOption.isSome = true := by
    decide +kernel
  obtain ⟨compiled, converts⟩ := Option.isSome_iff_exists.mp run
  have converts := ok_of_toOption converts
  obtain ⟨program, read, -, spliced, -⟩ := convert_splices converts
  have found : (Program.read false
      "import './b';\nimport('./c', import('./d'))".toList).toOption.map (fun program =>
        (decide (∀ node ∈ program.statements, node.span.start ≤ node.span.stop),
          program.hashbang,
          decide (program.statements.Pairwise fun node later =>
            node.span.stop ≤ later.span.start),
          (applied "import './b';\nimport('./c', import('./d'))".toList program).map (·.span))) =
      some (true, none, true, [⟨0, 13⟩, ⟨14, 42⟩]) := by
    decide +kernel
  rw [read] at found
  obtain ⟨ordered, found⟩ := Prod.mk.inj (Option.some.inj found)
  obtain ⟨none, found⟩ := Prod.mk.inj found
  obtain ⟨apart, spans⟩ := Prod.mk.inj found
  have order : program.InOrder := by
    refine ⟨of_decide_eq_true ordered, ?_, of_decide_eq_true apart⟩
    rw [none]
    exact fun span is => nomatch is
  obtain ⟨-, -, outermost, -⟩ := spliced order
  rw [spans] at outermost
  exact ⟨compiled, program, converts, read, outermost⟩

end Conversion

end ModuleBundler

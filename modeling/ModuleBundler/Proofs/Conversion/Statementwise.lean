/-
# ModuleBundler.Proofs.Conversion.Statementwise — a conversion statement by statement.

Where the statements of a script follow one another, none of the edits of its conversion is in the
way of another one, so each statement is converted by its own edits and the text between statements
stays as it is (`code_eq_statementwise`).  In a statement in which nothing else is replaced
declarations of modules leave their line feeds, an exported declaration stays without `export`, a
default value is assigned, and every other statement stays as it is (`converted_eq_outlined`).  The
code never begins with a line that names an interpreter (`hashbangExtent_code`).

This is all about the text.  What it is read as is another matter.
-/
import ModuleBundler.Proofs.Conversion.Lines

namespace ModuleBundler.Conversion

open Script

/-! ## Edits in a row -/

namespace Edit

/-- Edits that follow one another between two positions. -/
def Placed (low high : Nat) (edits : List Edit) : Prop :=
  Script.Placed low high (edits.map (·.span))

theorem Placed.cons {low high : Nat} {edit : Edit} {edits : List Edit}
    (h : Placed low high (edit :: edits)) :
    low ≤ edit.span.start ∧ edit.span.start ≤ edit.span.stop ∧ edit.span.stop ≤ high ∧
      Placed edit.span.stop high edits := by
  obtain ⟨lower, ordered, upper⟩ := h.within _ List.mem_cons_self
  obtain ⟨behind, apart⟩ := List.pairwise_cons.mp h.apart
  refine ⟨lower, ordered, upper, fun span mem => ?_, apart⟩
  exact ⟨behind span mem, (h.within span (List.mem_cons_of_mem _ mem)).2⟩

/-- Edits that follow one another are sorted. -/
theorem Placed.sorted {low high : Nat} {edits : List Edit} (h : Placed low high edits) :
    sorted edits = edits := by
  induction edits generalizing low with
  | nil => rfl
  | cons edit edits ih =>
    obtain ⟨-, ordered, -, rest⟩ := h.cons
    change insert edit (Edit.sorted edits) = _
    rw [ih rest]
    cases edits with
    | nil => rfl
    | cons next edits =>
      obtain ⟨behind, -⟩ := rest.cons
      exact if_pos (Nat.le_trans ordered behind)

end Edit

theorem spliceFrom_cons {position : Nat} {text : List Char} {edit : Edit} {edits : List Edit}
    (le : position ≤ edit.span.start) : spliceFrom position text (edit :: edits) =
      text.take (edit.span.start - position) ++ edit.replacement ++
        spliceFrom edit.span.stop (text.drop (edit.span.stop - position)) edits :=
  if_neg (Nat.not_lt.mpr le)

/-- What stands before all edits is copied. -/
theorem spliceFrom_behind {position start high : Nat} {text : List Char} {edits : List Edit}
    (le : position ≤ start) (placed : Edit.Placed start high edits) :
    spliceFrom position text edits =
      text.take (start - position) ++ spliceFrom start (text.drop (start - position)) edits := by
  cases edits with
  | nil => exact (List.take_append_drop _ _).symm
  | cons edit edits =>
    obtain ⟨lower, ordered, -, -⟩ := placed.cons
    have near : edit.span.start - position = start - position + (edit.span.start - start) := by
      omega
    have far : start - position + (edit.span.stop - start) = edit.span.stop - position := by omega
    rw [spliceFrom_cons (Nat.le_trans le lower), spliceFrom_cons lower, List.drop_drop, near, far,
      List.take_add]
    simp only [List.append_assoc]

/-- Edits up to a position and edits behind it are made each in their part of the text. -/
theorem spliceFrom_append {start stop high : Nat} {text : List Char} {edits later : List Edit}
    (le : start ≤ stop) (placed : Edit.Placed start stop edits)
    (behind : Edit.Placed stop high later) :
    spliceFrom start text (edits ++ later) =
      spliceFrom start (text.take (stop - start)) edits ++
        spliceFrom stop (text.drop (stop - start)) later := by
  induction edits generalizing start text with
  | nil => exact spliceFrom_behind le behind
  | cons edit edits ih =>
    obtain ⟨lower, ordered, upper, rest⟩ := placed.cons
    have extent : stop - start - (edit.span.stop - start) = stop - edit.span.stop := by omega
    have far : edit.span.stop - start + (stop - edit.span.stop) = stop - start := by omega
    have near : min (edit.span.start - start) (stop - start) = edit.span.start - start := by omega
    rw [List.cons_append, spliceFrom_cons lower, spliceFrom_cons lower, ih upper rest,
      List.take_take, near, List.drop_take, List.drop_drop, extent, far]
    simp only [List.append_assoc]

/-! ## Statement by statement -/

/-- A statement with its own edits made in it. -/
def converted (text : List Char) (node : Node) : List Char :=
  spliceFrom node.span.start (node.span.slice text) (node.items.filterMap (edit? text))

/-- The text from a position on, with its statements converted one by one. -/
def statementwise (text : List Char) (position : Nat) : List Node → List Char
  | [] => text.drop position
  | node :: nodes =>
    Span.slice ⟨position, node.span.start⟩ text ++ converted text node ++
      statementwise text node.span.stop nodes

/-- The edits for constructs in a row follow one another there. -/
theorem placed_edits {text : List Char} {low high : Nat} {nodes : List Node}
    (row : Row text low high nodes) :
    Edit.Placed low high ((Node.itemsOfAll nodes).filterMap (edit? text)) := by
  rw [Edit.Placed, List.map_filterMap]
  simp only [span_edit]
  exact row.placed_places

/-- Where statements follow one another, all edits are made, each in its statement. -/
theorem spliceFrom_statements {text : List Char} {position : Nat} {nodes : List Node}
    (contained : ∀ node ∈ nodes, node.Contained text)
    (ordered : ∀ node ∈ nodes, node.span.start ≤ node.span.stop)
    (lower : ∀ node ∈ nodes, position ≤ node.span.start)
    (order : nodes.Pairwise fun node later => node.span.stop ≤ later.span.start) :
    spliceFrom position (text.drop position) ((Node.itemsOfAll nodes).filterMap (edit? text)) =
      statementwise text position nodes := by
  induction nodes generalizing position with
  | nil => rfl
  | cons node nodes ih =>
    obtain ⟨behind, apart⟩ := List.pairwise_cons.mp order
    obtain ⟨own, ordered'⟩ := List.forall_mem_cons.mp ordered
    obtain ⟨here, contained'⟩ := List.forall_mem_cons.mp contained
    have first := lower node List.mem_cons_self
    -- the edits of this statement end where it does, and the others begin behind it
    obtain ⟨high, row⟩ := Row.of_contained contained' behind apart
    have inside := placed_edits here
    have later := placed_edits row
    have all : Edit.Placed node.span.start (max node.span.stop high)
        ((Node.itemsOfAll (node :: nodes)).filterMap (edit? text)) := by
      exact placed_edits (here.append (Nat.le_max_left _ _) (row.mono own (by omega))
        (row.mono (Nat.le_refl _) (by omega)))
    rw [spliceFrom_behind first all, List.drop_drop, Nat.add_sub_cancel' first]
    rw [Node.itemsOfAll, Node.itemsOfAll, List.append_nil] at inside
    rw [Node.itemsOfAll, List.filterMap_append, spliceFrom_append own inside later,
      List.drop_drop, Nat.add_sub_cancel' own, ih contained' ordered' behind apart,
      ← List.append_assoc]
    rfl

/-- What a conversion puts before the text of a script: a prologue if the script is a module. -/
def opening (text : List Char) (program : Program) : List Char :=
  if program.items.any ModuleItem.isDeclaration then
    (prologue text program.items).toList ++ ['\n']
  else []

/-- Where the text of a script begins that a conversion copies. -/
def textStart (program : Program) : Nat :=
  (program.hashbang.map (·.stop)).getD 0

/-- The first line holds no line feed, so nothing is written in its place. -/
theorem replacement_hashbang (text : List Char) :
    (Edit.replacing text ⟨0, hashbangExtent text⟩ "").replacement = [] := by
  have none := List.count_eq_zero.mpr (newline_not_mem_hashbang text)
  simp [Edit.replacing, none]

/-- Each edit replaces a place. -/
theorem spans_edits (text : List Char) (program : Program) :
    (edits text program.hashbang program.items).map (·.span) = program.places := by
  unfold edits Program.places Program.items Node.placesOfAll
  rw [List.map_append, List.map_map, List.map_filterMap]
  simp only [span_edit]
  exact congrArg (· ++ _) (List.map_id _)

section

variable {isTyped : Bool} {text : List Char} {program : Program}
  (read : Program.read isTyped text = .ok program)

include read

theorem textStart_le : textStart program ≤ text.length := by
  unfold textStart
  cases is : program.hashbang with
  | none => exact Nat.zero_le _
  | some span =>
    rw [Program.hashbang_of_read read span is]
    exact hashbangExtent_le text

theorem placed_hashbang : Script.Placed 0 (textStart program) program.hashbang.toList := by
  unfold textStart
  cases is : program.hashbang with
  | none => exact .nil
  | some span =>
    rw [Program.hashbang_of_read read span is]
    exact .singleton (Nat.le_refl _) (Nat.zero_le _) (Nat.le_refl _)

variable (order : program.InOrder)

include order

/-- Statements that follow one another stand in a row behind the first line of the text. -/
theorem row_of_read : Row text (textStart program) text.length program.statements := by
  have lower : ∀ node ∈ program.statements, textStart program ≤ node.span.start := by
    intro node mem
    unfold textStart
    cases is : program.hashbang with
    | none => exact Nat.zero_le _
    | some span => exact order.behind span is node mem
  obtain ⟨high, row⟩ := Row.of_contained (Program.read_contained read) lower order.apart
  exact row.within (Program.read_within read)

/-- The places of a script whose statements follow one another do so, too, and so do its edits. -/
theorem placed_program :
    Edit.Placed 0 text.length (edits text program.hashbang program.items) := by
  have placed := (row_of_read read order).placed_places
  rw [Edit.Placed, spans_edits]
  exact (placed_hashbang read).append (textStart_le read)
    (placed.mono (Nat.zero_le _) (Nat.le_refl _)) placed

/-- The edits of a script whose statements follow one another are made from its first line on. -/
theorem splice_statementwise : splice text (edits text program.hashbang program.items) =
    statementwise text (textStart program) program.statements := by
  have contained := Program.read_contained read
  rw [splice, (placed_program read order).sorted]
  unfold edits textStart Program.items
  cases hashbang : program.hashbang with
  | none =>
    exact spliceFrom_statements contained order.ordered (fun _ _ => Nat.zero_le _) order.apart
  | some span =>
    have behind := order.behind span hashbang
    have first := Program.hashbang_of_read read span hashbang
    subst first
    rw [Option.toList_some, List.map_cons, List.map_nil, List.singleton_append,
      spliceFrom_cons (Nat.zero_le _), replacement_hashbang]
    exact spliceFrom_statements contained order.ordered behind order.apart

end

theorem code_eq_statementwise {isTyped : Bool} {text : List Char} {program : Program}
    (read : Program.read isTyped text = .ok program) (order : program.InOrder) :
    code text program.hashbang program.items =
      opening text program ++ statementwise text (textStart program) program.statements := by
  rw [code, splice_statementwise read order, opening]
  split <;> simp

/-! ## What becomes of a statement -/

/-- What is written before the part of a statement that stays in the code, and where this part
begins: nothing stays of declarations that only name modules, and an exported value stays without
the words before it. -/
def outline (node : Node) : String × Nat :=
  match node.item? with
  | some (.importDeclaration span _ _) => ("", span.stop)
  | some (.exportList span _ _) => ("", span.stop)
  | some (.exportAll span _ _) => ("", span.stop)
  | some (.exportDeclaration _ start _) => ("", start)
  | some (.exportDefault _ _ start name) =>
    (if name.isSome then "" else "exports.default = ", start)
  | _ => ("", node.span.start)

/-- What is written in the place of a statement in which nothing else is replaced. -/
def outlined (text : List Char) (node : Node) : List Char :=
  (outline node).1.toList ++
    List.replicate (lineFeeds (Span.slice ⟨node.span.start, (outline node).2⟩ text)) '\n' ++
    Span.slice ⟨(outline node).2, node.span.stop⟩ text

theorem spliceFrom_own {text : List Char} {span own : Span} {replacement : List Char}
    (first : own.start = span.start) (le : span.start ≤ own.stop) :
    spliceFrom span.start (span.slice text) [⟨own, replacement⟩] =
      replacement ++ Span.slice ⟨own.stop, span.stop⟩ text := by
  have extent : span.stop - span.start - (own.stop - span.start) = span.stop - own.stop := by omega
  rw [spliceFrom_cons (Nat.le_of_eq first.symm), first, Nat.sub_self, List.take_zero,
    List.nil_append]
  unfold spliceFrom Span.slice
  rw [List.drop_take, List.drop_drop, Nat.add_sub_cancel' le, extent]

/-- Items that take no range are left alone. -/
theorem edits_of_unplaced (text : List Char) {items : List ModuleItem}
    (unplaced : ∀ item ∈ items, item.place? = none) : items.filterMap (edit? text) = [] := by
  refine List.filterMap_eq_nil_iff.mpr fun item mem => ?_
  have place := span_edit text item
  rw [unplaced item mem] at place
  exact Option.map_eq_none_iff.mp place

/-- The only edit in a branch whose parts are left alone is its own. -/
theorem edits_branch {text : List Char} {span : Span} {form : Form} {parts : List Node}
    (inner : ∀ item ∈ Node.itemsOfAll parts, item.place? = none) :
    (Node.branch span form parts).items.filterMap (edit? text) =
      ((Node.branch span form parts).item?.bind (edit? text)).toList := by
  have none := edits_of_unplaced text inner
  rw [Node.items, Node.item?]
  rcases Node.itemOf? span form parts with _ | ⟨item, _ | _⟩
  · exact none
  · rw [List.filterMap_cons, none]
    cases is : edit? text item <;> simp [is]
  · cases is : edit? text item <;> simp [is]

/-- The item that a construct itself is begins where the construct does. -/
theorem start_of_item {node : Node} {item : ModuleItem} {place : Span}
    (own : node.item? = some item) (is : item.place? = some place) :
    place.start = node.span.start := by
  cases node with
  | leaf span kind => cases own
  | branch span form parts =>
    obtain ⟨⟨_, closed⟩, listed, same⟩ := Option.map_eq_some_iff.mp own
    subst same
    unfold Node.itemOf? at listed
    split at listed
    all_goals first
      | (cases listed
         cases is <;> rfl)
      | cases listed

theorem isDynamicImport_of_item {span place : Span} {form : Form} {parts : List Node}
    {source : Source} (own : (Node.branch span form parts).item? =
      some (.dynamicImport place source)) : form = .dynamicImport := by
  obtain ⟨⟨_, closed⟩, listed, same⟩ := Option.map_eq_some_iff.mp own
  subst same
  unfold Node.itemOf? at listed
  split at listed
  all_goals first
    | rfl
    | cases listed

/-- The edit of a declaration writes its outline over all that does not stay. -/
theorem edit_of_declaration (text : List Char) {node : Node} {item : ModuleItem}
    (own : node.item? = some item) (declared : item.isDeclaration = true) : edit? text item =
      some (.replacing text ⟨node.span.start, (outline node).2⟩ (outline node).1) := by
  unfold outline
  rw [own]
  cases item with
  | dynamicImport span source => cases declared
  | requireCall source => cases declared
  | _ =>
    rw [← start_of_item own rfl]
    rfl

/-- A statement in which nothing else is replaced leaves the part of it that stays, behind the line
feeds before this part. -/
theorem converted_eq_outlined {text : List Char} {span : Span} {form : Form} {parts : List Node}
    (contained : (Node.branch span form parts).Contained text) (immediate : form ≠ .dynamicImport)
    (inner : ∀ item ∈ Node.itemsOfAll parts, item.place? = none) :
    converted text (.branch span form parts) = outlined text (.branch span form parts) := by
  have placed := placed_edits contained
  rw [Node.itemsOfAll, Node.itemsOfAll, List.append_nil, edits_branch inner] at placed
  unfold converted
  rw [edits_branch inner]
  cases own : (Node.branch span form parts).item? with
  | none =>
    simp [outlined, outline, own, spliceFrom, Span.slice, lineFeeds, Node.span]
  | some item =>
    rw [own, Option.bind_some] at placed
    rw [Option.bind_some]
    cases declared : item.isDeclaration with
    | true =>
      rw [edit_of_declaration text own declared] at placed ⊢
      -- its range begins where the statement does, so only what is behind it stays
      obtain ⟨lower, ordered, -⟩ := Edit.Placed.cons placed
      exact spliceFrom_own rfl (Nat.le_trans lower ordered)
    | false =>
      cases item with
      | requireCall source =>
        simp [outlined, outline, own, spliceFrom, Span.slice, lineFeeds, Node.span, edit?]
      | dynamicImport place source => exact absurd (isDynamicImport_of_item own) immediate
      | _ => cases declared

/-- A script without declarations and imports is its own code. -/
theorem code_of_unplaced (text : List Char) {program : Program} (none : program.hashbang = none)
    (unplaced : ∀ item ∈ program.items, item.place? = Option.none) :
    code text program.hashbang program.items = text := by
  have undeclared : program.items.any ModuleItem.isDeclaration = false := by
    refine List.any_eq_false.mpr fun item mem declared => ?_
    have place := unplaced item mem
    cases item with
    | requireCall source => cases declared
    | _ => cases place
  have unedited : edits text program.hashbang program.items = [] := by
    rw [edits, none]
    exact edits_of_unplaced text unplaced
  rw [code, unedited, splice_nil, undeclared]
  rfl

/-! ## The first line -/

theorem hashbangExtent_eq_zero {text : List Char} :
    hashbangExtent text = 0 ↔ ∀ rest, text ≠ '#' :: '!' :: rest := by
  unfold hashbangExtent
  split
  · rename_i rest
    simp
  · rename_i other
    simpa using other

/-- Behind the line that names an interpreter stands the end of a line, if anything. -/
theorem hashbangExtent_drop (text : List Char) :
    hashbangExtent (text.drop (hashbangExtent text)) = 0 := by
  by_cases named : hashbangExtent text = 0
  · rw [named, List.drop_zero, named]
  · obtain ⟨rest, rfl⟩ : ∃ rest, text = '#' :: '!' :: rest := by
      by_contra none
      exact named (hashbangExtent_eq_zero.mpr (not_exists.mp none))
    have behind : ((rest.takeWhile fun c => !isLineEnd c) ++
        (rest.dropWhile fun c => !isLineEnd c)).drop (rest.takeWhile fun c => !isLineEnd c).length =
          rest.dropWhile fun c => !isLineEnd c := List.drop_left
    rw [List.takeWhile_append_dropWhile] at behind
    change hashbangExtent (rest.drop (rest.takeWhile fun c => !isLineEnd c).length) = 0
    rw [behind]
    refine hashbangExtent_eq_zero.mpr fun others is => ?_
    have ends := List.head?_dropWhile_not (fun c => !isLineEnd c) rest
    rw [is] at ends
    change (!isLineEnd '#') = false at ends
    exact absurd ends (by decide)

theorem exists_of_take {stop : Nat} {text tail rest : List Char}
    (is : text.take stop ++ 'P' :: tail = '#' :: '!' :: rest) :
    ∃ rest, text = '#' :: '!' :: rest := by
  rcases text with _ | ⟨c, _ | ⟨d, text⟩⟩
  · simp at is
  · rcases stop with _ | stop <;> simp at is
  · rcases stop with _ | _ | stop
    · simp at is
    · simp at is
    · rw [List.take_succ_cons, List.take_succ_cons] at is
      obtain ⟨rfl, others⟩ := List.cons.inj is
      obtain ⟨rfl, -⟩ := List.cons.inj others
      exact ⟨text, rfl⟩

/-- Where all that is written begins with a letter, a text that names an interpreter does so
before. -/
theorem exists_of_spliced {position : Nat} {text rest : List Char} {edits : List Edit}
    (letters : ∀ edit ∈ edits, ∃ tail, edit.replacement = 'P' :: tail)
    (is : spliceFrom position text edits = '#' :: '!' :: rest) :
    ∃ rest, text = '#' :: '!' :: rest := by
  induction edits generalizing position text rest with
  | nil => exact ⟨rest, is⟩
  | cons edit edits ih =>
    obtain ⟨⟨tail, letter⟩, others⟩ := List.forall_mem_cons.mp letters
    rw [spliceFrom] at is
    split at is
    · exact ih others is
    · rw [letter, List.append_assoc] at is
      exact exists_of_take is

/-- What is written for an import at run time begins with a letter. -/
theorem exists_replacement {text : List Char} {items : List ModuleItem}
    (undeclared : items.any ModuleItem.isDeclaration = false) :
    ∀ edit ∈ items.filterMap (edit? text), ∃ tail, edit.replacement = 'P' :: tail := by
  intro edit mem
  obtain ⟨item, listed, is⟩ := List.mem_filterMap.mp mem
  have plain := List.any_eq_false.mp undeclared item listed
  cases item with
  | dynamicImport span source =>
    cases is
    unfold Edit.replacing
    rw [String.toList_append, String.toList_append]
    exact ⟨_, rfl⟩
  | requireCall source => cases is
  | _ => exact absurd rfl plain

/-- The edit that takes out the first line is made first, and writes nothing. -/
theorem splice_hashbang (text : List Char) (edits : List Edit) :
    splice text (Edit.replacing text ⟨0, hashbangExtent text⟩ "" :: edits) =
      spliceFrom (hashbangExtent text) (text.drop (hashbangExtent text)) (Edit.sorted edits) := by
  have first : Edit.sorted (Edit.replacing text ⟨0, hashbangExtent text⟩ "" :: edits) =
      Edit.replacing text ⟨0, hashbangExtent text⟩ "" :: Edit.sorted edits := by
    change Edit.insert _ (Edit.sorted edits) = _
    cases Edit.sorted edits with
    | nil => rfl
    | cons next others => exact if_pos (Nat.zero_le _)
  rw [splice, first, spliceFrom_cons (Nat.zero_le _), replacement_hashbang]
  rfl

/-- The code of a converted script does not name an interpreter. -/
theorem hashbangExtent_code {isTyped : Bool} {text : List Char} {program : Program}
    (read : Program.read isTyped text = .ok program) :
    hashbangExtent (code text program.hashbang program.items) = 0 := by
  unfold code
  dsimp only
  split
  · obtain ⟨rest, is⟩ : ∃ rest, (prologue text program.items).toList = '"' :: rest := by
      unfold prologue
      simp only [List.cons_append, String.toList_intercalate, List.map_cons,
        List.intercalate_cons_cons]
      exact ⟨_, rfl⟩
    rw [is]
    rfl
  · rename_i undeclared
    have letters (edit : Edit) (mem : edit ∈ Edit.sorted (program.items.filterMap (edit? text))) :
        ∃ tail, edit.replacement = 'P' :: tail := by
      exact exists_replacement ((Bool.not_eq_true _).mp undeclared) edit (Edit.mem_sorted.mp mem)
    refine hashbangExtent_eq_zero.mpr fun rest is => ?_
    rw [edits, Program.hashbang_eq read] at is
    split at is
    · rename_i none
      obtain ⟨rest, same⟩ := exists_of_spliced letters is
      exact hashbangExtent_eq_zero.mp none rest same
    · rw [Option.toList_some, List.map_cons, List.map_nil, List.singleton_append,
        splice_hashbang] at is
      obtain ⟨rest, same⟩ := exists_of_spliced letters is
      exact hashbangExtent_eq_zero.mp (hashbangExtent_drop text) rest same

end ModuleBundler.Conversion

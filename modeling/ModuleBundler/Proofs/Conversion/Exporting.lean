/-
# ModuleBundler.Proofs.Conversion.Exporting — what is left of an exported construct.

The words that export a declaration or a value are taken out of the text up to where the exported
construct begins, so what goes with them is whatever stands between the two.  `Introduced` says what
that is: the words, and nothing else but blanks and comments.  Decorators belong to the construct,
but for those that a default export has no place for, since its value is no class.  Of the construct
itself every character remains, but for the ranges that the conversion replaces on their own
(`convert_exports`).
-/
import ModuleBundler.Proofs.Conversion.Splicing

namespace ModuleBundler

namespace Script

/-- A position lies in a range. -/
def Span.Holds (span : Span) (p : Nat) : Prop :=
  span.start ≤ p ∧ p < span.stop

/-- The range of the words before what is exported. -/
def wordsBefore (span : Span) (value : Node) : Span :=
  ⟨span.start, value.span.start⟩

theorem Span.In.holds {inner outer : Span} (h : inner.In outer) {p : Nat} (holds : inner.Holds p) :
    outer.Holds p :=
  ⟨Nat.le_trans h.start_le holds.1, Nat.lt_of_lt_of_le holds.2 h.stop_le⟩

namespace Node

/-- A construct has an export with a range, somewhere in its parts: the words that make it one, and
the declaration or value that they export. -/
inductive Exports : Node → Span → List String → Node → Prop
  | exportDeclaration {span : Span} {declaration : Node} :
    Exports (.branch span .exportDeclaration [declaration]) span ["export"] declaration
  | exportDefault {span keyword : Span} {value : Node} :
    Exports (.branch span (.exportDefault keyword) [value]) span ["export", "default"] value
  | part {span own : Span} {form : Form} {parts : List Node} {node value : Node}
    {words : List String} (mem : node ∈ parts) (exports : node.Exports own words value) :
    Exports (.branch span form parts) own words value

variable {node value : Node} {span : Span} {words : List String}

/-- What a proper construct exports is introduced by the words that say so. -/
theorem Exports.introduced {text : List Char} (h : node.Exports span words value)
    (proper : node.Proper text) : Introduced text words span.start value := by
  induction h with
  | exportDeclaration => exact proper.words _ rfl _ rfl
  | exportDefault => exact proper.words _ rfl _ rfl
  | part mem _ ih => exact ih (proper.parts _ mem)

/-- The range of these words is one that a conversion may replace. -/
theorem Exports.takes (h : node.Exports span words value) :
    node.Takes (wordsBefore span value) := by
  induction h with
  | exportDeclaration => exact .exportDeclaration
  | exportDefault => exact .exportDefault
  | part mem _ ih => exact .part mem ih

end Node

/-- A script has an export, in one of its statements. -/
def Program.Exports (program : Program) (span : Span) (words : List String) (value : Node) : Prop :=
  ∃ node ∈ program.statements, node.Exports span words value

/-- The statement that is an item has the form and the parts that make it one. -/
theorem Program.exists_branch_of_item {program : Program} {item : ModuleItem}
    (mem : item ∈ program.statements.filterMap Node.item?) :
    ∃ span form parts closed, .branch span form parts ∈ program.statements ∧
      Node.itemOf? span form parts = some (item, closed) := by
  obtain ⟨node, listed, is⟩ := List.mem_filterMap.mp mem
  cases node with
  | leaf span leaf => cases is
  | branch span form parts =>
    obtain ⟨⟨item, closed⟩, found, rfl⟩ := Option.map_eq_some_iff.mp is
    exact ⟨span, form, parts, closed, listed, found⟩

/-- A statement that exports a declaration is an export of the script. -/
theorem Program.exports_of_declaration {program : Program} {span : Span} {start : Nat}
    {names : List (String × Span)} (mem : .exportDeclaration span start names ∈
      program.statements.filterMap Node.item?) :
    ∃ declaration, program.Exports span ["export"] declaration ∧
      declaration.span.start = start := by
  obtain ⟨own, form, parts, closed, listed, found⟩ := exists_branch_of_item mem
  unfold Node.itemOf? at found
  split at found <;> cases found
  exact ⟨_, ⟨_, listed, .exportDeclaration⟩, rfl⟩

/-- A statement that is a default export is an export of the script. -/
theorem Program.exports_of_default {program : Program} {span keyword : Span} {start : Nat}
    {name : Option String} (mem : .exportDefault span keyword start name ∈
      program.statements.filterMap Node.item?) :
    ∃ value, program.Exports span ["export", "default"] value ∧ value.span.start = start := by
  obtain ⟨own, form, parts, closed, listed, found⟩ := exists_branch_of_item mem
  unfold Node.itemOf? at found
  split at found <;> cases found
  exact ⟨_, ⟨_, listed, .exportDefault⟩, rfl⟩

end Script

namespace Conversion

open Script

/-- A character of a text is still there in the code. -/
def Remains (text : List Char) (program : Program) (p : Nat) : Prop :=
  ∃ c, ⟨c, some p⟩ ∈ tracedCode text program

section

variable {isTyped : Bool} {text : List Char} {program : Program}
  (read : Program.read isTyped text = .ok program)

include read

theorem remains_iff {p : Nat} : Remains text program p ↔
    p < text.length ∧ ∀ edit ∈ applied text program, ¬ edit.span.Holds p :=
  mem_tracedCode read

/-- What an edit replaces is a range that the script has. -/
theorem takes_of_edit {edit : Edit} (mem : edit ∈ edits text program.hashbang program.items) :
    program.Takes edit.span := by
  rcases List.mem_append.mp mem with mem | mem
  · obtain ⟨span, is, rfl⟩ := List.mem_map.mp mem
    exact .inl (Option.mem_toList.mp is)
  · obtain ⟨item, listed, is⟩ := List.mem_filterMap.mp mem
    refine takes_of_item read listed ?_
    rw [← span_edit text item, is]
    rfl

/-- A character that is not there any more stood in a range that has been replaced. -/
theorem taken_of_not_remains {p : Nat} (lt : p < text.length) (gone : ¬ Remains text program p) :
    ∃ range, program.Takes range ∧ range.Holds p := by
  rw [remains_iff read] at gone
  push Not at gone
  obtain ⟨edit, made, holds⟩ := gone lt
  exact ⟨edit.span, takes_of_edit read (mem_of_mem_made made), holds⟩

/-- Whatever range a script has, there is an edit around it. -/
theorem edit_around {range : Span} (taken : program.Takes range) :
    ∃ edit ∈ edits text program.hashbang program.items, range.In edit.span := by
  rcases taken with first | ⟨node, listed, taken⟩
  · refine ⟨Edit.replacing text range "", List.mem_append_left _ ?_, .refl _⟩
    exact List.mem_map.mpr ⟨range, Option.mem_toList.mpr first, rfl⟩
  · have covers := (Program.read_contained read node listed).covers
    obtain ⟨place, mem, inside⟩ := covers.covered range taken
    obtain ⟨item, mem', is⟩ := List.mem_filterMap.mp mem
    rw [Node.itemsOfAll, Node.itemsOfAll, List.append_nil] at mem'
    obtain ⟨edit, made, rfl⟩ := Option.map_eq_some_iff.mp ((span_edit text item).trans is)
    refine ⟨edit, List.mem_append_right _ (List.mem_filterMap.mpr ⟨item, ?_, made⟩), inside⟩
    exact Node.mem_itemsOfAll.mpr ⟨node, listed, mem'⟩

/-- A range that has been replaced is gone, or another one that is replaced begins before an edit
around it and ends in this edit. -/
theorem gone_or_severed {range : Span} (taken : program.Takes range) :
    (∀ p, range.Holds p → ¬ Remains text program p) ∨
      ∃ outer other, program.Takes outer ∧ program.Takes other ∧ range.In outer ∧
        other.Holds outer.start ∧ ¬ range.In other := by
  have gone {edit : Edit} (made : edit ∈ applied text program) (inside : range.In edit.span) :
      ∀ p, range.Holds p → ¬ Remains text program p := by
    intro p holds remains
    exact ((remains_iff read).mp remains).2 edit made (inside.holds holds)
  obtain ⟨edit, mem, inside⟩ := edit_around read taken
  rcases mem_made_or mem with made | ⟨other, made, holds⟩
  · exact .inl (gone made inside)
  · by_cases within : range.In other.span
    · exact .inl (gone made within)
    · exact .inr ⟨edit.span, other.span, takes_of_edit read mem,
        takes_of_edit read (mem_of_mem_made made), inside, holds, within⟩

/-- Where the statements of a script follow one another, a range that is replaced is gone. -/
theorem gone_of_inOrder (order : program.InOrder) {range : Span} (taken : program.Takes range)
    {p : Nat} (holds : range.Holds p) : ¬ Remains text program p := by
  obtain ⟨edit, mem, inside⟩ := edit_around read taken
  rw [← (applied_eq read order).1] at mem
  intro remains
  exact ((remains_iff read).mp remains).2 edit mem (inside.holds holds)

end

/-- Of an exported declaration or value a conversion takes away the words that export it, which are
`export`, or `export` and `default`, and stand before it with nothing but blanks and comments behind
each of them, unless decorators follow the word `default` and no class does (`Introduced`).  Every
character from there on remains, but for those in ranges that the conversion replaces on their own:
behind the words, or around the whole of them.  The words go, unless the statements of the script do
not follow one another and a range of another one reaches into what is replaced with the words. -/
theorem convert_exports {isTyped : Bool} {text : List Char} {compiled : CompiledModule}
    (converts : convert isTyped text = .ok compiled) :
    ∃ program, Program.read isTyped text = .ok program ∧
      (tracedCode text program).map (·.char) = compiled.code.toList ∧
      ∀ span words value, program.Exports span words value →
        Introduced text words span.start value ∧
        (∀ p, value.span.start ≤ p → p < text.length →
          Remains text program p ∨ ∃ range, program.Takes range ∧ range.Holds p ∧
            (program.InOrder →
              value.span.start ≤ range.start ∨ (wordsBefore span value).In range)) ∧
        ((∀ p, (wordsBefore span value).Holds p → ¬ Remains text program p) ∨
          ¬ program.InOrder ∧ ∃ outer other, program.Takes outer ∧ program.Takes other ∧
            (wordsBefore span value).In outer ∧ other.Holds outer.start ∧
            ¬ (wordsBefore span value).In other) := by
  obtain ⟨program, read, -, isCode⟩ := read_of_convert converts
  refine ⟨program, read, (chars_tracedCode text program).trans isCode.symm, ?_⟩
  rintro span words value ⟨node, listed, exports⟩
  have proper := (Program.read_contained read node listed).proper _ List.mem_cons_self
  have taken : program.Takes (wordsBefore span value) := .inr ⟨node, listed, exports.takes⟩
  refine ⟨exports.introduced proper, fun p le lt => ?_, ?_⟩
  · by_cases remains : Remains text program p
    · exact .inl remains
    obtain ⟨range, other, holds⟩ := taken_of_not_remains read lt remains
    refine .inr ⟨range, other, holds, fun order => ?_⟩
    -- the range reaches behind the words, so it neither lies in theirs nor stands before it
    have nonempty := (covers_program read order).nonempty _ taken
    obtain ⟨lower, upper⟩ := holds
    dsimp only [wordsBefore] at nonempty
    rcases (covers_program read order).nested _ _ taken other with inside | inside | before | behind
    · exact .inr inside
    · have stop := inside.stop_le
      dsimp only [wordsBefore] at stop
      omega
    · exact .inl before
    · dsimp only [wordsBefore] at behind
      omega
  · by_cases order : program.InOrder
    · exact .inl fun p holds => gone_of_inOrder read order taken holds
    · exact (gone_or_severed read taken).imp_right fun severed => ⟨order, severed⟩

/-- The decorators of an exported class remain, with everything else but the word before them. -/
theorem convert_exports_decorated :
    ∃ compiled program value,
      convert false "export @dec class A {}".toList = .ok compiled ∧
      Program.read false "export @dec class A {}".toList = .ok program ∧
      program.Exports ⟨0, 22⟩ ["export"] value ∧
      Introduced "export @dec class A {}".toList ["export"] 0 value ∧
      ∀ p, Remains "export @dec class A {}".toList program p ↔ 7 ≤ p ∧ p < 22 := by
  have run : (convert false "export @dec class A {}".toList).toOption.isSome = true := by
    decide +kernel
  obtain ⟨compiled, converts⟩ := exists_ok_of_isSome run
  obtain ⟨program, read, -, exported⟩ := convert_exports converts
  have found : (Program.read false "export @dec class A {}".toList).toOption.map (fun program =>
      (decide program.InOrder, program.places, program.statements.filterMap Node.item?)) =
      some (true, [⟨0, 7⟩], [.exportDeclaration ⟨0, 22⟩ 7 [("A", ⟨18, 19⟩)]]) := by
    decide +kernel
  rw [read] at found
  obtain ⟨order, found⟩ := Prod.mk.inj (Option.some.inj found)
  obtain ⟨places, items⟩ := Prod.mk.inj found
  have order := of_decide_eq_true order
  obtain ⟨value, exports, start⟩ :=
    Program.exports_of_declaration (items ▸ List.mem_singleton_self _)
  obtain ⟨introduced, behind, before⟩ := exported _ _ _ exports
  refine ⟨compiled, program, value, converts, read, exports, introduced, fun p => ?_⟩
  constructor
  · intro remains
    refine ⟨?_, ((remains_iff read).mp remains).1⟩
    rcases before with gone | ⟨disorder, -⟩
    · by_contra lt
      refine gone p ⟨Nat.zero_le _, ?_⟩ remains
      show p < value.span.start
      omega
    · exact absurd order disorder
  · rintro ⟨low, high⟩
    rcases behind p (start ▸ low) high with remains | ⟨range, taken, holds, -⟩
    · exact remains
    · -- the only range that is replaced is that of the word
      obtain ⟨place, mem, inside⟩ := (covers_program read order).covered range taken
      rw [places, List.mem_singleton] at mem
      subst mem
      have upper := (inside.holds holds).2
      dsimp only at upper
      omega

/-- An exported value need not remain as it is: an import at run time is replaced even if it is the
value.  Decorators between the word `default` and a value that is no class do not belong to it, so
they go with the word.  A complaint says so, but it is lost if an earlier statement is read again. -/
theorem exported_rewritten :
    (∃ compiled program value,
      convert false "export default import('./a')".toList = .ok compiled ∧
      Program.read false "export default import('./a')".toList = .ok program ∧
      program.Exports ⟨0, 28⟩ ["export", "default"] value ∧ value.span.start ≤ 15 ∧
      ¬ Remains "export default import('./a')".toList program 15) ∧
    ∃ compiled program value,
      convert false "await\n+1\nexport default @dec x".toList = .ok compiled ∧
      Program.read false "await\n+1\nexport default @dec x".toList = .ok program ∧
      program.Exports ⟨9, 30⟩ ["export", "default"] value ∧
      WordsAt "await\n+1\nexport default @dec x".toList ["export", "default"] 9 24 ∧
      ¬ Remains "await\n+1\nexport default @dec x".toList program 24 := by
  constructor
  · have run : (convert false "export default import('./a')".toList).toOption.isSome = true := by
      decide +kernel
    obtain ⟨compiled, converts⟩ := exists_ok_of_isSome run
    obtain ⟨program, read, -⟩ := read_of_convert converts
    have found : (Program.read false "export default import('./a')".toList).toOption.map
        (fun program =>
          (decide (∀ traced ∈ tracedCode "export default import('./a')".toList program,
            traced.origin ≠ some 15), program.statements.filterMap Node.item?)) =
        some (true, [.exportDefault ⟨0, 28⟩ ⟨7, 14⟩ 15 none]) := by
      decide +kernel
    rw [read] at found
    obtain ⟨gone, items⟩ := Prod.mk.inj (Option.some.inj found)
    obtain ⟨value, exports, start⟩ :=
      Program.exports_of_default (items ▸ List.mem_singleton_self _)
    refine ⟨compiled, program, value, converts, read, exports, start.le, ?_⟩
    rintro ⟨c, mem⟩
    exact of_decide_eq_true gone _ mem rfl
  · have run : (convert false
        "await\n+1\nexport default @dec x".toList).toOption.isSome = true := by
      decide +kernel
    obtain ⟨compiled, converts⟩ := exists_ok_of_isSome run
    obtain ⟨program, read, -⟩ := read_of_convert converts
    have found : (Program.read false "await\n+1\nexport default @dec x".toList).toOption.map
        (fun program => (decide (∀ traced ∈
            tracedCode "await\n+1\nexport default @dec x".toList program, traced.origin ≠ some 24),
          program.statements.filterMap Node.item?)) =
        some (true, [.exportDefault ⟨9, 30⟩ ⟨16, 23⟩ 29 none]) := by
      decide +kernel
    rw [read] at found
    obtain ⟨gone, items⟩ := Prod.mk.inj (Option.some.inj found)
    obtain ⟨value, exports, -⟩ := Program.exports_of_default (items ▸ List.mem_singleton_self _)
    refine ⟨compiled, program, value, converts, read, exports, ?_, ?_⟩
    · refine ⟨16, ⟨false, false, 15, ?_⟩, 24, ⟨false, false, 23, ?_⟩, rfl⟩
      · decide +kernel
      · decide +kernel
    · rintro ⟨c, mem⟩
      exact of_decide_eq_true gone _ mem rfl

end Conversion

end ModuleBundler

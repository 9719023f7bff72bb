/-
# ModuleBundler.Proofs.Script.Rereading — what the code of a conversion is read as.

A conversion writes its code statement by statement.  Whether a reader of the code finds these
statements again is up to the text: nothing is put in the place of a declaration that parts the
statements around it, and where one before it has no semicolon it goes on in the one behind
(`statements_merged`).  Where every statement that stays stands alone, whatever follows it, all of
them are read as what they are meant to be, one for one (`convert_statementwise`).
-/
import Mathlib
import ModuleBundler.Proofs.Conversion.Statementwise
import ModuleBundler.Proofs.Conversion.Trees
import ModuleBundler.Proofs.Script.Standalone

namespace ModuleBundler.Conversion

open Script

/-! ## Statements that stand alone -/

/-- The texts before, between and behind statements. -/
def gaps (text : List Char) (position : Nat) : List Node → List (List Char)
  | [] => [text.drop position]
  | node :: nodes =>
    Span.slice ⟨position, node.span.start⟩ text :: gaps text node.span.stop nodes

/-- Statements that stand alone are read as they are meant, one after the other. -/
theorem standalone_statementwise {text : List Char} {position : Nat} {nodes : List Node}
    (blank : ∀ gap ∈ gaps text position nodes, Standalone gap [])
    (alone : ∀ node ∈ nodes, Standalone (converted text node) (statementTrees node)) :
    Standalone (statementwise text position nodes) (nodes.flatMap statementTrees) := by
  induction nodes generalizing position with
  | nil => exact blank _ List.mem_cons_self
  | cons node nodes ih =>
    obtain ⟨before, behind⟩ := List.forall_mem_cons.mp blank
    obtain ⟨own, others⟩ := List.forall_mem_cons.mp alone
    exact (before.append own).append (ih behind others)

theorem defaultTrees_ne_nil (value : Node) : defaultTrees value ≠ [] := by
  unfold defaultTrees
  split <;> exact List.cons_ne_nil _ _

/-- A statement of which nothing stays is a declaration, and its edit takes out all of it. -/
theorem exists_edit_of_removed (text : List Char) {node : Node} (removed : statementTrees node = []) :
    ∃ item, node.items = [item] ∧ edit? text item = some (.replacing text node.span "") := by
  unfold statementTrees at removed
  split at removed
  · exact ⟨_, rfl, rfl⟩
  · exact ⟨_, rfl, rfl⟩
  · exact ⟨_, rfl, rfl⟩
  · cases removed
  · exact absurd removed (defaultTrees_ne_nil _)
  · split at removed
    · cases removed
    · exact absurd removed (defaultTrees_ne_nil _)
    · cases removed
  · cases removed

/-- A declaration of which nothing stays leaves line feeds. -/
theorem standalone_of_removed {text : List Char} {node : Node} (contained : node.Contained text)
    (removed : statementTrees node = []) : Standalone (converted text node) [] := by
  obtain ⟨item, own, isEdit⟩ := exists_edit_of_removed text removed
  have placed := placed_edits contained
  rw [Node.itemsOfAll, Node.itemsOfAll, List.append_nil] at placed
  unfold converted
  rw [own, List.filterMap_cons_some isEdit, List.filterMap_nil] at placed ⊢
  obtain ⟨-, ordered, -⟩ : _ ∧ node.span.start ≤ node.span.stop ∧ _ := Edit.Placed.cons placed
  have whole : Span.slice ⟨node.span.stop, node.span.stop⟩ text = [] := by
    rw [Span.slice, Nat.sub_self, List.take_zero]
  refine .of_blank fun c mem => Or.inl ?_
  unfold Edit.replacing at mem
  rw [spliceFrom_own rfl ordered, whole, List.append_nil] at mem
  obtain ⟨-, rfl⟩ := List.mem_replicate.mp mem
  rfl

/-- Before a script that is no module nothing is written. -/
theorem leading_opening {text : List Char} {program : Program}
    (leading : program.items.any ModuleItem.isDeclaration = true →
      Leading (opening text program) (prologueTrees program.items)) :
    Leading (opening text program) (prologueTrees program.items) := by
  by_cases isModule : program.items.any ModuleItem.isDeclaration = true
  · exact leading isModule
  · rw [opening, prologueTrees, if_neg isModule, if_neg isModule]
    exact Standalone.nil.leading

/-! ## Statement by statement -/

/-- A script whose statements follow one another is converted statement by statement: the text
between them stays as it is, and in the place of a statement in which nothing else is replaced
stands its outline.  Where all statements that stay stand alone as what they are meant to be, for
example because each ends in its own semicolon or brace, and nothing but blanks and comments stands
between statements, the code behind the line before it is read as these statements one for one,
and the whole code as that line and these statements, if the line is read as what it is meant to be
or the script is no module and has none.  A script that is no module and imports none is read again
as what it was. -/
theorem convert_statementwise {isTyped : Bool} {text : List Char} {compiled : CompiledModule}
    (converts : convert isTyped text = .ok compiled) :
    ∃ program, Program.read isTyped text = .ok program ∧
      (program.InOrder → compiled.code.toList =
        opening text program ++ statementwise text (textStart program) program.statements) ∧
      (∀ span form parts, .branch span form parts ∈ program.statements → form ≠ .dynamicImport →
        (∀ item ∈ Node.itemsOfAll parts, item.place? = none) →
          converted text (.branch span form parts) = outlined text (.branch span form parts)) ∧
      (program.InOrder → (∀ gap ∈ gaps text (textStart program) program.statements,
          Standalone gap []) →
        (∀ node ∈ program.statements, statementTrees node ≠ [] →
          Standalone (converted text node) (statementTrees node)) →
        Standalone (statementwise text (textStart program) program.statements)
            (program.statements.flatMap statementTrees) ∧
          ((program.items.any ModuleItem.isDeclaration = true →
              Leading (opening text program) (prologueTrees program.items)) → ∃ again,
            Program.read isTyped compiled.code.toList = .ok again ∧
              Node.shapes again.statements = trees program)) ∧
      (program.hashbang = none → (∀ item ∈ program.items, item.place? = none) →
        Program.read isTyped compiled.code.toList = .ok program) := by
  obtain ⟨program, read, -, isCode⟩ := read_of_convert converts
  refine ⟨program, read, fun order => ?_, fun span form parts mem immediate inner => ?_,
    fun order blank alone => ?_, fun none unplaced => ?_⟩
  · rw [isCode]
    exact code_eq_statementwise read order
  · exact converted_eq_outlined (Program.read_contained read _ mem) immediate inner
  · have body : Standalone (statementwise text (textStart program) program.statements)
        (program.statements.flatMap statementTrees) := by
      refine standalone_statementwise blank fun node mem => ?_
      by_cases removed : statementTrees node = []
      · rw [removed]
        exact standalone_of_removed (Program.read_contained read node mem) removed
      · exact alone node mem removed
    refine ⟨body, fun leading => ?_⟩
    have whole := (leading_opening leading).append body
    rw [← code_eq_statementwise read order, ← isCode] at whole
    refine Leading.exists_read whole ?_ isTyped
    rw [isCode]
    exact hashbangExtent_code read
  · rw [isCode, code_of_unplaced text none unplaced]
    exact read

/-- A name and a group, each of which ends in a semicolon. -/
theorem standalone_parts :
    Standalone "a;".toList [branch .expression [leaf (.name "a")]] ∧
      Standalone "(c);".toList [branch .expression [branch .paren [leaf (.name "c")]]] := by
  constructor
  · refine .of_run (by decide) ?_
    intro steps behind position newline stop comments namesAwait declarations groups
    conv in Grammar.readCount _ _ _ => cbv
    refine ⟨_, _, rfl, ⟨position + 2, false, ⟨?_, ?_, ?_, ?_, ?_, ?_, ?_, ?_⟩⟩, ?_, ?_⟩
    all_goals cbv
  · refine .of_run (by decide) ?_
    intro steps behind position newline stop comments namesAwait declarations groups
    conv in Grammar.readCount _ _ _ => cbv
    refine ⟨_, _, rfl, ⟨position + 4, false, ⟨?_, ?_, ?_, ?_, ?_, ?_, ?_, ?_⟩⟩, ?_, ?_⟩
    all_goals cbv

set_option maxRecDepth 4000 in
/-- The line before a module that loads another one. -/
theorem leading_requiring :
    Leading ("\"use strict\"; Object.defineProperty(exports, \"__esModule\", " ++
        "\x7b value: true \x7d); require('./b');\n").toList
      (beginTrees ++ [branch .expression [requireTree "./b"]]) := by
  -- the characters of a literal are known as they stand
  rw [String.toList_append, String.toList_ofList, String.toList_ofList]
  refine .of_run (by decide) ?_
  intro steps behind
  conv in Grammar.readCount _ _ _ => cbv
  refine ⟨_, _, rfl, ⟨93, true, ⟨?_, ?_, ?_, ?_, ?_, ?_, ?_, ?_⟩⟩, ?_, ?_⟩
  all_goals cbv

/-- A module with a declaration between two statements, each of which ends in a semicolon. -/
def parted : List Char :=
  "a;\nimport './b'\n(c);".toList

/-- What is written for it, and what that is meant to be. -/
theorem exists_read_parted : ∃ program, Program.read false parted = .ok program ∧
    program.InOrder ∧ (convert false parted).toOption.isSome = true ∧
    opening parted program = ("\"use strict\"; Object.defineProperty(exports, \"__esModule\", " ++
      "\x7b value: true \x7d); require('./b');\n").toList ∧
    prologueTrees program.items = beginTrees ++ [branch .expression [requireTree "./b"]] ∧
    gaps parted (textStart program) program.statements = [[], ['\n'], ['\n'], []] ∧
    program.statements.map (fun node => (converted parted node, statementTrees node)) =
      [("a;".toList, [branch .expression [leaf (.name "a")]]), ([], []),
        ("(c);".toList, [branch .expression [branch .paren [leaf (.name "c")]]])] := by
  have run : (Program.read false parted).toOption.any (fun program =>
      decide (program.statements.Pairwise fun node later => node.span.stop ≤ later.span.start) &&
      decide ((∀ node ∈ program.statements, node.span.start ≤ node.span.stop) ∧
        program.hashbang = none ∧ (convert false parted).toOption.isSome = true ∧
        opening parted program = ("\"use strict\"; Object.defineProperty(exports, " ++
          "\"__esModule\", \x7b value: true \x7d); require('./b');\n").toList ∧
        prologueTrees program.items = beginTrees ++ [branch .expression [requireTree "./b"]] ∧
        gaps parted (textStart program) program.statements = [[], ['\n'], ['\n'], []] ∧
        program.statements.map (fun node => (converted parted node, statementTrees node)) =
          [("a;".toList, [branch .expression [leaf (.name "a")]]), ([], []),
            ("(c);".toList, [branch .expression [branch .paren [leaf (.name "c")]]])])) =
        true := by
    decide +kernel
  obtain ⟨program, read, facts⟩ := (Option.any_eq_true _ _).mp run
  obtain ⟨apart, facts⟩ := Bool.and_eq_true_iff.mp facts
  obtain ⟨ordered, none, facts⟩ := of_decide_eq_true facts
  refine ⟨program, ok_of_toOption read, ⟨ordered, ?_, of_decide_eq_true apart⟩, facts⟩
  rw [none]
  exact fun span is => nomatch is

/-- A module whose statements end in semicolons is read as what is meant, also around a declaration
of which nothing stays. -/
theorem convert_statementwise_module :
    ∃ compiled program again, convert false parted = .ok compiled ∧
      Program.read false parted = .ok program ∧
      compiled.code.toList =
        opening parted program ++ statementwise parted (textStart program) program.statements ∧
      Program.read false compiled.code.toList = .ok again ∧
      Node.shapes again.statements = trees program ∧
      trees program = beginTrees ++ [branch .expression [requireTree "./b"],
        branch .expression [leaf (.name "a")],
        branch .expression [branch .paren [leaf (.name "c")]]] := by
  obtain ⟨own, readOwn, order, accepted, opens, loads, between, statements⟩ := exists_read_parted
  obtain ⟨compiled, converts⟩ := exists_ok_of_isSome accepted
  obtain ⟨program, read, written, -, alone, -⟩ := convert_statementwise converts
  obtain rfl : program = own := Except.ok.inj (read.symm.trans readOwn)
  obtain ⟨standsName, standsGroup⟩ := standalone_parts
  have blank : ∀ gap ∈ gaps parted (textStart program) program.statements, Standalone gap [] := by
    have lineFeeds : ∀ gap ∈ [[], ['\n'], ['\n'], []], ∀ c ∈ gap, c = '\n' := by simp
    rw [between]
    intro gap mem
    refine .of_blank fun c own => Or.inl ?_
    rw [lineFeeds gap mem c own]
    rfl
  have kept : ∀ node ∈ program.statements, statementTrees node ≠ [] →
      Standalone (converted parted node) (statementTrees node) := by
    intro node mem stays
    have listed : (converted parted node, statementTrees node) ∈ program.statements.map
        fun node => (converted parted node, statementTrees node) := List.mem_map_of_mem mem
    rw [statements] at listed
    simp only [List.mem_cons, List.not_mem_nil, or_false, Prod.mk.injEq] at listed
    rcases listed with ⟨isText, isTree⟩ | ⟨-, removed⟩ | ⟨isText, isTree⟩
    · rw [isText, isTree]
      exact standsName
    · exact absurd removed stays
    · rw [isText, isTree]
      exact standsGroup
  obtain ⟨-, whole⟩ := alone order blank kept
  rw [opens, loads] at whole
  obtain ⟨again, readAgain, same⟩ := whole fun _ => leading_requiring
  have meant : program.statements.flatMap statementTrees =
      [branch .expression [leaf (.name "a")],
        branch .expression [branch .paren [leaf (.name "c")]]] := by
    have trees := congrArg (List.flatMap Prod.snd) statements
    rwa [List.flatMap_map] at trees
  refine ⟨compiled, program, again, converts, read, written order, readAgain, same, ?_⟩
  rw [trees, loads, meant]
  rfl

/-- Two statements that a declaration parts become one where the first has no semicolon: the script
has two statements besides its import, the prologue has three, and the code has four. -/
theorem statements_merged :
    ∃ compiled program first again, convert false "a\nimport './b'\n(c)".toList = .ok compiled ∧
      Program.read false "a\nimport './b'\n(c)".toList = .ok program ∧
      Program.read false (opening "a\nimport './b'\n(c)".toList program) = .ok first ∧
      Program.read false compiled.code.toList = .ok again ∧
      (program.statements.filter (·.item?.isNone)).length = 2 ∧ first.statements.length = 3 ∧
      again.statements.length = 4 := by
  have run : ((convert false "a\nimport './b'\n(c)".toList).toOption.bind fun compiled =>
      (Program.read false "a\nimport './b'\n(c)".toList).toOption.bind fun program =>
        (Program.read false (opening "a\nimport './b'\n(c)".toList program)).toOption.bind
          fun first => (Program.read false compiled.code.toList).toOption.map fun again =>
            ((program.statements.filter (·.item?.isNone)).length, first.statements.length,
              again.statements.length)) = some (2, 3, 4) := by
    decide +kernel
  obtain ⟨compiled, converts, run⟩ := Option.bind_eq_some_iff.mp run
  obtain ⟨program, read, run⟩ := Option.bind_eq_some_iff.mp run
  obtain ⟨first, readFirst, run⟩ := Option.bind_eq_some_iff.mp run
  obtain ⟨again, readAgain, run⟩ := Option.map_eq_some_iff.mp run
  obtain ⟨others, run⟩ := Prod.mk.inj run
  obtain ⟨own, all⟩ := Prod.mk.inj run
  exact ⟨compiled, program, first, again, ok_of_toOption converts, ok_of_toOption read,
    ok_of_toOption readFirst, ok_of_toOption readAgain, others, own, all⟩

end ModuleBundler.Conversion

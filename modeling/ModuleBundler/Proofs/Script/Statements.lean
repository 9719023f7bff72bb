/-
# ModuleBundler.Proofs.Script.Statements — statements stand in a row.

The last production of the grammar.
-/
import ModuleBundler.Proofs.Script.Declarations
import ModuleBundler.Script.Grammar.Statement

namespace ModuleBundler.Script.Grammar

open Reader

/-! ## What is only looked at -/

theorem passes_atEach : Passes atEach :=
  (passes_atWord _).bind fun _ => (passes_atWord _).bind fun _ => .pure trivial

theorem passes_checkElementTarget (loop : LoopStart) (front : Token) (target : Node) :
    Passes (checkElementTarget loop front target) :=
  .ite (passes_complainAt _ _) (.pure trivial)

theorem passes_checkValues (keyword : String) (declarators : List Node) :
    Passes (declarators.forM (checkValue keyword)) := by
  induction declarators with
  | nil => exact .pure trivial
  | cons declarator declarators ih => exact (passes_checkValue _ _).bind fun _ => ih

theorem passes_eatLoopAwait : Passes eatLoopAwait := by
  have eaten : Passes (do advanceKeyword; return true) :=
    passes_advanceKeyword.bind fun _ => .pure trivial
  refine (passes_atWord _).bind fun found => .ite ?_ (.pure trivial)
  refine gives_get.passes.bind fun state => passes_position.bind fun start => .ite eaten ?_
  exact .ite ((passes_note _).bind fun _ => eaten) ((passes_complain _).bind fun _ => eaten)

theorem extends_checkPlace (place : Place) (isFree : Node → Bool) (node : Node) :
    Extends (checkPlace place isFree node) [node] fun node => [node] := by
  have rest : Extends (pure node) [node] fun node => [node] := .pure rfl
  exact .ite ((passes_complainAt _ _).then fun _ => rest) rest

section

variable {g : Grammar} (orderly : g.Orderly)

include orderly

theorem extends_condition : Extends (condition g) [] fun node => [node] := by
  refine (passes_expectMark _).then fun _ => (orderly.rows _).bind fun node => ?_
  exact (passes_expectMark _).then fun _ => .pure rfl

theorem extends_expressionStatement : Extends (expressionStatement g) [] fun node => [node] := by
  refine passes_position.then fun start => (orderly.rows _).bind fun node => ?_
  split
  · rename_i span label
    refine (passes_eatMark _).then fun labels => .ite ?_ ?_
    · have body : Extends (do
          let body ← g.read (.statement .alone)
          branch start (.labeled label) [body]) [] fun node => [node] :=
        (orderly.rows _).bind fun _ => extends_branch rfl
      exact body.replacing (.of_sublist (List.nil_sublist _))
    · exact passes_semicolon.then fun _ => extends_branch rfl
  · exact passes_semicolon.then fun _ => extends_branch rfl

theorem extends_variableStatement (keyword : String) (place : Place) :
    Extends (variableStatement g keyword place) [] fun node => [node] :=
  passes_position.then fun _ => (takes_endedVariables orderly _ _).rows.bind fun _ =>
    extends_checkPlace _ _ _

theorem extends_letStatement (place : Place) :
    Extends (letStatement g place) [] fun node => [node] := by
  refine passes_position.then fun start => passes_next.then fun next => ?_
  refine .ite ?_ (.ite ?_ (.ite ?_ ?_))
  · exact (orderly.rows _).bind fun node => passes_semicolon.then fun _ => extends_branch rfl
  · exact (orderly.rows _).bind fun node => extends_branch rfl
  · refine Extends.bind (extends_name fun _ _ isWord => isWord) fun node => ?_
    exact passes_semicolon.then fun _ => extends_branch rfl
  · exact extends_variableStatement orderly _ _

theorem extends_ifStatement : Extends (ifStatement g) [] fun node => [node] := by
  refine passes_position.then fun start => (passes_expectWord _).then fun _ => ?_
  refine (extends_condition orderly).bind fun test => (orderly.reads _ _).bind fun yes => ?_
  exact (passes_eatWord _).then fun found => .optional (orderly.rows _) fun no => extends_branch rfl

/-! ## Loops -/

theorem extends_operandBefore (mark : Mark) :
    Extends (operandBefore g mark) [] fun nodes => nodes := by
  refine (passes_eatMark _).then fun found => .ite (.pure rfl) ?_
  exact (orderly.rows _).withIn.bind fun node => (passes_expectMark _).then fun _ => .pure rfl

theorem extends_forFrom (loop : LoopStart) (first : List Node) :
    Extends (forFrom g loop first) first fun node => [node] := by
  have rest : Extends (do
      let test ← operandBefore g .semicolon
      let update ← operandBefore g .closeParen
      let body ← g.read (.statement .alone)
      branch loop.start .for (first ++ test ++ update ++ [body])) first fun node => [node] := by
    refine ((extends_operandBefore orderly _).behind _).bind fun test => ?_
    refine ((extends_operandBefore orderly _).behind _).bind fun update => ?_
    exact (orderly.reads _ _).bind fun body => extends_branch rfl
  refine .when (passes_complainAt _ _) fun _ => (passes_expectMark _).then fun _ => ?_
  split
  · exact (passes_checkValues _ _).then fun _ => rest
  · exact rest

theorem extends_forEach (loop : LoopStart) (target : Node) :
    Extends (forEach g loop target) [target] fun node => [node] := by
  refine (passes_atWord _).then fun isOf => .when (passes_complainAt _ _) fun _ => ?_
  refine passes_advanceKeyword.then fun _ => ?_
  refine .either (orderly.reads _ _) (orderly.reads _ _) fun operand => ?_
  refine (passes_expectMark _).then fun _ => (orderly.reads _ _).bind fun body => extends_branch ?_
  cases isOf <;> rfl

theorem extends_forVariables (loop : LoopStart) (keyword : String) :
    Extends (forVariables g loop keyword) [] fun node => [node] := by
  have declared := (takes_variableList orderly keyword true).rows
  refine .either declared declared.within fun first => ?_
  refine (passes_atWord _).then fun isIn => .when (passes_complainAt _ _) fun _ => ?_
  refine passes_atEach.then fun each => ?_
  exact .ite (extends_forEach orderly _ _) (extends_forFrom orderly _ _)

theorem extends_forExpression (loop : LoopStart) :
    Extends (forExpression g loop) [] fun node => [node] := by
  refine passes_token.then fun front => (orderly.rows _).within.bind fun first => ?_
  refine (passes_atWord _).then fun isOf => .when (passes_checkElementTarget _ _ _) fun _ => ?_
  refine passes_atEach.then fun each => .ite ?_ (extends_forFrom orderly _ _)
  exact (Node.gives_target first).then fun target is => (extends_forEach orderly _ _).replacing is

theorem extends_forStatement : Extends (forStatement g) [] fun node => [node] := by
  refine passes_position.then fun start => (passes_expectWord _).then fun _ => ?_
  refine passes_eatLoopAwait.then fun isAwait => (passes_expectMark _).then fun _ => ?_
  refine (passes_variablesAhead? _).then fun keyword => ?_
  split
  · exact extends_forVariables orderly _ _
  · refine (passes_atMark _).then fun bare => ?_
    exact .ite (extends_forFrom orderly _ []) (extends_forExpression orderly _)

/-! ## Other statements -/

theorem extends_switchCase : Extends (switchCase g) [] fun node => [node] := by
  refine passes_position.then fun start => (passes_eatWord _).then fun isDefault => ?_
  refine .ite ?_ ((passes_expectWord _).then fun _ => (orderly.rows _).bind fun test => ?_)
  all_goals
    refine (passes_expectMark _).then fun _ => ((Extends.many ?_).behind _).bind fun statements =>
      extends_branch rfl
    refine passes_token.then fun found => ?_
    split
    all_goals first
      | exact .pure rfl
      | exact (orderly.rows _).bind fun _ => .pure rfl

theorem extends_switchStatement : Extends (switchStatement g) [] fun node => [node] := by
  refine passes_position.then fun start => (passes_expectWord _).then fun _ => ?_
  refine (extends_condition orderly).bind fun subject => (passes_expectMark _).then fun _ => ?_
  refine ((Extends.many ?_).behind _).bind fun cases => extends_branch rfl
  refine (passes_eatMark _).then fun closes => .ite (.pure rfl) ?_
  exact (extends_switchCase orderly).bind fun case => .pure rfl

theorem extends_handler : Extends (handler g) [] fun nodes => nodes := by
  have caught (start : Nat) (parameter : List Node) : Extends (do
      let body ← braced g .block
      return [← branch start .catch (parameter ++ [body])]) parameter fun nodes => nodes := by
    refine ((extends_braced orderly rfl).behind _).bind fun body => ?_
    exact (extends_branch rfl).bind fun node => .pure rfl
  refine passes_position.then fun start => (passes_eatWord _).then fun found => ?_
  refine .ite ((passes_eatMark _).then fun opens => .ite ?_ (caught _ [])) (.pure rfl)
  exact (orderly.rows _).bind fun target => (passes_expectMark _).then fun _ => caught _ [target]

theorem extends_finalizer : Extends (finalizer g) [] fun nodes => nodes := by
  refine passes_position.then fun start => (passes_eatWord _).then fun found => .ite ?_ (.pure rfl)
  refine (extends_braced orderly rfl).bind fun body => ?_
  exact (extends_branch rfl).bind fun node => .pure rfl

theorem extends_tryStatement : Extends (tryStatement g) [] fun node => [node] := by
  refine passes_position.then fun start => (passes_expectWord _).then fun _ => ?_
  refine (extends_braced orderly rfl).bind fun block => ?_
  refine ((extends_handler orderly).behind _).bind fun handler => ?_
  refine ((extends_finalizer orderly).behind _).bind fun finalizer => ?_
  exact .when (passes_complainAt _ _) fun _ => extends_branch rfl

omit orderly in
theorem extends_jump {keyword : String} {form : Form} (plain : form.isPlain = true) :
    Extends (jump keyword form) [] fun node => [node] := by
  refine passes_position.then fun start => (passes_expectWord _).then fun _ => ?_
  refine passes_mayEnd.then fun ends => ?_
  refine .missing (extends_name fun _ _ _ => trivial) fun label => ?_
  exact passes_semicolon.then fun _ => extends_branch plain

theorem extends_returnStatement : Extends (returnStatement g) [] fun node => [node] := by
  have result (start : Nat) : Extends (do
      expectWord "return"
      let result ← if ← mayEnd then pure [] else pure [← withIn (g.read .expression)]
      semicolon
      branch start .return result) [] fun node => [node] := by
    refine (passes_expectWord _).then fun _ => passes_mayEnd.then fun ends => ?_
    refine .missing (orderly.rows _).withIn fun result => ?_
    exact passes_semicolon.then fun _ => extends_branch rfl
  refine passes_position.then fun start => gives_get.passes.then fun state => ?_
  exact .ite (result _) ((passes_complain _).then fun _ => result _)

theorem extends_throwStatement : Extends (throwStatement g) [] fun node => [node] := by
  refine passes_position.then fun start => (passes_expectWord _).then fun _ => ?_
  refine passes_afterNewline.then fun newline => .when (passes_complainAt _ _) fun _ => ?_
  exact (orderly.rows _).bind fun operand => passes_semicolon.then fun _ => extends_branch rfl

theorem extends_doStatement : Extends (doStatement g) [] fun node => [node] := by
  refine passes_position.then fun start => (passes_expectWord _).then fun _ => ?_
  refine (orderly.rows _).bind fun body => (passes_expectWord _).then fun _ => ?_
  refine ((extends_condition orderly).behind _).bind fun test => ?_
  exact (passes_eatMark _).then fun _ => extends_branch rfl

theorem extends_headedStatement {keyword : String} {form : Form} (plain : form.isPlain = true) :
    Extends (headedStatement g keyword form) [] fun node => [node] := by
  refine passes_position.then fun start => (passes_expectWord _).then fun _ => ?_
  refine (extends_condition orderly).bind fun operand => (orderly.reads _ _).bind fun body => ?_
  exact extends_branch plain

theorem extends_decoratedStatement (place : Place) :
    Extends (decoratedStatement g place) [] fun node => [node] := by
  refine passes_position.then fun start => (extends_decorators orderly).bind fun before => ?_
  refine (passes_atWord _).then fun found => .ite ?_ ?_
  · refine ((extends_exportDeclaration orderly _).behind _).bind fun exported => ?_
    refine ((extends_recorded exported).framed _).bind fun declaration => ?_
    refine .ite (extends_branch rfl) ?_
    have dropped : Extends (pure declaration) (before ++ [declaration]) fun node => [node] :=
      .replacing (.pure rfl) (.of_sublist (List.sublist_append_right _ _))
    split
    · exact (passes_complainAt _ _).then fun _ => dropped
    · exact dropped
  · exact (takes_classFrom orderly _ _ _).rows.bind fun node => extends_checkPlace _ _ _

theorem extends_wordStatement (place : Place) (word : String) (escaped : Bool) :
    Extends (wordStatement g place word escaped) [] fun node => [node] := by
  refine passes_position.then fun start => ?_
  split
  · exact extends_ifStatement orderly
  · exact extends_forStatement orderly
  · exact extends_headedStatement orderly rfl
  · exact extends_doStatement orderly
  · exact extends_headedStatement orderly rfl
  · exact extends_switchStatement orderly
  · exact extends_throwStatement orderly
  · exact extends_tryStatement orderly
  · exact (passes_expectWord _).then fun _ => passes_semicolon.then fun _ => extends_branch rfl
  · exact extends_jump rfl
  · exact extends_jump rfl
  · exact extends_returnStatement orderly
  · exact (takes_classFrom orderly _ _ _).rows.bind fun node => extends_checkPlace _ _ _
  · exact (takes_functionDeclaration orderly _ _).rows.bind fun node => extends_checkPlace _ _ _
  · exact (extends_exportDeclaration orderly _).bind extends_recorded
  · refine passes_next.then fun next => ?_
    split
    · exact extends_expressionStatement orderly
    · exact extends_expressionStatement orderly
    · exact (extends_importDeclaration g).bind extends_recorded
  · exact .ite (extends_expressionStatement orderly) (extends_letStatement orderly _)
  · refine passes_isAsyncFunctionAhead.then fun isAsync => .ite ?_ ?_
    · exact (takes_functionDeclaration orderly _ _).rows.bind fun node => extends_checkPlace _ _ _
    · refine (passes_variablesAhead? _).then fun keyword => ?_
      split
      · exact extends_variableStatement orderly _ _
      · exact extends_expressionStatement orderly

theorem extends_statement (place : Place) : Extends (statement g place) [] fun node => [node] := by
  refine passes_position.then fun start => passes_token.then fun found => ?_
  split
  · exact extends_wordStatement orderly _ _ _
  · exact extends_braced orderly rfl
  · exact passes_advance.then fun _ => extends_branch rfl
  · exact extends_decoratedStatement orderly _
  · exact extends_expressionStatement orderly

end

/-! ## Their ranges -/

section

variable {g : Grammar} {start : Nat}

theorem keeps_checkPlace {place : Place} {isFree : Node → Bool} (node : Node) :
    Keeps node (checkPlace place isFree node) := by
  have rest : Keeps node (pure node) := keeps_pure
  exact iteInduction (motive := Keeps node) (fun _ => .of_bind (peeks_complainAt _ _) fun _ => rest)
    fun _ => rest

theorem frames_braced {form : Form} : Frames start (braced g form) :=
  .at_position (Closes.frames (.of_bind fun _ => .of_bind fun _ => closes_branch))

theorem frames_expressionStatement : Frames start (expressionStatement g) := by
  refine .at_position (Closes.frames (.of_bind fun node => ?_))
  split
  · refine .of_bind fun labels => .ite (.of_bind fun _ => closes_branch) ?_
    exact .of_bind fun _ => closes_branch
  · exact .of_bind fun _ => closes_branch

theorem frames_variableStatement {keyword : String} {place : Place} :
    Frames start (variableStatement g keyword place) :=
  .at_position (closes_endedVariables.frames.keep keeps_checkPlace)

theorem frames_letStatement {place : Place} : Frames start (letStatement g place) := by
  refine .at_position (peeks_next.frames fun next => .ite ?_ (.ite ?_ (.ite ?_ ?_)))
  · exact Closes.frames (.of_bind fun _ => .of_bind fun _ => closes_branch)
  · exact Closes.frames (.of_bind fun _ => closes_branch)
  · exact Closes.frames (.of_bind fun _ => .of_bind fun _ => closes_branch)
  · exact frames_variableStatement

theorem frames_ifStatement : Frames start (ifStatement g) := by
  refine .at_position (Closes.frames (.of_bind fun _ => .of_bind fun _ => .of_bind fun _ => ?_))
  refine .of_bind fun found => .ite ?_ (.of_bind fun _ => closes_branch)
  exact .of_bind fun _ => .of_bind fun _ => closes_branch

theorem closes_forFrom {loop : LoopStart} {first : List Node} :
    Closes loop.start (forFrom g loop first) := by
  have rest : Closes loop.start (do
      let test ← operandBefore g .semicolon
      let update ← operandBefore g .closeParen
      let body ← g.read (.statement .alone)
      branch loop.start .for (first ++ test ++ update ++ [body])) :=
    .of_bind fun _ => .of_bind fun _ => .of_bind fun _ => closes_branch
  refine .ite (.of_bind fun _ => ?_) ?_
  all_goals
    refine .of_bind fun _ => ?_
    dsimp only
    split
    · exact .of_bind fun _ => rest
    · exact rest

theorem closes_forEach {loop : LoopStart} {target : Node} :
    Closes loop.start (forEach g loop target) := by
  have rest (isOf : Bool) : Closes loop.start (do
      advanceKeyword
      let operand ← if isOf then g.read .assignment else g.read .expression
      expectMark .closeParen
      let body ← g.read (.statement .alone)
      let form := if isOf then Form.forOf loop.isAwait else .forIn
      branch loop.start form [target, operand, body]) := by
    refine .of_bind fun _ => .ite ?_ ?_
    · exact .of_bind fun _ => .of_bind fun _ => .of_bind fun _ => closes_branch
    · exact .of_bind fun _ => .of_bind fun _ => .of_bind fun _ => closes_branch
  exact .of_bind fun isOf => .ite (.of_bind fun _ => rest _) (rest _)

theorem closes_forVariables {loop : LoopStart} {keyword : String} :
    Closes loop.start (forVariables g loop keyword) := by
  have rest (first : Node) : Closes loop.start (do
      if keyword == "using" && (← atWord "in") then
        complainAt first.span.start .misplacedWord
      if ← atEach then forEach g loop first else forFrom g loop [first]) := by
    have each : Closes loop.start (do
        if ← atEach then forEach g loop first else forFrom g loop [first]) :=
      .of_bind fun _ => .ite closes_forEach closes_forFrom
    exact .of_bind fun _ => .ite (.of_bind fun _ => each) each
  exact .ite (.of_bind rest) (.of_bind rest)

theorem closes_forExpression {loop : LoopStart} : Closes loop.start (forExpression g loop) := by
  refine .of_bind fun front => .of_bind fun first => .of_bind fun isOf => ?_
  have each : Closes loop.start (do
      if ← atEach then forEach g loop (← first.target) else forFrom g loop [first]) :=
    .of_bind fun _ => .ite (.of_bind fun _ => closes_forEach) closes_forFrom
  exact .ite (.of_bind fun _ => each) each

theorem frames_forStatement : Frames start (forStatement g) := by
  refine .at_position (Closes.frames (.of_bind fun _ => .of_bind fun isAwait => ?_))
  refine .of_bind fun _ => .of_bind fun keyword => ?_
  split
  · exact closes_forVariables
  · exact .of_bind fun bare => .ite closes_forFrom closes_forExpression

theorem frames_switchStatement : Frames start (switchStatement g) :=
  .at_position (Closes.frames (.of_bind fun _ => .of_bind fun _ => .of_bind fun _ =>
    .of_bind fun _ => closes_branch))

theorem frames_tryStatement : Frames start (tryStatement g) := by
  refine .at_position (Closes.frames (.of_bind fun _ => .of_bind fun _ => .of_bind fun _ => ?_))
  exact .of_bind fun _ => .ite (.of_bind fun _ => closes_branch) closes_branch

theorem frames_jump {keyword : String} {form : Form} : Frames start (jump keyword form) := by
  refine .at_position (Closes.frames (.of_bind fun _ => .of_bind fun ends => .ite ?_ ?_))
  · exact .of_bind fun _ => .of_bind fun _ => closes_branch
  · exact .of_bind fun _ => .of_bind fun _ => .of_bind fun _ => closes_branch

theorem frames_returnStatement : Frames start (returnStatement g) := by
  have result : Closes start (do
      expectWord "return"
      let result ← if ← mayEnd then pure [] else pure [← withIn (g.read .expression)]
      semicolon
      branch start .return result) := by
    refine .of_bind fun _ => .of_bind fun ends => .ite ?_ ?_
    · exact .of_bind fun _ => .of_bind fun _ => closes_branch
    · exact .of_bind fun _ => .of_bind fun _ => .of_bind fun _ => closes_branch
  exact .at_position (Closes.frames (.of_bind fun _ => .ite result (.of_bind fun _ => result)))

theorem frames_throwStatement : Frames start (throwStatement g) := by
  have thrown : Closes start (do
      let operand ← g.read .expression
      semicolon
      branch start .throw [operand]) :=
    .of_bind fun _ => .of_bind fun _ => closes_branch
  refine .at_position (Closes.frames (.of_bind fun _ => .of_bind fun newline => ?_))
  exact .ite (.of_bind fun _ => thrown) thrown

theorem frames_doStatement : Frames start (doStatement g) :=
  .at_position (Closes.frames (.of_bind fun _ => .of_bind fun _ => .of_bind fun _ =>
    .of_bind fun _ => .of_bind fun _ => closes_branch))

theorem frames_headedStatement {keyword : String} {form : Form} :
    Frames start (headedStatement g keyword form) :=
  .at_position (Closes.frames (.of_bind fun _ => .of_bind fun _ => .of_bind fun _ => closes_branch))

theorem frames_wordStatement {place : Place} {word : String} {escaped : Bool} :
    Frames start (wordStatement g place word escaped) := by
  refine .at_position ?_
  split
  · exact frames_ifStatement
  · exact frames_forStatement
  · exact frames_headedStatement
  · exact frames_doStatement
  · exact frames_headedStatement
  · exact frames_switchStatement
  · exact frames_throwStatement
  · exact frames_tryStatement
  · exact Closes.frames (.of_bind fun _ => .of_bind fun _ => closes_branch)
  · exact frames_jump
  · exact frames_jump
  · exact frames_returnStatement
  · exact closes_classFrom.frames.keep keeps_checkPlace
  · exact closes_functionDeclaration.frames.keep keeps_checkPlace
  · exact frames_exportDeclaration.keep keeps_recorded
  · refine peeks_next.frames fun next => ?_
    split
    · exact frames_expressionStatement
    · exact frames_expressionStatement
    · exact frames_importDeclaration.keep keeps_recorded
  · exact .ite frames_expressionStatement frames_letStatement
  · refine peeks_isAsyncFunctionAhead.frames fun isAsync => .ite ?_ ?_
    · exact closes_functionDeclaration.frames.keep keeps_checkPlace
    · refine (peeks_variablesAhead? _).frames fun keyword => ?_
      split
      · exact frames_variableStatement
      · exact frames_expressionStatement

theorem contained_exportDeclaration (orderly : g.Orderly) (before : List Node) :
    GivesIn text (exportDeclaration g before) (Node.Contained text) :=
  (extends_exportDeclaration orderly _).contained fun _ => frames_exportDeclaration

/-- Decorators before the export of names are dropped, and what is left begins behind them. -/
theorem contained_decoratedStatement (orderly : g.Orderly) (place : Place) :
    GivesIn text (decoratedStatement g place) (Node.Contained text) := by
  intro state node next sound run
  obtain ⟨onward, rows⟩ :=
    extends_decoratedStatement orderly place state.position _ _ _ sound (Nat.le_refl _) run
  refine ⟨onward, ?_⟩
  have framed (span : node.span = ⟨state.position, next.previousStop⟩) : node.Contained text := by
    unfold Node.Contained
    rw [span]
    exact rows .nil
  obtain ⟨start, _, first, second⟩ := bind_ok run
  cases first
  obtain ⟨before, between, third, fourth⟩ := bind_ok second
  obtain ⟨onward', -⟩ := (extends_decorators orderly).passes _ _ _ sound third
  obtain ⟨isExport, _, fifth, sixth⟩ := bind_ok fourth
  obtain ⟨onward'', -⟩ := passes_atWord _ _ _ _ onward'.sound fifth
  split at sixth
  · obtain ⟨exported, _, seventh, eighth⟩ := bind_ok sixth
    obtain ⟨-, contained⟩ := contained_exportDeclaration orderly _ _ _ _ onward''.sound seventh
    obtain ⟨declaration, _, ninth, last⟩ := bind_ok eighth
    cases (keeps_recorded exported).makes _ _ _ ninth
    split at last
    · exact framed (closes_branch _ _ _ last)
    · -- the range does not cover the decorators, but the export is contained without them
      have dropped : node = exported := by
        have returns : Makes (pure exported) (· = exported) := .pure rfl
        split at last
        · obtain ⟨_, _, -, returned⟩ := bind_ok last
          exact returns _ _ _ returned
        · exact returns _ _ _ last
      rw [dropped]
      exact contained
  · obtain ⟨found, _, seventh, last⟩ := bind_ok sixth
    have kept : Keeps found (checkPlace place (fun _ => false) found) := keeps_checkPlace found
    refine framed ?_
    rw [kept.makes _ _ _ last, closes_classFrom _ _ _ seventh, (kept.peeks _ _ _ last).2]

/-- A statement stands inside of its range. -/
theorem contained_statement (orderly : g.Orderly) (place : Place) :
    GivesIn text (statement g place) (Node.Contained text) := by
  refine passes_position.inText.bind fun start _ => passes_token.inText.bind fun found _ => ?_
  split
  · exact (extends_wordStatement orderly _ _ _).contained fun _ => frames_wordStatement
  · exact (extends_braced orderly rfl).contained fun _ => frames_braced
  · -- a lone semicolon has no parts that could reach out of it
    refine passes_advance.inText.bind fun _ _ state node next sound run => ?_
    cases run
    exact ⟨sound.onward, (Row.branch rfl).mpr .nil⟩
  · exact contained_decoratedStatement orderly _
  · exact (extends_expressionStatement orderly).contained fun _ => frames_expressionStatement

end

end ModuleBundler.Script.Grammar

/-
# ModuleBundler.Proofs.Script.Expressions — expressions and declarations stand in a row.

An expression that turns out to be a target is converted node by node, and the conversion keeps the
ranges: patterns stand where the arrays and objects stood that they were read as.
-/
import ModuleBundler.Proofs.Script.Operands
import ModuleBundler.Script.Grammar.Declaration

namespace ModuleBundler.Script

open Reader

/-! ## Targets -/

namespace Node

theorem passes_checkComma (comma : Option Nat) : Passes (checkComma comma) := by
  cases comma with
  | none => exact .pure trivial
  | some comma => exact passes_complainAt _ _

theorem gives_targetElement {plain : Reader Node} {node : Node}
    (h : Gives plain fun found => Replaces [found] [node]) :
    Gives (targetElement plain node) fun found => Replaces [found] [node] := by
  unfold targetElement
  split
  · exact .pure (.branch rfl (.parts rfl))
  · exact .pure (.refl _)
  · exact h

mutual

/-- A target stands where the expression stood. -/
theorem gives_target (node : Node) : Gives (target node) fun found => Replaces [found] [node] := by
  unfold target
  split
  · exact .pure (.refl _)
  · exact .pure (.refl _)
  · exact .pure (.refl _)
  · rename_i span comma parts
    refine (gives_targetElements comma parts).bind fun nodes targets => .pure ?_
    exact .branch rfl (targets.trans (.parts rfl))
  · rename_i span comma parts
    refine (gives_targetProperties comma parts).bind fun nodes targets => .pure ?_
    exact .branch rfl (targets.trans (.parts rfl))
  · rename_i span inner
    refine .ite (refuses_failAt _ _).bind.gives ?_
    refine (gives_target inner).bind fun node is => .pure ?_
    exact .branch rfl (is.trans (.parts rfl))
  · exact (refuses_failAt _ _).gives
  · exact (refuses_failAt _ _).gives
termination_by (sizeOf node, 0)

theorem gives_targetElements (comma : Option Nat) (nodes : List Node) :
    Gives (targetElements comma nodes) fun found => Replaces found nodes := by
  unfold targetElements
  split
  · exact .pure (.refl _)
  · rename_i span inner nodes
    split
    · rename_i none
      refine (gives_target inner).bind fun rest is => (passes_checkComma _).bind fun _ => ?_
      rw [List.isEmpty_iff.mp none]
      exact .pure (.branch rfl (is.trans (.parts rfl)))
    · exact (refuses_failAt _ _).bind.gives
  · rename_i node nodes _
    refine (gives_targetElement (gives_target node)).bind fun found is => ?_
    exact (gives_targetElements comma nodes).bind fun others are => .pure (is.cons are)
termination_by (sizeOf nodes, 0)

theorem gives_targetProperties (comma : Option Nat) (nodes : List Node) :
    Gives (targetProperties comma nodes) fun found => Replaces found nodes := by
  unfold targetProperties
  split
  · exact .pure (.refl _)
  · rename_i span inner nodes
    split
    · rename_i none
      rw [List.isEmpty_iff.mp none]
      refine (gives_target inner).bind fun rest is => .when (passes_complainAt _ _) fun _ => ?_
      exact (passes_checkComma _).bind fun _ => .pure (.branch rfl (is.trans (.parts rfl)))
    · exact (refuses_failAt _ _).bind.gives
  · rename_i node nodes _
    refine (gives_targetProperty node).bind fun found is => ?_
    exact (gives_targetProperties comma nodes).bind fun others are => .pure (is.cons are)
termination_by (sizeOf nodes, 0)

theorem gives_targetProperty (node : Node) :
    Gives (targetProperty node) fun found => Replaces [found] [node] := by
  unfold targetProperty
  split
  · rename_i span parts
    refine (gives_targetValue parts).bind fun value is => .pure ?_
    exact .branch rfl (is.trans (.parts rfl))
  · exact .pure (.refl _)
  · exact .pure (.branch rfl (.branch rfl (.parts rfl)))
  · exact (refuses_failAt _ _).gives
termination_by (sizeOf node, 1)

theorem gives_targetValue (nodes : List Node) :
    Gives (targetValue nodes) fun found => Replaces found nodes := by
  unfold targetValue
  split
  · exact .pure (.refl _)
  · exact (gives_targetElement (gives_target _)).bind fun found is => .pure is
  · rename_i key nodes _
    exact (gives_targetValue nodes).bind fun others are => .pure ((Replaces.refl _).cons are)
termination_by (sizeOf nodes, 0)

end

theorem passes_checkCounted (node : Node) : Passes (checkCounted node) := by
  refine .ite (refuses_failAt _ _).bind.gives ?_
  exact (gives_target node).passes.bind fun _ => .pure trivial

end Node

namespace Grammar

/-! ## What is only looked at -/

theorem peeks_isOperandAhead (followers : List String) : Peeks (isOperandAhead followers) := by
  refine peeks_next.bind fun next => .ite .pure ?_
  split <;> exact .pure

theorem peeks_awaits : Peeks awaits := by
  refine (peeks_atWord _).bind fun found => .ite ?_ .pure
  exact peeks_get.bind fun state => .ite .pure (peeks_isOperandAhead _)

theorem peeks_yields : Peeks yields := by
  refine (peeks_atWord _).bind fun found => .ite ?_ .pure
  exact peeks_get.bind fun state => .ite .pure (peeks_isOperandAhead _)

theorem passes_operatorAhead? : Passes operatorAhead? := by
  refine passes_token.bind fun found => ?_
  split
  · exact .pure trivial
  · exact .pure trivial
  · exact gives_get.passes.bind fun state => .pure trivial
  · exact .pure trivial

theorem passes_checkOperands (start : Nat) (operator : String) (left right : Node)
    (leftIsGroup rightIsGroup : Bool) :
    Passes (checkOperands start operator left right leftIsGroup rightIsGroup) :=
  .when (passes_complainAt _ _) fun _ => .ite (passes_complainAt _ _) (.pure trivial)

theorem passes_checkValue (keyword : String) (declarator : Node) :
    Passes (checkValue keyword declarator) := by
  unfold checkValue
  split
  · exact .ite (passes_complainAt _ _) (.pure trivial)
  · exact passes_complainAt _ _
  · exact .pure trivial

theorem passes_checkUsing (declarator : Node) (inLoop : Bool) :
    Passes (checkUsing declarator inLoop) := by
  unfold checkUsing
  dsimp only
  split
  · refine (passes_complainAt _ _).bind fun _ => ?_
    split
    · exact .ite (.pure trivial) (passes_complainAt _ _)
    · exact .pure trivial
  · split
    · exact .ite (.pure trivial) (passes_complainAt _ _)
    · exact .pure trivial

theorem peeks_declaresLet : Peeks declaresLet := by
  refine peeks_next.bind fun next => ?_
  split <;> exact .pure

theorem peeks_declaresUsing (inLoop : Bool) : Peeks (declaresUsing inLoop) := by
  refine peeks_ahead.bind fun (first, second) => ?_
  dsimp only
  split <;> exact .pure

theorem peeks_variablesAhead? (inLoop : Bool) : Peeks (variablesAhead? inLoop) := by
  refine peeks_token.bind fun found => ?_
  split
  · exact .pure
  · exact .pure
  · exact peeks_declaresLet.bind fun _ => .pure
  · exact (peeks_declaresUsing _).bind fun _ => .pure
  · refine peeks_next.bind fun next => ?_
    split <;> exact .pure
  · exact .pure

theorem passes_variablesAhead? (inLoop : Bool) : Passes (variablesAhead? inLoop) :=
  (peeks_variablesAhead? inLoop).passes

section

variable {g : Grammar} (orderly : g.Orderly)

include orderly

/-! ## Operators -/

theorem takes_awaitExpression (first : Nat) :
    Takes (awaitExpression g first) [] fun node => [node] := by
  refine passes_position.takes fun start => gives_get.passes.takes fun state => ?_
  have rest : Takes (do
      advanceKeyword
      let operand ← within (fun around => { around with canAwait := true }) (g.read (.unary first))
      branch start .await [operand]) [] fun node => [node] :=
    consumes_advanceKeyword.takes fun _ => (orderly.rows _).within.bind fun _ => extends_branch rfl
  refine .ite rest (.ite ?_ ?_)
  · exact (passes_note _).takes fun _ => rest
  · exact (passes_complain _).takes fun _ => rest

theorem takes_yieldExpression : Takes (yieldExpression g) [] fun node => [node] := by
  refine passes_position.takes fun start => gives_get.passes.takes fun state => ?_
  refine .ite ?_ ((passes_complain _).takes fun _ => ?_)
  all_goals
    refine consumes_advanceKeyword.takes fun _ => passes_afterNewline.then fun newline => ?_
    refine .ite (extends_branch rfl) ((passes_eatMark _).then fun delegates => ?_)
    refine passes_token.then fun found => ?_
    extract_lets -underBinder operand
    have read (isBare : Bool) : Extends (operand isBare) [] fun node => [node] :=
      .ite (extends_branch rfl) ((orderly.rows _).within.bind fun _ => extends_branch rfl)
    split
    all_goals first
      | exact read true
      | exact read false

theorem takes_trailing (first : Nat) : Takes (trailing g first) [] fun node => [node] := by
  have counted (operator : Mark) (operand : Node) : Extends (do
      advance
      operand.checkCounted
      branch first (.update operator false) [operand]) [operand] fun node => [node] :=
    passes_advance.then fun _ => (Node.passes_checkCounted _).then fun _ => extends_branch rfl
  refine (takes_chain orderly _).bind fun operand => passes_afterNewline.then fun newline => ?_
  refine .ite (.pure rfl) (passes_token.then fun found => ?_)
  split
  · exact counted _ _
  · exact counted _ _
  · exact .pure rfl

theorem takes_counted (first : Nat) (operator : Mark) :
    Takes (counted g first operator) [] fun node => [node] := by
  refine consumes_advance.takes fun _ => (orderly.rows _).bind fun operand => ?_
  exact (Node.passes_checkCounted _).then fun _ => extends_branch rfl

theorem takes_unary (first : Nat) : Takes (unary g first) [] fun node => [node] := by
  refine passes_position.takes fun start => ?_
  have led : Takes (do
      let operator ← written
      advanceKeyword
      let operand ← g.read (.unary (← position))
      branch start (.unary operator) [operand]) [] fun node => [node] := by
    refine passes_written.takes fun operator => consumes_advanceKeyword.takes fun _ => ?_
    exact passes_position.then fun _ => (orderly.rows _).bind fun _ => extends_branch rfl
  refine passes_token.takes fun found => ?_
  split
  all_goals first
    | exact led
    | exact takes_counted orderly _ _
    | skip
  refine peeks_awaits.passes.takes fun isAwait => ?_
  exact .ite (takes_awaitExpression orderly _) (takes_trailing orderly _)

theorem extends_operators (level start : Nat) (leftIsGroup : Bool) {steps : Nat} {left : Node} :
    Extends (operators g level start leftIsGroup steps left) [left] fun node => [node] := by
  induction steps generalizing left with
  | zero => exact (refuses_fail _).extends
  | succ steps ih =>
    refine passes_operatorAhead?.then fun found => ?_
    split
    · exact .pure rfl
    refine .ite (.pure rfl) (passes_advanceKeyword.then fun _ => (passes_atMark _).then fun _ => ?_)
    refine (orderly.reads _ _).bind fun right => (passes_checkOperands _ _ _ _ _ _).then fun _ => ?_
    exact (extends_branch rfl).bind fun node => ih

omit orderly in
theorem takes_privateOperand (level : Nat) (text : String) :
    Takes (privateOperand level text) [] fun node => [node] := by
  refine gives_get.passes.takes fun state => .ite ?_ refuses_unexpected.bind.takes
  refine Takes.bind ⟨extends_key _, consumes_atom _⟩ fun node => ?_
  refine (passes_atWord _).then fun found => ?_
  exact .unless refuses_unexpected (.pure rfl)

theorem takes_binary (level : Nat) : Takes (binary g level) [] fun node => [node] := by
  refine passes_position.takes fun start => (passes_atMark _).takes fun isGroup => ?_
  refine passes_token.takes fun found => ?_
  dsimp only
  split
  · exact (takes_privateOperand _ _).bind fun left => extends_operators orderly _ _ _
  · exact (takes_unary orderly _).bind fun left => extends_operators orderly _ _ _

/-! ## Assignments -/

theorem extends_assignmentFrom (start : Nat) (left : Node) :
    Extends (assignmentFrom g start left) [left] fun node => [node] := by
  refine passes_token.then fun found => ?_
  split
  · exact (takes_arrowBehind orderly _ _ _).rows.replacing .binding
  · refine passes_advance.then fun _ => (orderly.reads _ _).withIn.bind fun yes => ?_
    refine (passes_expectMark _).then fun _ => (orderly.reads _ _).bind fun no => ?_
    exact extends_branch rfl
  · refine .ite ((Node.gives_target left).then fun target is => ?_) (.pure rfl)
    refine .replacing (passes_advance.then fun _ => ?_) is
    exact (orderly.reads _ _).bind fun value => extends_branch rfl
  · exact .pure rfl

theorem takes_operand : Takes (do
    let start ← position
    if ← isAsyncNameAhead then
      advanceKeyword
      arrowBehind g start true (← name .binding)
    else
      let left ← binary g 0
      assignmentFrom g start left) [] fun node => [node] := by
  refine passes_position.takes fun start => peeks_isAsyncNameAhead.passes.takes fun isAsync => ?_
  refine .ite (consumes_advanceKeyword.takes fun _ => extends_binding.bind fun parameter => ?_) ?_
  · exact (takes_arrowBehind orderly _ _ _).rows
  · exact (takes_binary orderly _).bind fun left => extends_assignmentFrom orderly _ _

theorem takes_assignment : Takes (assignment g) [] fun node => [node] := by
  refine peeks_yields.passes.takes fun isYield => .ite (takes_yieldExpression orderly) ⟨?_, ?_⟩
  · refine (extends_arrowFunction? orderly).bind fun found => ?_
    cases found with
    | some function => exact .pure rfl
    | none => exact (takes_operand orderly).rows
  · intro state node next text sound run
    obtain ⟨found, between, first, second⟩ := bind_ok run
    obtain ⟨onward, -⟩ := (extends_arrowFunction? orderly).passes _ _ _ sound first
    have place := arrowFunction?_place orderly sound first
    cases found with
    | some function =>
      cases second
      exact ⟨onward, place.2⟩
    | none =>
      obtain ⟨onward', consumed⟩ := (takes_operand orderly).consumes _ _ _ onward.sound second
      exact ⟨onward.trans onward', Nat.le_trans (Nat.le_of_eq place.symm) consumed⟩

theorem extends_expression : Extends (expression g) [] fun node => [node] := by
  refine passes_position.then fun start => (orderly.rows _).bind fun first => ?_
  refine (passes_atMark _).then fun found => .ite ?_ (.pure rfl)
  refine ((Extends.many ?_).behind _).bind fun others => extends_branch rfl
  refine (passes_eatMark _).then fun found => .ite ?_ (.pure rfl)
  exact (orderly.rows _).bind fun other => .pure rfl

/-! ## Declarations -/

theorem extends_declarator (keyword : String) (inLoop : Bool) :
    Extends (declarator g keyword inLoop) [] fun node => [node] := by
  refine passes_position.then fun start => (orderly.rows _).bind fun target => ?_
  refine (passes_eatMark _).then fun found => .optional (orderly.rows _) fun value => ?_
  refine (extends_branch rfl).bind fun node => ?_
  refine .ite ((passes_checkUsing _ _).then fun _ => .pure rfl) (.ite (.pure rfl) ?_)
  exact (passes_checkValue _ _).then fun _ => .pure rfl

theorem takes_variableList (keyword : String) (inLoop : Bool) :
    Takes (variableList g keyword inLoop) [] fun node => [node] := by
  refine passes_position.takes fun start => (passes_eatWord _).takes fun _ => ?_
  refine (consumes_expectWord _).takes fun _ => ?_
  refine (extends_declarator orderly _ _).bind fun first => ?_
  refine ((Extends.many ?_).behind _).bind fun others => extends_branch rfl
  refine (passes_eatMark _).then fun found => .ite ?_ (.pure rfl)
  exact (extends_declarator orderly _ _).bind fun other => .pure rfl

omit orderly in
theorem makes_variableList (keyword : String) (inLoop : Bool) :
    Makes (variableList g keyword inLoop) fun node => Replaces node.parts [node] :=
  .of_bind fun _ => .of_bind fun _ => .of_bind fun _ => .of_bind fun _ => .of_bind fun _ =>
    makes_branch fun _ => .parts rfl

theorem takes_endedVariables (start : Nat) (keyword : String) :
    Takes (endedVariables g start keyword) [] fun node => [node] := by
  have parts := (takes_variableList orderly keyword false).remade (makes_variableList _ _)
  exact parts.bind fun node => passes_semicolon.then fun _ => extends_branch rfl

end

end Grammar

end ModuleBundler.Script

/-
# ModuleBundler.Proofs.Script.Beginnings — where operands begin.

An exported value begins behind the words that export it.  What it begins with is read deep inside
of it: operators and members are put around the operand before them, and begin where it begins.
-/
import ModuleBundler.Proofs.Script.Expressions

namespace ModuleBundler.Script.Grammar

open Reader

variable {g : Grammar} {start : Nat}

/-! ## Operands -/

/-- A construct that begins with the lexeme at the front. -/
theorem starts_front {rest : ReaderState → Reader Node}
    (h : ∀ state, Opens state.position (rest state)) : Starts start (get >>= rest) := by
  intro state node next text sound is run
  obtain ⟨_, _, first, second⟩ := bind_ok run
  cases first
  exact is ▸ h _ _ _ _ second

theorem opens_leaf {span : Span} {leaf : Leaf} :
    Opens span.start (pure (Node.leaf span leaf)) :=
  .pure ⟨rfl, rfl⟩

theorem starts_template (isTagged : Bool) : Starts start (template g isTagged) := by
  refine .at_position (Opens.starts (.of_bind fun (chunk, isLast) => ?_))
  refine .ite (opens_branch fun _ => rfl) (.of_bind fun _ => .of_bind fun closes => .ite ?_ ?_)
  · exact .of_bind fun _ => .of_bind fun _ => opens_branch fun _ => rfl
  · exact .of_bind fun _ => opens_branch fun _ => rfl

theorem starts_parenthesized : Starts start (parenthesized g) := by
  refine .at_position (Opens.starts (.of_bind fun _ => .of_bind fun innerStart => ?_))
  refine .of_bind fun (items, comma) => ?_
  have closed (inner : Node) : Opens start (do
      expectMark .closeParen
      branch start .paren [inner]) :=
    .of_bind fun _ => opens_branch fun _ => rfl
  dsimp only
  split
  · exact (refuses_failAt _ _).bind.makes
  · split
    · exact closed _
    · exact .of_bind closed

theorem opens_importArguments : Opens start (importArguments g start) := by
  refine .of_bind fun _ => .of_bind fun closes => .ite (refuses_failAt _ _).bind.makes ?_
  refine .of_bind fun parts => .of_bind fun _ => .of_bind fun closes => ?_
  exact .ite (opens_branch fun _ => rfl) (refuses_failAt _ _).bind.makes

theorem starts_importOperand : Starts start (importOperand g) := by
  refine .at_position (Opens.starts (.of_bind fun _ => .of_bind fun dotted => .ite ?_ ?_))
  · refine .of_bind fun isMeta => .ite (.of_bind fun _ => opens_branch fun _ => rfl) ?_
    refine .of_bind fun source => .of_bind fun defer => ?_
    exact .ite opens_importArguments (refuses_failAt _ _).bind.makes
  · exact .of_bind fun opens => .ite opens_importArguments refuses_unexpected.bind.makes

theorem starts_superOperand : Starts start superOperand := by
  refine .at_position (starts_front fun state => .of_bind fun _ => .of_bind fun found => ?_)
  dsimp only
  split
  all_goals first
    | exact opens_leaf
    | exact .of_bind fun _ => opens_leaf

theorem starts_wordOperand (word : String) : Starts start (wordOperand g word) := by
  have literal : Starts start (do
      let text ← written
      let span := (← get).lexeme.span
      advanceKeyword
      return .leaf span (.atom text)) :=
    peeks_written.starts fun text => starts_front fun state => .of_bind fun _ => opens_leaf
  refine .at_position ?_
  split
  · exact literal
  · exact literal
  · exact literal
  · exact literal
  · exact opens_functionFrom.starts
  · exact opens_classFrom.starts
  · exact starts_importOperand
  · exact starts_superOperand
  · refine peeks_isAsyncFunctionAhead.starts fun isAsync => .ite ?_ starts_name
    exact Opens.starts (.of_bind fun _ => opens_functionFrom)

theorem starts_regex : Starts start (do rescanRegex; atom .atom) := by
  intro state node next text sound is run
  obtain ⟨_, middle, first, second⟩ := bind_ok run
  obtain ⟨onward, -⟩ := passes_rescanRegex _ _ _ sound first
  cases first
  exact starts_atom _ _ _ onward.sound ((Scan.regex_begins _ _ _).start.trans is) second

theorem starts_primary : Starts start (primary g) := by
  refine .at_position (peeks_token.starts fun found => ?_)
  split
  · exact starts_wordOperand _
  · exact starts_atom
  · exact starts_atom
  · exact starts_template _
  · exact starts_parenthesized
  · exact Opens.starts (.of_bind fun _ => .of_bind fun (parts, comma) => opens_branch fun _ => rfl)
  · exact Opens.starts (.of_bind fun _ => .of_bind fun (parts, comma) => opens_branch fun _ => rfl)
  · exact starts_regex
  · exact starts_regex
  · exact Opens.starts (.of_bind fun before => opens_classFrom)
  · exact refuses_unexpected.starts

theorem opens_optionalMember {object : Node} :
    Opens start (optionalMember g start object) :=
  .of_bind fun _ => .of_bind fun _ => .ite (.of_bind fun _ => opens_branch fun _ => rfl)
    (.of_bind fun _ => opens_branch fun _ => rfl)

theorem opens_tagged {tag : Node} {isChain : Bool} : Opens start (tagged g start tag isChain) :=
  .of_bind fun _ => .ite (.of_bind fun _ => opens_branch fun _ => rfl) (opens_branch fun _ => rfl)

theorem starts_newOperand : Starts start (newOperand g) := by
  refine .at_position (Opens.starts (.of_bind fun _ => .of_bind fun dotted => .ite ?_ ?_))
  · exact .of_bind fun isTarget => .ite (opens_branch fun _ => rfl) (refuses_failAt _ _).bind.makes
  · refine .of_bind fun callee => .of_bind fun opens => .ite ?_ ?_
    · exact .of_bind fun arguments => .of_bind fun _ => opens_branch fun _ => rfl
    · exact .of_bind fun arguments => .of_bind fun _ => opens_branch fun _ => rfl

theorem starts_head : Starts start (head g) :=
  (peeks_atWord _).starts fun _ => .ite starts_newOperand starts_primary

theorem makes_tail {calls : Bool} {steps : Nat} {node : Node} {isChain : Bool}
    (begun : node.Begins start) :
    Makes (tail g calls start steps node isChain) fun found => found.1.Begins start := by
  induction steps generalizing node isChain with
  | zero => exact (refuses_fail _).makes
  | succ steps ih =>
    have done (isChain : Bool) : Makes (pure (node, isChain) : Reader (Node × Bool)) fun found =>
        found.1.Begins start :=
      .pure begun
    have grown {reader : Reader Node} (h : Opens start reader) (isChain : Bool) : Makes (do
        let node ← reader
        tail g calls start steps node isChain) fun found => found.1.Begins start :=
      .bind h fun node begun => ih begun
    have call (isOptional isChain : Bool) : Makes (do
        let node ← branch start (.call isOptional) (node :: (← arguments g))
        tail g calls start steps node isChain) fun found => found.1.Begins start :=
      .of_bind fun _ => grown (opens_branch fun _ => rfl) _
    refine .of_bind fun state => .of_bind fun found => ?_
    split
    · exact .of_bind fun _ => .of_bind fun name => grown (opens_branch fun _ => rfl) _
    · refine .ite (done _) (.of_bind fun isMember => .ite ?_ ?_)
      · exact grown opens_optionalMember _
      refine .ite (.of_bind fun _ => .of_bind fun found => ?_) (done _)
      split
      · exact call _ _
      · exact grown opens_tagged _
      · exact refuses_unexpected.makes
    · exact .ite (done _) (.of_bind fun key => grown (opens_branch fun _ => rfl) _)
    · exact .ite (call _ _) (done _)
    · exact .of_bind fun isTemplate => .ite (grown opens_tagged _) (done _)
    · exact done _

theorem starts_chain (calls : Bool) : Starts start (chain g calls) := by
  refine .at_position (starts_head.bind fun node begun => ?_)
  refine .bind (makes_tail begun) fun (node, isChain) begun => ?_
  exact .ite (opens_branch fun _ => rfl) (.pure begun)

/-! ## Operators and assignments -/

theorem starts_trailing : Starts start (trailing g start) := by
  have counted (operator : Mark) (operand : Node) : Makes (do
      advance
      operand.checkCounted
      branch start (.update operator false) [operand]) fun node => node.Begins start :=
    .of_bind fun _ => .of_bind fun _ => opens_branch fun _ => rfl
  refine (starts_chain _).bind fun operand begun => .of_bind fun newline => ?_
  refine .ite (.pure begun) (.of_bind fun found => ?_)
  split
  · exact counted _ _
  · exact counted _ _
  · exact .pure begun

theorem opens_counted {operator : Mark} : Opens start (counted g start operator) :=
  .of_bind fun _ => .of_bind fun _ => .of_bind fun _ => opens_branch fun _ => rfl

theorem starts_awaitExpression {first : Nat} : Starts start (awaitExpression g first) := by
  have rest : Opens start (do
      advanceKeyword
      let operand ← within (fun around => { around with canAwait := true }) (g.read (.unary first))
      branch start .await [operand]) :=
    .of_bind fun _ => .of_bind fun _ => opens_branch fun _ => rfl
  refine .at_position (Opens.starts (.of_bind fun state => ?_))
  exact .ite rest (.ite (.of_bind fun _ => rest) (.of_bind fun _ => rest))

theorem starts_unary : Starts start (unary g start) := by
  have led : Opens start (do
      let operator ← written
      advanceKeyword
      let operand ← g.read (.unary (← position))
      branch start (.unary operator) [operand]) :=
    .of_bind fun _ => .of_bind fun _ => .of_bind fun _ => .of_bind fun _ =>
      opens_branch fun _ => rfl
  refine .at_position (peeks_token.starts fun found => ?_)
  split
  all_goals first
    | exact led.starts
    | exact opens_counted.starts
    | skip
  exact peeks_awaits.starts fun isAwait => .ite starts_awaitExpression starts_trailing

theorem makes_operators {level steps : Nat} {leftIsGroup : Bool} {left : Node}
    (begun : left.Begins start) :
    Makes (operators g level start leftIsGroup steps left) fun node => node.Begins start := by
  induction steps generalizing left with
  | zero => exact (refuses_fail _).makes
  | succ steps ih =>
    refine .of_bind fun found => ?_
    split
    · exact .pure begun
    refine .ite (.pure begun) (.of_bind fun _ => .of_bind fun _ => .of_bind fun right => ?_)
    exact .of_bind fun _ => .bind (opens_branch fun _ => rfl) fun node begun => ih begun

theorem starts_privateOperand {level : Nat} {text : String} :
    Starts start (privateOperand level text) := by
  refine peeks_get.starts fun state => .ite ?_ refuses_unexpected.bind.starts
  refine starts_atom.bind fun node begun => .of_bind fun found => ?_
  exact .ite (.pure begun) refuses_unexpected.bind.makes

theorem starts_binary {level : Nat} : Starts start (binary g level) := by
  refine .at_position ((peeks_atMark _).starts fun isGroup => peeks_token.starts fun found => ?_)
  dsimp only
  split
  · exact starts_privateOperand.bind fun left begun => makes_operators begun
  · exact starts_unary.bind fun left begun => makes_operators begun

theorem makes_assignmentFrom {left : Node} (begun : left.Begins start) :
    Makes (assignmentFrom g start left) fun node => node.Begins start := by
  refine .of_bind fun found => ?_
  split
  · exact opens_arrowBehind
  · refine .of_bind fun _ => .of_bind fun yes => .of_bind fun _ => .of_bind fun no => ?_
    exact opens_branch fun _ => rfl
  · refine .ite (.of_bind fun target => .of_bind fun _ => .of_bind fun value => ?_) (.pure begun)
    exact opens_branch fun _ => rfl
  · exact .pure begun

theorem starts_yieldExpression : Starts start (yieldExpression g) := by
  refine .at_position (Opens.starts (.of_bind fun state => .ite ?_ (.of_bind fun _ => ?_)))
  all_goals
    refine .of_bind fun _ => .of_bind fun newline => .ite (opens_branch fun _ => rfl) ?_
    refine .of_bind fun star => .of_bind fun found => ?_
    extract_lets -underBinder operand
    have read (isBare : Bool) : Opens start (operand isBare) :=
      .ite (opens_branch fun _ => rfl) (.of_bind fun _ => opens_branch fun _ => rfl)
    split
    all_goals first
      | exact read true
      | exact read false

theorem starts_operand : Starts start (do
    let start ← position
    if ← isAsyncNameAhead then
      advanceKeyword
      arrowBehind g start true (← name .binding)
    else
      let left ← binary g 0
      assignmentFrom g start left) := by
  refine .at_position (peeks_isAsyncNameAhead.starts fun isAsync => .ite ?_ ?_)
  · exact Opens.starts (.of_bind fun _ => .of_bind fun _ => opens_arrowBehind)
  · exact starts_binary.bind fun left begun => makes_assignmentFrom begun

theorem starts_assignment (orderly : g.Orderly) : Starts start (assignment g) := by
  refine peeks_yields.starts fun isYield => .ite starts_yieldExpression ?_
  intro state node next text sound is run
  obtain ⟨found, between, first, second⟩ := bind_ok run
  obtain ⟨onward, -⟩ := (extends_arrowFunction? orderly).passes _ _ _ sound first
  have place := arrowFunction?_place orderly sound first
  cases found with
  | some function =>
    cases second
    exact is ▸ place.1
  | none => exact starts_operand _ _ _ onward.sound (place.trans is) second

/-! ## Declarations of variables -/

theorem closes_endedVariables {keyword : String} : Closes start (endedVariables g start keyword) :=
  .of_bind fun _ => .of_bind fun _ => closes_branch

end ModuleBundler.Script.Grammar

/-
# ModuleBundler.Proofs.Script.Operands — operands, members and calls stand in a row.

Two constructs have ranges that a conversion looks at.  A string stands where its lexeme does, which
only the state tells.  An import at run time that names its module takes all of its range; otherwise
it stands where its arguments do.
-/
import ModuleBundler.Proofs.Script.Functions
import ModuleBundler.Script.Grammar.Arrow

namespace ModuleBundler.Script.Grammar

open Reader

/-! ## What is only looked at -/

theorem passes_atTemplate : Passes atTemplate :=
  gives_get.passes.bind fun _ => .pure trivial

theorem peeks_canStandAlone (lexeme : Lexeme) : Peeks (canStandAlone lexeme) := by
  refine peeks_get.bind fun state => ?_
  dsimp only
  split <;> exact .pure

theorem peeks_isAsyncFunctionAhead : Peeks isAsyncFunctionAhead := by
  refine peeks_token.bind fun found => ?_
  split
  · refine peeks_next.bind fun next => ?_
    split <;> exact .pure
  · exact .pure

theorem passes_isAsyncFunctionAhead : Passes isAsyncFunctionAhead :=
  peeks_isAsyncFunctionAhead.passes

theorem passes_isMemberAhead : Passes isMemberAhead := by
  refine passes_next.bind fun next => ?_
  split <;> exact .pure trivial

theorem passes_checkCallee (start : Nat) (callee : Node) : Passes (checkCallee start callee) := by
  unfold checkCallee
  split
  · exact passes_complainAt _ _
  · exact passes_complainAt _ _
  · exact .pure trivial

section

variable {g : Grammar} (orderly : g.Orderly)

include orderly

/-! ## Lists and templates -/

theorem extends_spreadOrAssignment : Extends (spreadOrAssignment g) [] fun node => [node] := by
  refine passes_position.then fun start => ?_
  refine (passes_eatMark _).then fun found => .ite ?_ (orderly.rows _)
  exact (orderly.rows _).bind fun operand => extends_branch rfl

theorem extends_arguments : Extends (arguments g) [] fun nodes => nodes := by
  refine (passes_expectMark _).then fun _ => ?_
  exact (extends_spreadOrAssignment orderly).list.bracketed.bind fun items => .pure rfl

omit orderly in
theorem takes_templateChunk (isTagged : Bool) :
    Takes (templateChunk isTagged) [] fun found => [found.1] := by
  have chunk (isLast : Bool) : Takes (do return (← atom .atom, isLast)) []
      fun found => [found.1] :=
    takes_literal.bind fun node => .pure rfl
  refine passes_token.takes fun found => ?_
  split
  · exact .ite (chunk _) ((passes_complain _).takes fun _ => chunk _)
  · exact refuses_unexpected.takes

theorem extends_templateFrom (isTagged : Bool) {steps : Nat} {before : List Node} :
    Extends (templateFrom g isTagged steps before) before.reverse fun nodes => nodes := by
  induction steps generalizing before with
  | zero => exact (refuses_fail _).extends
  | succ steps ih =>
    refine passes_token.then fun found => ?_
    extract_lets -underBinder more
    have read (isChunk : Bool) : Extends (more isChunk) before.reverse fun nodes => nodes := by
      refine .ite ?_ ?_
      · refine ((takes_templateChunk _).rows.behind _).bind fun found => ?_
        rw [← List.reverse_cons]
        exact .ite (.pure rfl) ih
      · refine passes_token.then fun found => .ite (refuses_fail _).bind.extends ?_
        refine ((orderly.rows _).bracketed.behind _).bind fun substitution => ?_
        rw [← List.reverse_cons]
        refine (passes_atMark _).then fun closes => ?_
        exact .when passes_rescanChunk fun _ => ih
    split
    · exact passes_atTemplate.then fun isTemplate => read (!isTemplate)
    · exact read false

theorem takes_template (isTagged : Bool) : Takes (template g isTagged) [] fun node => [node] := by
  refine passes_position.takes fun start => ?_
  refine (takes_templateChunk _).bind fun (chunk, isLast) => .ite (extends_branch rfl) ?_
  refine ((orderly.rows _).bracketed.behind _).bind fun substitution => ?_
  refine (passes_atMark _).then fun closes => .when passes_rescanChunk fun _ => ?_
  exact (extends_templateFrom orderly isTagged).bind fun nodes => extends_branch rfl

theorem extends_element : Extends (element g) [] fun node => [node] := by
  refine passes_position.then fun start => ?_
  refine (passes_atMark _).then fun found => ?_
  exact .ite (extends_leaf trivial rfl) (extends_spreadOrAssignment orderly)

/-! ## Objects -/

theorem extends_propertyFrom (start : Nat) {front : Lexeme} {key : Node}
    (isKey : IsKey front key) (isAlone : Bool) :
    Extends (propertyFrom g start front key isAlone) [key] fun node => [node] := by
  refine (passes_atMark _).then fun found => ?_
  split
  · rename_i text escaped is _
    have named : Extends (do
        if ← eatMark .assign then
          let value ← g.read .assignment
          branch start .shorthandDefault [.leaf front.span (.name text), value]
        else branch start .shorthand [.leaf front.span (.name text)])
        [.leaf front.span (.name text)] fun node => [node] := by
      refine (passes_eatMark _).then fun found => .ite ?_ (extends_branch rfl)
      exact (orderly.reads _ _).bind fun value => extends_branch rfl
    exact named.replacing (isKey.name _ _ is)
  · refine (passes_expectMark _).then fun _ => ?_
    exact (orderly.reads _ _).bind fun value => extends_branch rfl

theorem extends_objectMember : Extends (objectMember g) [] fun node => [node] := by
  refine passes_position.then fun start => ?_
  refine (passes_eatMark _).then fun found => .ite ?_ ?_
  · exact (orderly.rows _).bind fun operand => extends_branch rfl
  refine (passes_modifiers _ _).then fun modifiers => ?_
  refine passes_eatAccessor.then fun kind => ?_
  refine .decided (passes_eatMark _) (.pure trivial) fun isGenerator => ?_
  refine extends_keyedBehind orderly (fun _ => peeks_canStandAlone _) ?_
  intro state isAlone key isKey
  refine .ite ?_ ?_
  · exact (passes_refuseModifiers _ _).then fun _ => extends_methodFrom orderly _ [] _ _ _ _ _
  refine (passes_atMark _).then fun opens => .ite ?_ ?_
  · exact (passes_refuseModifiers _ _).then fun _ => extends_methodFrom orderly _ [] _ _ _ _ _
  · exact (passes_refuseModifiers _ _).then fun _ => extends_propertyFrom orderly _ isKey _

/-! ## Operands -/

theorem takes_parenthesized : Takes (parenthesized g) [] fun node => [node] := by
  refine passes_position.takes fun start => ?_
  refine (consumes_expectMark _).takes fun _ => ?_
  refine passes_position.then fun innerStart => ?_
  have items : Extends (do
      if ← eatMark .closeParen then failAt start .missingArrow
      if ← atEnd then fail .unexpectedToken
      separated .closeParen (g.read .assignment) g.steps []) [] fun found => found.1 := by
    refine (passes_eatMark _).then fun closes => .ite (refuses_failAt _ _).bind.extends ?_
    refine passes_atEnd.then fun ends => .ite (refuses_fail _).bind.extends ?_
    exact (orderly.rows _).separated
  refine items.bracketed.bind fun (items, comma) => ?_
  have closed (inner : Node) : Extends (do
      expectMark .closeParen
      branch start .paren [inner]) [inner] fun node => [node] :=
    (passes_expectMark _).then fun _ => extends_branch rfl
  dsimp only
  split
  · exact (refuses_failAt _ _).bind.extends
  · split
    · exact closed _
    · exact (extends_branch rfl).bind closed

theorem completes_importArguments (start anchor : Nat) :
    Completes start start anchor [] (importArguments g start) := by
  refine (passes_expectMark _).completes fun _ => ?_
  refine (passes_atMark _).completes fun closes => ?_
  refine .ite (refuses_failAt _ _).bind.completes ?_
  have parts : Extends (do
      let source ← g.read .assignment
      let hasOptions ← if ← eatMark .comma then pure !(← atMark .closeParen) else pure false
      let options ← if hasOptions then pure [← g.read .assignment] else pure []
      return source :: options) [] fun nodes => nodes := by
    refine (orderly.rows _).bind fun source => (passes_eatMark _).then fun comma => ?_
    have options (hasOptions : Bool) : Extends (do
        let options ← if hasOptions then pure [← g.read .assignment] else pure []
        return source :: options) [source] fun nodes => nodes :=
      .optional (orderly.rows _) fun options => .pure rfl
    exact .ite ((passes_atMark _).then fun closes => options (!closes)) (options false)
  refine parts.withIn.completes fun parts => ?_
  refine (passes_eatMark _).completes fun _ => (passes_eatMark _).completes fun closes => ?_
  exact .ite (completes_branch fun text stop le le' row => row.dynamicImport le)
    (refuses_failAt _ _).bind.completes

theorem takes_importOperand : Takes (importOperand g) [] fun node => [node] := by
  refine (consumes_expectWord _).completed fun start _ => ?_
  refine (passes_eatMark _).completes fun dotted => .ite ?_ ?_
  · refine (passes_eatWord _).completes fun isMeta => .ite ?_ ?_
    · exact (passes_note _).completes fun _ => (extends_branch rfl).completed
    · refine (passes_eatWord _).completes fun source => (passes_eatWord _).completes fun defer => ?_
      exact .ite (completes_importArguments orderly _ _) (refuses_failAt _ _).bind.completes
  · refine (passes_atMark _).completes fun opens => ?_
    exact .ite (completes_importArguments orderly _ _) refuses_unexpected.bind.completes

omit orderly in
theorem takes_superOperand : Takes superOperand [] fun node => [node] := by
  refine passes_position.takes fun start => gives_get.passes.takes fun state => ?_
  refine consumes_advanceKeyword.takes fun _ => passes_token.then fun found => ?_
  have super : Extends (pure (.leaf state.lexeme.span (.atom "super"))) [] fun node => [node] :=
    extends_leaf trivial rfl
  dsimp only
  split
  all_goals first
    | exact super
    | exact (passes_complainAt _ _).then fun _ => super

theorem takes_wordOperand (word : String) : Takes (wordOperand g word) [] fun node => [node] := by
  have literal : Takes (do
      let text ← written
      let span := (← get).lexeme.span
      advanceKeyword
      return .leaf span (.atom text)) [] fun node => [node] := by
    refine passes_written.takes fun text => gives_get.passes.takes fun state => ?_
    exact consumes_advanceKeyword.takes fun _ => extends_leaf trivial rfl
  refine passes_position.takes fun start => ?_
  split
  · exact literal
  · exact literal
  · exact literal
  · exact literal
  · exact takes_functionFrom orderly _ _ _ _
  · exact takes_classFrom orderly _ _ _
  · exact takes_importOperand orderly
  · exact takes_superOperand
  · refine passes_isAsyncFunctionAhead.takes fun isAsync => .ite ?_ ?_
    · exact consumes_advanceKeyword.takes fun _ => (takes_functionFrom orderly _ _ _ _).rows
    · exact ⟨extends_name fun _ _ isWord => isWord, consumes_name _⟩

theorem takes_array (start : Nat) : Takes (do
    advance
    let (parts, comma) ← bracketed (list g.steps .closeBracket (element g))
    branch start (.array comma) parts) [] fun node => [node] := by
  refine consumes_advance.takes fun _ => ?_
  exact (extends_element orderly).list.bracketed.bind fun (parts, comma) => extends_branch rfl

theorem takes_object (start : Nat) : Takes (do
    advance
    let (parts, comma) ← bracketed (list g.steps .closeBrace (objectMember g))
    branch start (.object comma) parts) [] fun node => [node] := by
  refine consumes_advance.takes fun _ => ?_
  exact (extends_objectMember orderly).list.bracketed.bind fun (parts, comma) => extends_branch rfl

omit orderly in
theorem takes_regex : Takes (do rescanRegex; atom .atom) [] fun node => [node] :=
  passes_rescanRegex.takes fun _ => takes_literal

theorem takes_decoratedClass (start : Nat) : Takes (do
    let before ← decorators g
    classFrom g start before false) [] fun node => [node] :=
  ⟨(extends_decorators orderly).bind fun _ => (takes_classFrom orderly _ _ _).rows,
    (extends_decorators orderly).passes.consumes fun _ => (takes_classFrom orderly _ _ _).consumes⟩

theorem extends_primary : Extends (primary g) [] fun node => [node] := by
  refine passes_position.then fun start => ?_
  refine .of_token (fun found other => ?_) fun low state value node next text sound le is run => ?_
  · split
    · exact (takes_wordOperand orderly _).rows
    · exact absurd rfl (other _)
    · exact takes_literal.rows
    · exact (takes_template orderly _).rows
    · exact (takes_parenthesized orderly).rows
    · exact (takes_array orderly _).rows
    · exact (takes_object orderly _).rows
    · exact takes_regex.rows
    · exact takes_regex.rows
    · exact (takes_decoratedClass orderly _).rows
    · exact refuses_unexpected.extends
  · exact extends_atom_string sound le is run

theorem takes_primary : Takes (primary g) [] fun node => [node] := by
  refine ⟨extends_primary orderly, passes_position.consumes fun start => ?_⟩
  refine passes_token.consumes fun found => ?_
  split
  · exact (takes_wordOperand orderly _).consumes
  · exact consumes_atom _
  · exact consumes_atom _
  · exact (takes_template orderly _).consumes
  · exact (takes_parenthesized orderly).consumes
  · exact (takes_array orderly _).consumes
  · exact (takes_object orderly _).consumes
  · exact takes_regex.consumes
  · exact takes_regex.consumes
  · exact (takes_decoratedClass orderly _).consumes
  · exact refuses_unexpected.consumes

/-! ## Members and calls -/

omit orderly in
theorem extends_memberName : Extends memberName [] fun node => [node] := by
  refine passes_token.then fun found => ?_
  split
  · exact extends_key _
  · exact extends_key _
  · exact refuses_unexpected.extends

theorem extends_memberKey : Extends (memberKey g) [] fun node => [node] := by
  refine (passes_expectMark _).then fun _ => (orderly.rows _).bracketed.bind fun key => ?_
  exact (passes_expectMark _).then fun _ => .pure rfl

theorem extends_optionalMember (start : Nat) (object : Node) :
    Extends (optionalMember g start object) [object] fun node => [node] := by
  refine (passes_expectMark _).then fun _ => (passes_atMark _).then fun isIndex => .ite ?_ ?_
  · exact ((extends_memberKey orderly).behind _).bind fun key => extends_branch rfl
  · exact (extends_memberName.behind _).bind fun name => extends_branch rfl

theorem extends_tagged (start : Nat) (tag : Node) (isChain : Bool) :
    Extends (tagged g start tag isChain) [tag] fun node => [node] := by
  refine ((takes_template orderly _).rows.behind _).bind fun template => ?_
  exact .when (passes_complainAt _ _) fun _ => extends_branch rfl

theorem extends_tail (calls : Bool) (start : Nat) {steps : Nat} {node : Node} {isChain : Bool} :
    Extends (tail g calls start steps node isChain) [node] fun found => [found.1] := by
  induction steps generalizing node isChain with
  | zero => exact (refuses_fail _).extends
  | succ steps ih =>
    have call (isOptional isChain : Bool) : Extends (do
        let node ← branch start (.call isOptional) (node :: (← arguments g))
        tail g calls start steps node isChain) [node] fun found => [found.1] :=
      ((extends_arguments orderly).behind _).bind fun arguments =>
        (extends_branch rfl).bind fun node => ih
    have tag (before after : Bool) : Extends (do
        let node ← tagged g start node before
        tail g calls start steps node after) [node] fun found => [found.1] :=
      (extends_tagged orderly _ _ _).bind fun node => ih
    refine gives_get.passes.then fun state => passes_token.then fun found => ?_
    split
    · refine passes_advance.then fun _ => (extends_memberName.behind _).bind fun name => ?_
      exact (extends_branch rfl).bind fun node => ih
    · refine .ite (.pure rfl) (passes_isMemberAhead.then fun isMember => .ite ?_ ?_)
      · exact (extends_optionalMember orderly _ _).bind fun node => ih
      refine .ite (passes_advance.then fun _ => passes_token.then fun found => ?_) (.pure rfl)
      split
      · exact call _ _
      · exact tag _ _
      · exact refuses_unexpected.extends
    · refine .ite (.pure rfl) (((extends_memberKey orderly).behind _).bind fun key => ?_)
      exact (extends_branch rfl).bind fun node => ih
    · exact .ite (call _ _) (.pure rfl)
    · exact passes_atTemplate.then fun isTemplate => .ite (tag _ _) (.pure rfl)
    · exact .pure rfl

theorem takes_newOperand : Takes (newOperand g) [] fun node => [node] := by
  refine passes_position.takes fun start => (consumes_expectWord _).takes fun _ => ?_
  refine (passes_eatMark _).then fun dotted => .ite ?_ ?_
  · refine (passes_eatWord _).then fun isTarget => ?_
    exact .unless (refuses_failAt _ _) (extends_branch rfl)
  · refine (orderly.rows _).bind fun callee => (passes_atMark _).then fun opens => ?_
    refine .either ((extends_arguments orderly).behind _) (.pure rfl) fun arguments => ?_
    exact (passes_checkCallee _ _).then fun _ => extends_branch rfl

theorem takes_head : Takes (head g) [] fun node => [node] :=
  (passes_atWord _).takes fun _ => .ite (takes_newOperand orderly) (takes_primary orderly)

theorem takes_chain (calls : Bool) : Takes (chain g calls) [] fun node => [node] := by
  refine passes_position.takes fun start => (takes_head orderly).bind fun node => ?_
  refine (extends_tail orderly _ _).bind fun (node, isChain) => ?_
  exact .ite (extends_branch rfl) (.pure rfl)

/-! ## Functions with an arrow -/

omit orderly in
theorem peeks_guess : Peeks guess := by
  refine peeks_token.bind fun found => ?_
  split
  · exact peeks_look _
  · exact peeks_next.bind fun next => .ite .pure (peeks_look _)
  · exact .pure

omit orderly in
theorem consumes_expectArrow : Consumes expectArrow :=
  passes_afterNewline.consumes fun _ => .ite
    ((passes_complain _).consumes fun _ => consumes_expectMark _) (consumes_expectMark _)

omit orderly in
theorem peeks_isAsyncNameAhead : Peeks isAsyncNameAhead := by
  refine peeks_token.bind fun found => ?_
  split
  · exact peeks_ahead.bind fun _ => .pure
  · exact .pure

theorem takes_arrowHead : Takes (arrowHead g) [] fun head => [head.parameters] := by
  refine passes_position.takes fun start => (passes_eatWord _).takes fun isAsync => ?_
  refine (takes_parameters orderly).within.bind fun parameters => ?_
  exact consumes_expectArrow.passes.then fun _ => .pure rfl

theorem extends_arrowBody (head : ArrowHead) :
    Extends (arrowBody g head) [head.parameters] fun node => [node] := by
  have body : Extends (do if ← atMark .openBrace then functionBody g else g.read .assignment) []
      fun node => [node] :=
    (passes_atMark _).then fun _ => .ite (extends_functionBody orderly) (orderly.rows _)
  exact (body.within.behind _).bind fun body => extends_branch rfl

omit orderly in
theorem opens_arrowBody (head : ArrowHead) : Opens head.start (arrowBody g head) :=
  .of_bind fun _ => opens_branch fun _ => rfl

theorem takes_arrowBehind (start : Nat) (isAsync : Bool) (parameter : Node) :
    Takes (arrowBehind g start isAsync parameter) [parameter] fun node => [node] := by
  refine consumes_expectArrow.takes fun _ => ?_
  exact (extends_arrowBody orderly ⟨start, isAsync, .branch parameter.span .parameters
    [parameter]⟩).replacing (.branch rfl (.refl _))

omit orderly in
theorem opens_arrowBehind {start : Nat} {isAsync : Bool} {parameter : Node} :
    Opens start (arrowBehind g start isAsync parameter) :=
  .of_bind fun _ => opens_arrowBody _

theorem takes_promisingHead : Takes (promisingHead g) [] fun head => [head.parameters] := by
  refine (takes_arrowHead orderly).bind fun head => passes_atEnd.then fun ends => ?_
  exact .ite (refuses_fail _).bind.extends (.pure rfl)

theorem extends_arrowFunction? : Extends (arrowFunction? g) [] Option.toList := by
  have function (head : ArrowHead) : Extends (do return some (← arrowBody g head))
      [head.parameters] Option.toList :=
    (extends_arrowBody orderly head).bind fun node => .pure rfl
  refine peeks_guess.passes.then fun guess => ?_
  split
  · exact .pure rfl
  · exact (takes_arrowHead orderly).rows.bind function
  · refine passes_position.then fun start => gives_get.passes.then fun state => ?_
    refine .ite (.pure rfl) ?_
    refine (extends_attempt (takes_promisingHead orderly).rows).bind fun found => ?_
    cases found with
    | some head => exact function head
    | none => exact (passes_note _).then fun _ => .pure rfl

omit orderly in
theorem starts_arrowHead {state next : ReaderState} {head : ArrowHead}
    (run : arrowHead g state = .ok head next) : head.start = state.position := by
  obtain ⟨start, _, first, second⟩ := bind_ok run
  cases first
  obtain ⟨isAsync, _, -, third⟩ := bind_ok second
  obtain ⟨parameters, _, -, fourth⟩ := bind_ok third
  obtain ⟨_, _, -, last⟩ := bind_ok fourth
  cases last
  rfl

omit orderly in
theorem starts_promisingHead {state next : ReaderState} {head : ArrowHead}
    (run : promisingHead g state = .ok head next) : head.start = state.position := by
  obtain ⟨found, between, first, second⟩ := bind_ok run
  obtain ⟨ends, _, -, third⟩ := bind_ok second
  split at third
  · exact absurd third ((refuses_fail _).bind _ _ _)
  · cases third
    exact starts_arrowHead first

/-- A function with an arrow begins where the reader stands, and takes its head at least; where
there is none, the reader stays there. -/
theorem arrowFunction?_place {text : List Char} {state next : ReaderState} {found : Option Node}
    (sound : state.Sound text) (run : arrowFunction? g state = .ok found next) :
    found.elim (next.position = state.position) fun function =>
      function.Begins state.position ∧ state.position ≤ next.previousStop := by
  obtain ⟨guess, between, first, second⟩ := bind_ok run
  obtain ⟨lexeme, -⟩ := peeks_guess _ _ _ first
  have place : between.position = state.position := congrArg (·.span.start) lexeme
  obtain ⟨onward, -⟩ := peeks_guess.passes _ _ _ sound first
  rw [← place]
  have function {head : ArrowHead} {middle : ReaderState} (start : head.start = between.position)
      (sound : middle.Sound text) (consumed : between.position ≤ middle.previousStop)
      (run : (do return some (← arrowBody g head) : Reader (Option Node)) middle =
        .ok found next) : found.elim (next.position = between.position) fun function =>
        function.Begins between.position ∧ between.position ≤ next.previousStop := by
    obtain ⟨node, last, body, result⟩ := bind_ok run
    cases result
    obtain ⟨onward, -⟩ := (extends_arrowBody orderly head).passes _ _ _ sound body
    exact ⟨start ▸ opens_arrowBody head _ _ _ body, Nat.le_trans consumed onward.previousStop⟩
  split at second
  · cases second
    rfl
  · -- it can only be a function
    obtain ⟨head, middle, run, run'⟩ := bind_ok second
    obtain ⟨onward, consumed⟩ := (takes_arrowHead orderly).consumes _ _ _ onward.sound run
    exact function (starts_arrowHead run) onward.sound consumed run'
  · -- it may be one: the head is tried, and where that fails the reader is back where it stood
    obtain ⟨start, _, third, second⟩ := bind_ok second
    cases third
    obtain ⟨_, _, third, second⟩ := bind_ok second
    cases third
    split at second
    · cases second
      rfl
    obtain ⟨tried, middle, third, second⟩ := bind_ok second
    unfold attempt at third
    split at third
    · rename_i head _ run
      cases third
      obtain ⟨onward, consumed⟩ := (takes_promisingHead orderly).consumes _ _ _ onward.sound run
      exact function (starts_promisingHead run) onward.sound consumed second
    · cases third
      obtain ⟨_, _, third, second⟩ := bind_ok second
      cases third
      cases second
      rfl

end

end ModuleBundler.Script.Grammar

/-
# ModuleBundler.Proofs.Script.Functions — patterns, functions and classes stand in a row.

One lemma for each production: together with the constructs that are handed to it, what it reads
makes a row.
-/
import ModuleBundler.Proofs.Script.Ranges
import ModuleBundler.Script.Grammar.Class

namespace ModuleBundler.Script.Grammar

open Reader

/-! ## Leaves -/

theorem extends_key (text : String) : Extends (atom fun _ => .key text) [] fun node => [node] :=
  extends_atom fun _ _ => trivial

theorem takes_literal : Takes (atom .atom) [] fun node => [node] :=
  ⟨extends_atom fun _ _ => trivial, consumes_atom _⟩

theorem extends_binding : Extends (name .binding) [] fun node => [node] :=
  extends_name fun _ _ isWord => isWord

/-! ## What is only looked at -/

theorem passes_checkObjectRest (properties : List Node) : Passes (checkObjectRest properties) := by
  unfold checkObjectRest
  split
  · exact .pure trivial
  · exact passes_complainAt _ _
  · exact .pure trivial

theorem peeks_refuseDecorators (decorators : List Node) :
    Peeks (refuseDecorators decorators) := by
  cases decorators with
  | nil => exact .pure
  | cons first others => exact peeks_complainAt _ _

theorem passes_refuseDecorators (decorators : List Node) :
    Passes (refuseDecorators decorators) :=
  (peeks_refuseDecorators decorators).passes

theorem passes_modifies (word : String) : Passes (modifies word) := by
  refine passes_next.bind fun next => ?_
  split
  · exact .pure trivial
  · exact .pure trivial
  · exact .pure trivial
  · split <;> exact .pure trivial
  · split <;> exact .pure trivial
  · exact .pure trivial

theorem passes_checkModifier (before : List Modifier) (modifier : Modifier) :
    Passes (checkModifier before modifier) := by
  unfold checkModifier
  dsimp only
  exact .ite (passes_complainAt _ _) (.pure trivial)

theorem passes_modifiersFrom (inClass : Bool) (steps : Nat) (before : List Modifier) :
    Passes (modifiersFrom inClass steps before) := by
  induction steps generalizing before with
  | zero => exact (refuses_fail _).gives
  | succ steps ih =>
    refine passes_token.bind fun found => ?_
    split
    · refine .ite ?_ (.pure trivial)
      extract_lets -underBinder goOn
      have more (step : Unit) : Passes (goOn step) := by
        refine (passes_modifies _).bind fun found => .ite ?_ (.pure trivial)
        refine passes_position.bind fun position => passes_advanceKeyword.bind fun _ => ?_
        exact (passes_checkModifier _ _).bind fun _ => ih _
      refine .ite ?_ (more ())
      exact passes_next.bind fun next => .ite (.pure trivial) (more ())
    · exact .pure trivial

theorem passes_modifiers (g : Grammar) (inClass : Bool) : Passes (modifiers g inClass) :=
  passes_modifiersFrom _ _ _

theorem passes_refuseModifiers (modifiers : List Modifier) (allowed : Option String) :
    Passes (refuseModifiers modifiers allowed) := by
  unfold refuseModifiers
  split
  · exact .pure trivial
  · exact passes_complainAt _ _

theorem passes_eatAccessor : Passes eatAccessor := by
  refine (passes_atWord _).bind fun isGet => ?_
  extract_lets -underBinder setter
  have set (step : Unit) : Passes (setter step) := by
    refine (passes_atWord _).bind fun isSet => ?_
    refine .ite ((passes_modifies _).bind fun modifies => .ite ?_ (.pure trivial)) (.pure trivial)
    exact passes_advanceKeyword.bind fun _ => .pure trivial
  refine .ite ((passes_modifies _).bind fun modifies => .ite ?_ (set ())) (set ())
  exact passes_advanceKeyword.bind fun _ => .pure trivial

theorem passes_checkAccessor (kind : MethodKind) (parameters : Node) :
    Passes (checkAccessor kind parameters) := by
  unfold checkAccessor
  dsimp only
  cases kind with
  | method => exact .pure trivial
  | getter => exact .ite (.pure trivial) (passes_complainAt _ _)
  | setter =>
    refine .ite ?_ ((passes_complainAt _ _).bind fun _ => ?_)
    all_goals
      split
      · exact passes_complainAt _ _
      · exact .pure trivial

theorem passes_checkSynchronous (kind : MethodKind) (modifiers : List Modifier) :
    Passes (checkSynchronous kind modifiers) := by
  unfold checkSynchronous
  split
  · exact .pure trivial
  · exact .pure trivial
  · exact passes_complainAt _ _

section

variable {g : Grammar} (orderly : g.Orderly)

include orderly

/-! ## Patterns -/

theorem extends_propertyKey (inClass : Bool) :
    Extends (propertyKey g inClass) [] fun node => [node] := by
  refine passes_position.then fun start => ?_
  refine passes_token.then fun found => ?_
  split
  · exact extends_key _
  · exact extends_key _
  · exact extends_atom fun _ _ => trivial
  · rename_i text
    have own : Extends (do
        if text == "constructor" then complain .invalidMember
        atom fun _ => .key ("#" ++ text)) [] fun node => [node] := by
      dsimp only
      split
      · exact (passes_complain _).then fun _ => extends_key _
      · exact extends_key _
    dsimp only
    split
    · exact own
    · exact refuses_unexpected.bind.extends
  · refine passes_advance.then fun _ => ?_
    refine (orderly.reads _ _).bracketed.bind fun inner => ?_
    exact (passes_expectMark _).then fun _ => extends_branch rfl
  · exact refuses_unexpected.extends

omit orderly in
/-- A word is read as a key where it stands. -/
theorem key_of_word {inClass : Bool} {state next : ReaderState} {key : Node} {text : String}
    {escaped : Bool} (is : state.lexeme.token = .word text escaped)
    (run : propertyKey g inClass state = .ok key next) :
    key = .leaf state.lexeme.span (.key text) := by
  obtain ⟨_, _, first, second⟩ := bind_ok run
  cases first
  obtain ⟨_, _, third, fourth⟩ := bind_ok second
  cases third
  rw [is] at fourth
  cases fourth
  rfl

/-- Where the lexeme in front of a key is a word, it may stand for the key as what it names or
binds. -/
structure IsKey (front : Lexeme) (key : Node) : Prop where
  name : ∀ text escaped, front.token = .word text escaped →
    Replaces [.leaf front.span (.name text)] [key]
  binding : ∀ text escaped, front.token = .word text escaped →
    Replaces [.leaf front.span (.binding text)] [key]

/-- Reads a key behind a reader that stays where it stands, and goes on with the lexeme that stood
at the front. -/
theorem extends_keyedBehind {α β : Type} {inClass : Bool} {peek : ReaderState → Reader α}
    {rest : ReaderState → α → Node → Reader β} {after : β → List Node}
    (peeks : ∀ state, Peeks (peek state))
    (h : ∀ state a key, IsKey state.lexeme key → Extends (rest state a key) [key] after) :
    Extends (do
      let state ← get
      let a ← peek state
      let key ← propertyKey g inClass
      rest state a key) [] after := by
  intro low state result next text sound le run
  obtain ⟨_, _, first, second⟩ := bind_ok run
  cases first
  obtain ⟨a, between, third, fourth⟩ := bind_ok second
  obtain ⟨key, middle, fifth, sixth⟩ := bind_ok fourth
  have alike := peeks _ _ _ _ third
  have onward := alike.onward sound
  have word {text : String} {escaped : Bool} (is : state.lexeme.token = .word text escaped) :
      IsWord text ∧ key = .leaf state.lexeme.span (.key text) := by
    refine ⟨sound.proper.word _ _ is, ?_⟩
    rw [← alike.lexeme] at is ⊢
    exact key_of_word is fifth
  have isKey : IsKey state.lexeme key := by
    constructor
    all_goals
      intro text escaped is
      obtain ⟨isWord, rfl⟩ := word is
      exact .renamed rfl fun _ => isWord
  obtain ⟨onward', rows⟩ := extends_propertyKey orderly inClass _ _ _ _ onward.sound
    (Nat.le_trans le onward.position) fifth
  obtain ⟨onward'', rows'⟩ := h state a key isKey _ _ _ _ onward'.sound
    (Nat.le_trans le (Nat.le_trans onward.position onward'.position)) sixth
  refine ⟨(onward.trans onward').trans onward'', fun row => rows' (rows ?_)⟩
  exact row.mono (Nat.le_refl _) onward.previousStop

theorem extends_keyed {α : Type} {inClass : Bool} {rest : ReaderState → Node → Reader α}
    {after : α → List Node}
    (h : ∀ state key, IsKey state.lexeme key → Extends (rest state key) [key] after) :
    Extends (do
      let state ← get
      let key ← propertyKey g inClass
      rest state key) [] after :=
  @extends_keyedBehind g orderly Unit α inClass (fun _ => pure ()) (fun state _ => rest state) after
    (fun _ => .pure) fun state _ => h state

theorem extends_withDefault (start : Nat) (target : Node) :
    Extends (withDefault g start target) [target] fun node => [node] := by
  refine (passes_eatMark _).then fun found => ?_
  split
  · exact (orderly.reads _ _).withIn.bind fun value => extends_branch rfl
  · exact .pure rfl

theorem extends_patternElement : Extends (patternElement g) [] fun node => [node] := by
  refine passes_position.then fun start => ?_
  exact (orderly.reads _ _).bind fun target => extends_withDefault orderly _ _

theorem extends_restElement : Extends (restElement g) [] fun node => [node] := by
  refine passes_position.then fun start => ?_
  refine (passes_expectMark _).then fun _ => ?_
  refine (extends_patternElement orderly).bind fun target => ?_
  dsimp only
  split
  · exact (passes_complainAt _ _).then fun _ => extends_branch rfl
  · exact extends_branch rfl

theorem extends_bindingsFrom {close : Mark} {item : Reader Node}
    (h : Extends item [] fun node => [node]) {steps : Nat} {before : List Node} :
    Extends (bindingsFrom g close item steps before) before.reverse fun nodes => nodes := by
  induction steps generalizing before with
  | zero => exact (refuses_fail _).extends
  | succ steps ih =>
    refine (passes_atMark _).then fun isRest => ?_
    extract_lets -underBinder rest
    have read (node : Node) :
        Extends (rest node) (before.reverse ++ [node]) fun nodes => nodes := by
      rw [← List.reverse_cons]
      refine (passes_atMark _).then fun closes => ?_
      split
      · exact .pure rfl
      refine passes_position.then fun comma => ?_
      refine (passes_expectMark _).then fun _ => ?_
      refine (passes_atMark _).then fun isClosed => ?_
      extract_lets -underBinder others
      have more (step : Unit) : Extends (others step) (node :: before).reverse fun nodes => nodes :=
        .ite (.pure rfl) ih
      split
      · exact (passes_complainAt _ _).then more
      · exact more ()
    split
    · exact ((extends_restElement orderly).behind _).bind read
    · exact (h.behind _).bind read

theorem extends_bindings {close : Mark} {item : Reader Node}
    (h : Extends item [] fun node => [node]) :
    Extends (bindings g close item) [] fun nodes => nodes := by
  refine (passes_atMark _).then fun closes => ?_
  refine passes_atEnd.then fun ends => ?_
  exact .ite (.pure rfl) (extends_bindingsFrom orderly h)

theorem extends_arrayElement : Extends (arrayElement g) [] fun node => [node] := by
  refine passes_position.then fun start => ?_
  refine (passes_atMark _).then fun found => ?_
  exact .ite (extends_leaf trivial rfl) (extends_patternElement orderly)

theorem extends_patternProperty : Extends (patternProperty g) [] fun node => [node] := by
  refine passes_position.then fun start => ?_
  refine extends_keyed orderly fun state key isKey => ?_
  extract_lets -underBinder valued
  have read (step : Unit) : Extends (valued step) [key] fun node => [node] := by
    refine (passes_expectMark _).then fun _ => ?_
    refine ((extends_patternElement orderly).behind _).bind fun value => ?_
    exact extends_branch rfl
  split
  · rename_i text escaped is
    refine (passes_atMark _).then fun isValued => .ite ?_ (read ())
    -- The name is both key and value, and stands in the tree as what it binds.
    refine Extends.bind ?_ fun target => extends_branch rfl
    exact (extends_withDefault orderly _ _).replacing (isKey.binding _ _ is)
  · exact read ()

theorem extends_pattern : Extends (pattern g) [] fun node => [node] := by
  refine passes_position.then fun start => ?_
  refine passes_token.then fun found => ?_
  split
  · refine passes_advance.then fun _ => ?_
    refine (extends_bindings orderly (extends_arrayElement orderly)).bracketed.bind ?_
    intro elements
    exact (passes_expectMark _).then fun _ => extends_branch rfl
  · refine passes_advance.then fun _ => ?_
    refine (extends_bindings orderly (extends_patternProperty orderly)).bracketed.bind
      fun properties => ?_
    refine (passes_checkObjectRest _).then fun _ => ?_
    exact (passes_expectMark _).then fun _ => extends_branch rfl
  · exact extends_binding

/-! ## Decorators -/

theorem extends_decorators : Extends (decorators g) [] fun nodes => nodes := by
  refine Extends.many (passes_position.then fun start => (passes_eatMark _).then fun found => ?_)
  refine .ite ?_ (.pure rfl)
  refine (orderly.reads _ _).within.bind fun operand => ?_
  exact (extends_branch rfl).bind fun node => .pure rfl

/-! ## Functions -/

theorem extends_parameter : Extends (parameter g) [] fun node => [node] := by
  refine passes_position.then fun start => ?_
  refine (extends_decorators orderly).bind fun before => ?_
  refine (passes_modifiers _ _).then fun modifiers => ?_
  refine (passes_refuseModifiers _ _).then fun _ => ?_
  refine ((extends_patternElement orderly).behind _).bind fun target => ?_
  split
  · rename_i none
    rw [List.isEmpty_iff.mp none]
    exact .pure rfl
  · exact extends_branch rfl

theorem takes_parameters : Takes (parameters g) [] fun node => [node] := by
  refine passes_position.takes fun start => ?_
  refine (consumes_expectMark _).takes fun _ => ?_
  refine (extends_bindings orderly (extends_parameter orderly)).bind fun parts => ?_
  exact (passes_expectMark _).then fun _ => extends_branch rfl

theorem extends_braced {form : Form} (plain : form.isPlain = true) :
    Extends (braced g form) [] fun node => [node] := by
  refine passes_position.then fun start => ?_
  refine (passes_expectMark _).then fun _ => ?_
  refine Extends.bind (Extends.many ?_) fun statements => extends_branch plain
  refine (passes_eatMark _).then fun closes => .ite (.pure rfl) ?_
  refine passes_atEnd.then fun ends => .ite (refuses_fail _).bind.extends ?_
  exact (orderly.rows _).bind fun statement => .pure rfl

theorem extends_functionBody : Extends (functionBody g) [] fun node => [node] :=
  (extends_braced orderly rfl).within

theorem extends_parametersAndBody (start : Nat) (isAsync isGenerator : Bool) :
    Extends (parametersAndBody g start isAsync isGenerator) [] fun nodes => nodes := by
  refine Extends.within ((takes_parameters orderly).rows.bind fun parameters => ?_)
  refine (passes_atMark _).then fun found => .ite ?_ (refuses_failAt _ _).bind.extends
  exact ((extends_functionBody orderly).behind _).bind fun body => .pure rfl

omit orderly in
theorem extends_functionName? : Extends functionName? [] fun nodes => nodes := by
  refine passes_atName.then fun found => .ite ?_ (.pure rfl)
  exact extends_binding.bind fun node => .pure rfl

theorem takes_functionFrom (start : Nat) (isAsync isDeclaration named : Bool) :
    Takes (functionFrom g start isAsync isDeclaration named) [] fun node => [node] := by
  refine (consumes_expectWord _).takes fun _ => ?_
  refine (passes_eatMark _).then fun isGenerator => ?_
  refine .either extends_functionName? extends_functionName?.within fun name => ?_
  refine .when (passes_complain _) fun _ => ?_
  refine ((extends_parametersAndBody orderly _ _ _).behind _).bind fun parts => extends_branch ?_
  cases isDeclaration <;> rfl

theorem extends_methodFrom (start : Nat) (before : List Node) (key : Node) (kind : MethodKind)
    (isStatic isAsync isGenerator : Bool) :
    Extends (methodFrom g start before key kind isStatic isAsync isGenerator) (before ++ [key])
      fun node => [node] := by
  refine passes_position.then fun position => ?_
  refine ((extends_parametersAndBody orderly _ _ _).behind _).bind fun parts => ?_
  rw [List.append_assoc]
  dsimp only
  split
  · exact (passes_checkAccessor _ _).then fun _ => extends_branch rfl
  · exact extends_branch rfl

/-! ## Classes -/

theorem extends_staticBlock (start : Nat) (before : List Node) :
    Extends (staticBlock g start before) before fun node => [node] := by
  refine (passes_refuseDecorators _).then fun _ => ?_
  refine (passes_expectWord _).then fun _ => ?_
  exact ((extends_braced orderly rfl).within.behind _).bind fun block => extends_branch rfl

theorem extends_fieldValue : Extends (fieldValue g) [] fun nodes => nodes := by
  refine (passes_eatMark _).then fun found => ?_
  refine .optional (orderly.rows _).within fun value => ?_
  exact passes_semicolon.then fun _ => .pure rfl

theorem extends_classProperty (start : Nat) (before : List Node) (modifiers : List Modifier) :
    Extends (classProperty g start before modifiers) before fun node => [node] := by
  refine passes_eatAccessor.then fun kind => ?_
  refine (passes_checkSynchronous _ _).then fun _ => ?_
  refine .decided (passes_eatMark _) (.pure trivial) fun isGenerator => ?_
  refine passes_position.then fun keyStart => ?_
  refine ((extends_propertyKey orderly _).behind _).bind fun key => ?_
  refine .when (passes_complainAt _ _) fun _ => ?_
  refine .when (passes_complainAt _ _) fun _ => ?_
  refine (passes_atMark _).then fun found => .ite (extends_methodFrom orderly _ _ _ _ _ _ _) ?_
  refine .when (passes_complainAt _ _) fun _ => ?_
  refine ((extends_fieldValue orderly).behind _).bind fun value => ?_
  rw [List.append_assoc]
  exact extends_branch rfl

theorem extends_classMember : Extends (classMember g) [] fun node => [node] := by
  refine (extends_decorators orderly).bind fun before => ?_
  refine passes_position.then fun start => ?_
  refine (passes_modifiers _ _).then fun modifiers => ?_
  refine (passes_atWord _).then fun isStatic => passes_next.then fun next => ?_
  exact .ite (extends_staticBlock orderly _ _) (extends_classProperty orderly _ _ _)

theorem extends_classMembers : Extends (classMembers g) [] fun node => [node] := by
  refine passes_position.then fun start => ?_
  refine (passes_expectMark _).then fun _ => ?_
  refine Extends.bind (Extends.many ?_) fun members => extends_branch rfl
  refine (passes_eatMark _).then fun closes => .ite (.pure rfl) ?_
  refine passes_atEnd.then fun ends => .ite (refuses_fail _).bind.extends ?_
  refine passes_position.then fun start => ?_
  refine (passes_eatMark _).then fun isEmpty => .ite ?_ ?_
  · -- a semicolon alone is a member without characters that matter
    exact .replacing (.pure rfl) (.leaf trivial rfl)
  · exact (extends_classMember orderly).bind fun member => .pure rfl

theorem extends_heritage : Extends (heritage g) [] fun nodes => nodes := by
  refine passes_position.then fun start => ?_
  refine (passes_eatWord _).then fun found => .ite ?_ (.pure rfl)
  refine (orderly.rows _).bind fun parent => ?_
  refine Extends.bind ((Extends.many ?_).behind _) fun others => ?_
  · refine (passes_eatMark _).then fun found => .ite ?_ (.pure rfl)
    exact (orderly.rows _).bind fun other => .pure rfl
  · dsimp only
    -- more than one parent is a complaint, and the construct is made all the same
    have ended : Extends (do return [← branch start .heritage (parent :: others)])
        ([parent] ++ others) fun nodes => nodes :=
      (extends_branch rfl).bind fun node => .pure rfl
    split
    · exact ended
    · exact (passes_complainAt _ _).then fun _ => ended

theorem takes_classFrom (start : Nat) (before : List Node) (isDeclaration : Bool) :
    Takes (classFrom g start before isDeclaration) before fun node => [node] := by
  refine (consumes_expectWord _).takes fun _ => ?_
  refine passes_atName.then fun isName => (passes_atWord _).then fun isWord => ?_
  refine .optional extends_binding fun name => ?_
  refine ((extends_heritage orderly).behind _).bind fun heritage => ?_
  refine ((extends_classMembers orderly).within.behind _).bind fun members => extends_branch ?_
  cases isDeclaration <;> rfl

end

/-! ## Their ranges -/

variable {g : Grammar}

theorem closes_functionFrom {start : Nat} {isAsync isDeclaration named : Bool} :
    Closes start (functionFrom g start isAsync isDeclaration named) := by
  refine .of_bind fun _ => .of_bind fun isGenerator => ?_
  have named (name : List Node) : Closes start (do
      if named && name.isEmpty then complain .unexpectedToken
      let parts ← parametersAndBody g start isAsync isGenerator
      let form :=
        if isDeclaration then Form.functionDeclaration isAsync isGenerator
        else Form.functionExpression isAsync isGenerator
      branch start form (name ++ parts)) :=
    .ite (.of_bind fun _ => .of_bind fun _ => closes_branch) (.of_bind fun _ => closes_branch)
  exact .ite (.of_bind named) (.of_bind named)

theorem opens_functionFrom {start : Nat} {isAsync isDeclaration named : Bool} :
    Opens start (functionFrom g start isAsync isDeclaration named) := by
  refine .of_bind fun _ => .of_bind fun isGenerator => ?_
  have named (name : List Node) : Opens start (do
      if named && name.isEmpty then complain .unexpectedToken
      let parts ← parametersAndBody g start isAsync isGenerator
      let form :=
        if isDeclaration then Form.functionDeclaration isAsync isGenerator
        else Form.functionExpression isAsync isGenerator
      branch start form (name ++ parts)) := by
    refine .ite (.of_bind fun _ => ?_) ?_
    all_goals exact .of_bind fun _ => opens_branch fun _ => by cases isDeclaration <;> rfl
  exact .ite (.of_bind named) (.of_bind named)

theorem closes_classFrom {start : Nat} {before : List Node} {isDeclaration : Bool} :
    Closes start (classFrom g start before isDeclaration) := by
  refine .of_bind fun _ => .of_bind fun isName => .of_bind fun isWord => ?_
  exact .ite (.of_bind fun _ => .of_bind fun _ => .of_bind fun _ => .of_bind fun _ => closes_branch)
    (.of_bind fun _ => .of_bind fun _ => .of_bind fun _ => closes_branch)

/-- A class that is an operand is not declared. -/
theorem opens_classFrom {start : Nat} {before : List Node} :
    Opens start (classFrom g start before false) := by
  refine .of_bind fun _ => .of_bind fun isName => .of_bind fun isWord => .ite (.of_bind fun _ => ?_) ?_
  all_goals exact .of_bind fun _ => .of_bind fun _ => .of_bind fun _ => opens_branch fun _ => rfl

end ModuleBundler.Script.Grammar

/-
# ModuleBundler.Proofs.Script.Declarations — import and export declarations stand in a row.

A declaration that names a module takes its range from its first word to the end of the statement,
and the literal lies between them.  An exported construct begins behind the words that export it.
The names that are bound, and those of a list that names no module, are words.
-/
import ModuleBundler.Proofs.Script.Beginnings
import ModuleBundler.Script.Grammar.ModuleItem

namespace ModuleBundler.Script.Grammar

open Reader

/-! ## Sources and names -/

theorem extends_source :
    Extends source [] fun found => [.leaf found.literal (.string found.specifier)] := by
  refine .of_token (fun found other => ?_) fun low state value found next text sound le is run => ?_
  · split
    · exact absurd rfl (other _)
    · exact refuses_unexpected.extends
  · cases run
    exact ⟨(advance_ok sound rfl).1, fun _ =>
      .leaf (sound.proper.string value is) le sound.proper.ordered (Nat.le_refl _)⟩

/-- A listed name stands where its lexeme does. -/
theorem extends_listedName :
    Extends listedName [] fun name => [.leaf name.span (.key name.text)] := by
  intro low state name next text sound le run
  obtain ⟨_, _, first, second⟩ := bind_ok run
  cases first
  obtain ⟨found, between, third, fourth⟩ := bind_ok second
  obtain rfl : between = state := by
    cases third
    rfl
  have read {listed : ListedName} (span : listed.span = between.lexeme.span)
      (run : (do advance; return listed : Reader ListedName) between = .ok name next) :
      between.Onward text next ∧ (Row text low between.previousStop [] →
        Row text low next.previousStop [.leaf name.span (.key name.text)]) := by
    obtain ⟨_, _, passed, made⟩ := bind_ok run
    cases made
    obtain ⟨onward, stop⟩ := advance_ok sound passed
    refine ⟨onward, fun _ => .leaf trivial ?_ ?_ ?_⟩
    · exact span ▸ le
    · exact span ▸ sound.proper.ordered
    · exact Nat.le_of_eq ((congrArg (·.stop) span).trans stop.symm)
  split at fourth
  · exact read rfl fourth
  · exact read rfl fourth
  · exact absurd fourth (refuses_unexpected _ _ _)

/-- A listed name that is no string is a word. -/
theorem gives_listedName : Gives listedName fun name => name.isWord = true → IsWord name.text := by
  refine gives_get.passes.bind fun state => gives_token.bind fun found isWord => ?_
  split
  · exact passes_advance.bind fun _ => .pure fun _ => isWord _ _ rfl
  · exact passes_advance.bind fun _ => .pure fun word => absurd word Bool.false_ne_true
  · exact refuses_unexpected.gives

/-- What looks like a name is listed as a word. -/
theorem listedName_isWord {state next : ReaderState} {name : ListedName}
    (run : listedName state = .ok name next) (named : isNameLike state.lexeme = true) :
    name.isWord = true := by
  obtain ⟨_, _, first, second⟩ := bind_ok run
  cases first
  obtain ⟨found, _, third, fourth⟩ := bind_ok second
  have is : state.lexeme.token = found := by
    cases third
    rfl
  unfold isNameLike at named
  rw [is] at named
  split at named
  · obtain ⟨_, _, -, last⟩ := bind_ok fourth
    cases last
    rfl
  · cases named

theorem gives_boundName : Gives boundName IsWord := by
  refine extends_binding.proper.bind fun node ⟨_, proper⟩ => ?_
  split
  · exact .pure proper.of_leaf
  · exact refuses_unexpected.gives

theorem passes_sourceOption : Passes sourceOption := by
  refine gives_listedName.passes.bind fun key => (passes_expectMark _).bind fun _ => ?_
  refine passes_token.bind fun found => ?_
  dsimp only
  split
  · exact passes_advance.bind fun _ => .pure trivial
  · exact refuses_unexpected.bind.gives

theorem passes_sourceOptions (g : Grammar) : Passes (sourceOptions g) := by
  refine (passes_atWord _).bind fun found => .ite ?_ ?_
  · refine passes_afterNewline.bind fun newline => .ite ?_ (.pure trivial)
    refine passes_advanceKeyword.bind fun _ => (passes_expectMark _).bind fun _ => ?_
    refine passes_sourceOption.list.passes.bind fun listed => ?_
    dsimp only
    split
    · exact passes_complainAt _ _
    · exact .pure trivial
  · refine (passes_atWord _).bind fun isOptions => .ite ?_ (.pure trivial)
    refine passes_advanceKeyword.bind fun _ => (passes_expectMark _).bind fun _ => ?_
    refine passes_sourceOption.list.passes.bind fun listed => ?_
    dsimp only
    split
    · exact passes_complainAt _ _
    · exact .pure trivial

/-! ## Import declarations -/

theorem gives_importEntry : Gives importEntry fun binding => IsWord binding.locally := by
  intro state binding next text sound run
  obtain ⟨_, _, first, second⟩ := bind_ok run
  cases first
  obtain ⟨imported, middle, third, fourth⟩ := bind_ok second
  obtain ⟨onward, word⟩ := gives_listedName _ _ _ sound third
  have rest : Gives (do
      if ← eatWord "as" then
        return .named imported.text (← boundName)
      unless isNameLike state.lexeme do
        failAt imported.span.start .unexpectedToken
      checkName imported.span.start imported.text
      return ImportBinding.named imported.text imported.text) fun binding =>
      IsWord binding.locally := by
    refine (passes_eatWord _).bind fun renamed => .ite ?_ ?_
    · exact gives_boundName.bind fun name isWord => .pure isWord
    · split
      · rename_i named
        exact (passes_checkName _ _).bind fun _ => .pure (word (listedName_isWord third named))
      · exact (refuses_failAt _ _).bind.gives
  obtain ⟨onward', isWord⟩ := rest _ _ _ onward.sound fourth
  exact ⟨onward.trans onward', isWord⟩

/-- Bindings whose names are words. -/
def AreWords (bindings : List ImportBinding) : Prop :=
  ∀ binding ∈ bindings, IsWord binding.locally

theorem gives_importList (g : Grammar) : Gives (importList g) AreWords := by
  refine (passes_eatMark _).bind fun star => .ite ?_ ?_
  · refine (passes_expectWord _).bind fun _ => gives_boundName.bind fun name isWord => .pure ?_
    exact List.forall_mem_singleton.mpr isWord
  · refine (passes_expectMark _).bind fun _ => ?_
    exact gives_importEntry.list.bind fun (entries, comma) areWords => .pure areWords

theorem gives_importListFrom (g : Grammar) (start : Nat) {first : String} (isWord : IsWord first) :
    Gives (importListFrom g start first) AreWords := by
  refine (passes_eatMark _).bind fun comma => .ite ?_ ?_
  · refine (gives_importList g).bind fun others areWords => (passes_expectWord _).bind fun _ => ?_
    exact .pure (List.forall_mem_cons.mpr ⟨isWord, areWords⟩)
  · refine (passes_eatWord _).bind fun found => .ite (.pure ?_) (refuses_failAt _ _).bind.gives
    exact List.forall_mem_singleton.mpr isWord

theorem gives_sourcePhaseFrom (g : Grammar) (start : Nat) :
    Gives (sourcePhaseFrom g start) AreWords := by
  have source : IsWord "source" := List.all_eq_true.mp (by decide)
  have from_ : IsWord "from" := List.all_eq_true.mp (by decide)
  refine (passes_eatWord _).bind fun found => .ite ?_ ?_
  · refine passes_token.bind fun found => ?_
    split
    · exact .pure (List.forall_mem_singleton.mpr source)
    · refine (passes_eatWord _).bind fun found => .ite ?_ (gives_importListFrom g start source)
      exact .pure (List.forall_mem_singleton.mpr from_)
  · refine passes_atName.bind fun found => .ite ?_ (gives_importListFrom g start source)
    refine gives_boundName.bind fun name isWord => (passes_expectWord _).bind fun _ => .pure ?_
    exact List.forall_mem_singleton.mpr isWord

theorem gives_importBindings (g : Grammar) (start : Nat) :
    Gives (importBindings g start) AreWords := by
  have bindings : Gives (do
      let bindings ← importList g
      expectWord "from"
      return bindings) AreWords :=
    (gives_importList g).bind fun bindings areWords =>
      (passes_expectWord _).bind fun _ => .pure areWords
  refine passes_atName.bind fun found => .ite ?_ bindings
  refine gives_boundName.bind fun first isWord => .ite (gives_sourcePhaseFrom g start) ?_
  exact (passes_atMark _).bind fun star => .ite bindings (gives_importListFrom g start isWord)

theorem extends_importDeclaration (g : Grammar) :
    Extends (importDeclaration g) [] fun node => [node] := by
  refine Takes.rows ((consumes_expectWord _).completed fun start _ => ?_)
  refine passes_token.completes fun found => ?_
  have declaration {bindings : List ImportBinding} (areWords : AreWords bindings) :
      Completes start start start [] (do
        let source ← source
        sourceOptions g
        semicolon
        branch start (.importDeclaration bindings source) []) := by
    refine extends_source.completes fun source => (passes_sourceOptions g).completes fun _ => ?_
    refine passes_semicolon.completes fun _ => completes_branch fun text stop le le' row => ?_
    exact .closed rfl rfl ⟨row.inside, areWords⟩ .nil rfl .nil (Nat.le_refl _)
      row.inside.nonempty_span (Nat.le_refl _)
  dsimp only
  split
  · exact declaration (by simp [AreWords])
  · exact (gives_importBindings g start).completes fun bindings => declaration

/-! ## Export lists -/

/-- An entry of an export list names a value by a word, unless it was listed as a string. -/
theorem gives_exportEntry :
    Gives exportEntry fun item => item.listed.isWord = true → IsWord item.entry.value := by
  refine passes_position.bind fun start => gives_listedName.bind fun value isWord => ?_
  refine (passes_eatWord _).bind fun renamed => .ite ?_ ?_
  · refine gives_listedName.passes.bind fun exported => gives_get.passes.bind fun _ => ?_
    exact .pure isWord
  · exact Passes.bind (.pure trivial) fun exported => gives_get.passes.bind fun _ => .pure isWord

/-- What an entry of an export list exports stands in a row. -/
theorem extends_exportEntry : Extends exportEntry [] fun item =>
    [.leaf item.entry.exportedSpan (.key item.entry.exported)] := by
  refine passes_position.then fun start => extends_listedName.bind fun value => ?_
  refine (passes_eatWord _).then fun renamed => .ite ?_ ?_
  · refine (extends_listedName.behind _).bind fun exported => gives_get.passes.then fun state => ?_
    exact .replacing (.pure rfl) (.of_sublist (List.sublist_append_right _ _))
  · have same : Gives (pure value) (· = value) := .pure rfl
    refine same.then fun exported is => gives_get.passes.then fun state => .pure ?_
    rw [is]

theorem gives_checkLocal (item : ListedExport) :
    Gives (checkLocal item) fun _ => item.listed.isWord = true := by
  dsimp only [checkLocal]
  split
  · rename_i isWord
    split
    · exact (passes_complainAt _ _).bind fun _ => .pure isWord
    · exact .pure isWord
  · exact (refuses_failAt _ _).bind.gives

theorem gives_checkLocals (items : List ListedExport) :
    Gives (items.forM checkLocal) fun _ => ∀ item ∈ items, item.listed.isWord = true := by
  induction items with
  | nil => exact .pure (by simp)
  | cons item items ih =>
    unfold List.forM
    refine (gives_checkLocal item).bind fun _ isWord => ih.imp fun _ areWords => ?_
    exact List.forall_mem_cons.mpr ⟨isWord, areWords⟩

theorem passes_atLiteral : Passes atLiteral := by
  refine passes_token.bind fun found => ?_
  split <;> exact .pure trivial

theorem completes_exportList (g : Grammar) {start floor : Nat} (lt : start < floor) :
    Completes start floor floor [] (exportList g start) := by
  refine (passes_expectMark _).completes fun _ => ?_
  refine extends_exportEntry.listOf.completesBy gives_exportEntry.list ?_
  rintro ⟨listed, comma⟩ isWord
  refine (passes_eatWord _).completes fun hasFrom => passes_atLiteral.completes fun isLiteral => ?_
  have exported {text : List Char} {stop : Nat} (row : Row text floor stop (listed.map fun item =>
      .leaf item.entry.exportedSpan (.key item.entry.exported))) :
      Placed start stop ((listed.map (·.entry)).map (·.exportedSpan)) := by
    rw [List.map_map]
    exact row.placed_keys.mono (Nat.le_of_lt lt) (Nat.le_refl _)
  refine .ite ?_ ?_
  · refine (extends_source.behind _).completes fun source => ?_
    refine (passes_sourceOptions g).completes fun _ => passes_semicolon.completes fun _ => ?_
    refine completes_branch fun text stop le le' row => ?_
    have entries := row.sublist (List.sublist_append_left _ _)
    have literal := row.sublist (List.sublist_append_right _ _)
    have inside := (literal.mono (Nat.le_of_lt lt) (Nat.le_refl _)).inside
    exact .closed rfl rfl inside (exported entries) rfl .nil (Nat.le_refl _) inside.nonempty_span
      (Nat.le_refl _)
  · refine (gives_checkLocals listed).completes fun _ areWords => ?_
    refine passes_semicolon.completes fun _ => completes_branch fun text stop le le' row => ?_
    refine .closed rfl rfl ?_ (exported row) rfl .nil (Nat.le_refl _) (Nat.lt_of_lt_of_le lt le')
      (Nat.le_refl _)
    intro entry mem
    obtain ⟨item, listed, rfl⟩ := List.mem_map.mp mem
    exact isWord item listed (areWords item listed)

theorem completes_exportAll (g : Grammar) {start floor : Nat} (lt : start < floor) :
    Completes start floor floor [] (exportAll g start) := by
  have completed (name : Option (String × Span)) : Completes start floor floor
      (name.toList.map fun found => .leaf found.2 (.key found.1)) (do
        expectWord "from"
        let source ← source
        sourceOptions g
        semicolon
        branch start (.exportAll name source) []) := by
    refine (passes_expectWord _).completes fun _ => (extends_source.behind _).completes fun source => ?_
    refine (passes_sourceOptions g).completes fun _ => passes_semicolon.completes fun _ => ?_
    refine completes_branch fun text stop le le' row => ?_
    have row := row.mono (Nat.le_of_lt lt) (Nat.le_refl _)
    have inside := (row.sublist (List.sublist_append_right _ _)).inside
    have exported := (row.sublist (List.sublist_append_left _ _)).placed_keys
    exact .closed rfl rfl inside exported rfl .nil (Nat.le_refl _) inside.nonempty_span
      (Nat.le_refl _)
  refine (passes_expectMark _).completes fun _ => (passes_eatWord _).completes fun found => ?_
  refine .ite (extends_listedName.completes fun name => ?_) ?_
  · have named : Gives (pure (some (name.text, name.span))) (· = some (name.text, name.span)) :=
      .pure rfl
    exact named.completes fun _ is => is ▸ completed (some (name.text, name.span))
  · have unnamed : Gives (pure (none : Option (String × Span))) (· = none) := .pure rfl
    exact unnamed.completes fun _ is => is ▸ completed none

/-! ## Exported declarations and values -/

theorem closes_functionDeclaration {g : Grammar} {start : Nat} {named : Bool} :
    Closes start (functionDeclaration g start named) :=
  .of_bind fun _ => .ite (.of_bind fun _ => closes_functionFrom) closes_functionFrom

theorem opens_functionDeclaration {g : Grammar} {start : Nat} {named : Bool} :
    Opens start (functionDeclaration g start named) :=
  .of_bind fun _ => .ite (.of_bind fun _ => opens_functionFrom) opens_functionFrom

/-- Where decorators are read, one stands at the front, or the reader stays where it stands. -/
theorem decorators_ok {g : Grammar} {state next : ReaderState} {found : List Node}
    (run : decorators g state = .ok found next) :
    state.lexeme.token = .mark .at ∨ state.Alike next := by
  unfold decorators many at run
  cases steps : g.steps with
  | zero =>
    rw [steps] at run
    exact absurd run (refuses_fail _ _ _ _)
  | succ steps =>
    rw [steps] at run
    obtain ⟨first, middle, item, rest⟩ := bind_ok run
    obtain ⟨start, _, place, item⟩ := bind_ok item
    cases place
    obtain ⟨isDecorator, between, eats, item⟩ := bind_ok item
    rcases eatMark_ok eats with ⟨is, -⟩ | ⟨rfl, rfl⟩
    · exact .inl is
    · cases item
      cases rest
      exact .inr ⟨rfl, rfl, rfl, rfl⟩

theorem exportedDecorators_ok {g : Grammar} {before found : List Node} {state next : ReaderState}
    (run : exportedDecorators g before state = .ok found next) :
    state.lexeme.token = .mark .at ∨ state.Alike next := by
  obtain ⟨after, middle, first, second⟩ := bind_ok run
  refine (decorators_ok first).imp_right fun alike => ?_
  have refuse : Peeks (do
      unless before.isEmpty do
        refuseDecorators after
      return after) :=
    .ite .pure ((peeks_refuseDecorators _).bind fun _ => .pure)
  exact alike.trans (refuse _ _ _ second)

/-- What an export shows: a class behind its decorators, or something else behind them. -/
def shown (g : Grammar) (before : List Node) (other : Nat → List Node → Reader Node) :
    Reader Node := do
  let start ← position
  let after ← exportedDecorators g before
  if ← atWord "class" then classFrom g start after true
  else other start after

/-- What the word `export` shows that is no class. -/
def declared (g : Grammar) (before : List Node) (start : Nat) (after : List Node) :
    Reader Node := do
  refuseDecorators (before ++ after)
  match ← token with
  | .word "var" _ => endedVariables g start "var"
  | .word "let" _ => endedVariables g start "let"
  | .word "const" _ => endedVariables g start "const"
  | _ =>
    if (← atWord "function") || (← isAsyncFunctionAhead) then functionDeclaration g start true
    else unexpected

/-- What the words `export default` show that is no class. -/
def valued (g : Grammar) (before : List Node) (_ : Nat) (after : List Node) : Reader Node := do
  refuseDecorators (before ++ after)
  if (← atWord "function") || (← isAsyncFunctionAhead) then
    functionDeclaration g (← position) false
  else
    let value ← g.read .assignment
    semicolon
    return value

theorem exportedDeclaration_eq (g : Grammar) (before : List Node) :
    exportedDeclaration g before = shown g before (declared g before) :=
  rfl

theorem exportDefault_eq (g : Grammar) (start : Nat) (before : List Node) :
    exportDefault g start before = (do
      let keyword := (← get).lexeme.span
      expectWord "default"
      let value ← shown g before (valued g before)
      branch start (.exportDefault keyword) [value]) := by
  unfold exportDefault shown valued
  simp only [bind_assoc]
  refine bind_congr fun state => bind_congr fun _ => bind_congr fun valueStart => ?_
  refine bind_congr fun after => bind_congr fun isClass => ?_
  cases isClass with
  | true => rfl
  | false =>
    simp only [Bool.false_eq_true, if_false, bind_assoc]
    refine bind_congr fun _ => bind_congr fun word => bind_congr fun isAsync => ?_
    cases word || isAsync <;> simp

/-- A reader of what words show that export it: it stands where it begins, and follows the words. -/
structure Shows (words : List String) (reader : Reader Node) : Prop where
  anchors : ∀ anchor, Anchors anchor [] reader
  follows : ∀ state node next ⦃text⦄, state.Sound text → reader state = .ok node next →
    node.Follows text words state.position

/-- What is shown completes an export behind the words that introduce it. -/
theorem Shows.exports {words : List String} {reader : Reader Node} (h : Shows words reader)
    {text : List Char} {start : Nat} {form : Form} {state next : ReaderState} {node : Node}
    (sound : state.Sound text) (introduced : WordsAt text words start state.position)
    (opened : ∀ ⦃value stop⦄, state.position ≤ value.span.start → value.span.start ≤ stop →
      Introduced text words start value → Row text value.span.start stop [value] →
      Row text start stop [.branch ⟨start, stop⟩ form [value]])
    (run : (do branch start form [← reader]) state = .ok node next) :
    state.Onward text next ∧ Row text start next.previousStop [node] := by
  obtain ⟨value, middle, first, second⟩ := bind_ok run
  obtain ⟨onward, lower, upper, row⟩ := h.anchors _ _ _ _ sound (Nat.le_refl _) .nil first
  have follows := h.follows _ _ _ sound first
  cases second
  exact ⟨onward, opened lower upper ⟨_, introduced, follows⟩ row⟩

section

variable {g : Grammar} (orderly : g.Orderly)

include orderly

theorem takes_functionDeclaration (start : Nat) (named : Bool) :
    Takes (functionDeclaration g start named) [] fun node => [node] := by
  refine passes_isAsyncFunctionAhead.takes fun isAsync => ?_
  refine .ite (consumes_advanceKeyword.takes fun _ => ?_) (takes_functionFrom orderly _ _ _ _)
  exact (takes_functionFrom orderly _ _ _ _).rows

theorem extends_exportedDecorators (before : List Node) :
    Extends (exportedDecorators g before) [] fun nodes => nodes := by
  refine (extends_decorators orderly).bind fun after => ?_
  exact .ite (.pure rfl) ((passes_refuseDecorators _).then fun _ => .pure rfl)

theorem anchors_shown {before : List Node} {other : Nat → List Node → Reader Node}
    (anchors : ∀ start after, Anchors start after (other start after)) (anchor : Nat) :
    Anchors anchor [] (shown g before other) := by
  refine .at_position fun start => ?_
  refine (extends_exportedDecorators orderly _).anchors fun after => ?_
  refine (passes_atWord _).anchors fun isClass => .ite ?_ (anchors start after)
  exact (takes_classFrom orderly _ _ _).anchored closes_classFrom.makes

/-- A declaration follows the word that exports it, decorated or not. -/
theorem shows_exportedDeclaration (before : List Node) :
    Shows ["export"] (exportedDeclaration g before) := by
  rw [exportedDeclaration_eq]
  constructor
  · refine anchors_shown orderly fun start after => ?_
    have declared {reader : Reader Node} (takes : Takes reader [] fun node => [node])
        (closes : Closes start reader) : Anchors start after reader :=
      (takes.replacing (.of_sublist (List.nil_sublist _))).anchored closes.makes
    refine (passes_refuseDecorators _).anchors fun _ => passes_token.anchors fun found => ?_
    split
    · exact declared (takes_endedVariables orderly _ _) closes_endedVariables
    · exact declared (takes_endedVariables orderly _ _) closes_endedVariables
    · exact declared (takes_endedVariables orderly _ _) closes_endedVariables
    · refine (passes_atWord _).anchors fun word => ?_
      refine passes_isAsyncFunctionAhead.anchors fun isAsync => .ite ?_ refuses_unexpected.anchors
      exact declared (takes_functionDeclaration orderly _ _) closes_functionDeclaration
  · intro state node next text sound run
    obtain ⟨start, _, place, run⟩ := bind_ok run
    cases place
    have closes : Closes state.position (do
        let after ← exportedDecorators g before
        if ← atWord "class" then classFrom g state.position after true
        else declared g before state.position after) := by
      refine .of_bind fun after => .of_bind fun isClass => .ite closes_classFrom ?_
      refine .of_bind fun _ => .of_bind fun found => ?_
      split
      · exact closes_endedVariables
      · exact closes_endedVariables
      · exact closes_endedVariables
      · refine .of_bind fun word => .of_bind fun isAsync => .ite closes_functionDeclaration ?_
        exact refuses_unexpected.closes
    exact .inl (closes.makes _ _ _ run)

/-- So does a default export, unless decorators follow the words that belong to no class. -/
theorem shows_valued (before : List Node) :
    Shows ["export", "default"] (shown g before (valued g before)) := by
  have starts (start : Nat) (after : List Node) : Starts start (valued g before start after) := by
    refine (peeks_refuseDecorators _).starts fun _ => (peeks_atWord _).starts fun word => ?_
    refine peeks_isAsyncFunctionAhead.starts fun isAsync => .ite ?_ ?_
    · exact .at_position opens_functionDeclaration.starts
    · exact (orderly.starts start).bind fun value begun => .of_bind fun _ => .pure begun
  constructor
  · refine anchors_shown orderly fun start after => ?_
    refine (passes_refuseDecorators _).anchors fun _ => (passes_atWord _).anchors fun word => ?_
    refine passes_isAsyncFunctionAhead.anchors fun isAsync => .ite ?_ ?_
    · have function := passes_position.takes fun start => takes_functionDeclaration orderly start false
      exact function.anchors fun start => .at_position opens_functionDeclaration.starts
    · have value : Takes (do let value ← g.read .assignment; semicolon; return value) [] fun node =>
          [node] :=
        orderly.takes.bind fun value => passes_semicolon.then fun _ => .pure rfl
      refine value.anchors fun start => (orderly.starts start).bind fun value begun => ?_
      exact .of_bind fun _ => .pure begun
  · intro state node next text sound run
    obtain ⟨start, _, place, run⟩ := bind_ok run
    cases place
    obtain ⟨after, middle, first, run⟩ := bind_ok run
    obtain ⟨onward, -⟩ := (extends_exportedDecorators orderly _).passes _ _ _ sound first
    obtain ⟨isClass, between, second, run⟩ := bind_ok run
    obtain ⟨onward', -⟩ := passes_atWord _ _ _ _ onward.sound second
    split at run
    · exact .inl (closes_classFrom.makes _ _ _ run)
    · have begun := starts _ after _ _ _ onward'.sound rfl run
      rcases exportedDecorators_ok first with is | alike
      · exact .inr ⟨by simp, markAt_of_token sound is, begun.plain⟩
      · have place := congrArg (·.span.start) (alike.trans (peeks_atWord _ _ _ _ second)).lexeme
        exact .inl (begun.start.trans place)

/-- Behind the word `export`, a default export begins with both words. -/
theorem exportDefault_ok {text : List Char} {start : Nat} {before : List Node}
    {state next : ReaderState} {node : Node} (sound : state.Sound text)
    (word : WordAt text "export" start state.position) (lt : start < state.position)
    (run : exportDefault g start before state = .ok node next) :
    state.Onward text next ∧ Row text start next.previousStop [node] := by
  rw [exportDefault_eq] at run
  obtain ⟨_, _, front, run⟩ := bind_ok run
  cases front
  obtain ⟨_, middle, default, run⟩ := bind_ok run
  obtain ⟨onward, stop⟩ := advanceKeyword_ok sound (expectWord_ok default).2
  have behind : state.lexeme.span.stop ≤ middle.position := stop ▸ onward.sound.behind
  have words : WordsAt text ["export", "default"] start middle.position :=
    ⟨_, word, _, expectWord_words sound default, rfl⟩
  have exports := (shows_valued orderly before).exports onward.sound words
    (fun value stop lower upper introduced row => ?_) run
  · exact ⟨onward.trans exports.1, exports.2⟩
  have keyword : Placed start stop [state.lexeme.span] :=
    .singleton (Nat.le_of_lt lt) sound.proper.ordered
      (Nat.le_trans behind (Nat.le_trans lower upper))
  refine .opened rfl rfl (row.proper _ List.mem_cons_self).declaredName? keyword ?_ row
    (Nat.lt_of_lt_of_le lt (Nat.le_trans onward.position lower)) upper
  rintro _ ⟨⟩
  exact introduced

/-- A declaration behind the word `export` begins with it. -/
theorem exportedDeclaration_ok {text : List Char} {start : Nat} {before : List Node}
    {state next : ReaderState} {node : Node} (sound : state.Sound text)
    (word : WordAt text "export" start state.position) (lt : start < state.position)
    (run : (do branch start .exportDeclaration [← exportedDeclaration g before]) state =
      .ok node next) :
    state.Onward text next ∧ Row text start next.previousStop [node] := by
  have words : WordsAt text ["export"] start state.position := ⟨_, word, rfl⟩
  refine (shows_exportedDeclaration orderly before).exports sound words
    (fun value stop lower upper introduced row => ?_) run
  have proper := row.proper _ List.mem_cons_self
  have names : Placed start stop (value.bindings.map (·.2)) := by
    have placed := row.placed.sublist
      ((Node.bindings_sublist value).trans (List.sublist_append_left _ _))
    exact placed.mono (Nat.le_of_lt (Nat.lt_of_lt_of_le lt lower)) (Nat.le_refl _)
  refine .opened rfl rfl proper.bindings names ?_ row (Nat.lt_of_lt_of_le lt lower) upper
  rintro _ ⟨⟩
  exact introduced

theorem extends_exportDeclaration (before : List Node) :
    Extends (exportDeclaration g before) [] fun node => [node] := by
  intro low state node next text sound le run
  obtain ⟨_, _, place, run⟩ := bind_ok run
  cases place
  obtain ⟨_, middle, first, run⟩ := bind_ok run
  obtain ⟨onward, consumed⟩ := expectWord_extent sound first
  have word := expectWord_words sound first
  have begun : state.position < middle.previousStop :=
    Nat.lt_of_lt_of_le (Nat.lt_add_of_pos_right (by decide)) consumed
  have lt : state.position < middle.position := Nat.lt_of_lt_of_le begun onward.sound.behind
  have completed {reader : Reader Node}
      (h : Completes state.position middle.previousStop middle.previousStop [] reader)
      (run : reader middle = .ok node next) :
      middle.Onward text next ∧ Row text state.position next.previousStop [node] :=
    h _ _ _ onward.sound (Nat.le_of_lt begun) (Nat.le_refl _) onward.sound.behind (Nat.le_refl _)
      .nil run
  obtain ⟨found, between, front, rest⟩ := bind_ok run
  obtain rfl : between = middle := by
    cases front
    rfl
  have read : between.Onward text next ∧ Row text state.position next.previousStop [node] := by
    split at rest
    · exact completed (completes_exportAll g begun) rest
    · exact completed (completes_exportList g begun) rest
    · exact exportDefault_ok orderly onward.sound word lt rest
    · exact exportedDeclaration_ok orderly onward.sound word lt rest
  exact ⟨onward.trans read.1, fun _ => read.2.mono le (Nat.le_refl _)⟩

omit orderly in
/-- What is taken down is read on. -/
theorem extends_recorded (declaration : Node) :
    Extends (recorded declaration) [declaration] fun node => [node] :=
  gives_get.passes.then fun _ => .when (passes_note _) fun _ => .pure rfl

end

/-! ## Their ranges -/

section

variable {g : Grammar} {start : Nat}

theorem closes_exportList : Closes start (exportList g start) := by
  refine .of_bind fun _ => .of_bind fun (listed, comma) => .of_bind fun hasFrom => ?_
  refine .of_bind fun isLiteral => .ite ?_ ?_
  · exact .of_bind fun _ => .of_bind fun _ => .of_bind fun _ => closes_branch
  · exact .of_bind fun _ => .of_bind fun _ => closes_branch

theorem closes_exportAll : Closes start (exportAll g start) := by
  have exported (name : Option (String × Span)) : Closes start (do
      expectWord "from"
      let source ← source
      sourceOptions g
      semicolon
      branch start (.exportAll name source) []) :=
    .of_bind fun _ => .of_bind fun _ => .of_bind fun _ => .of_bind fun _ => closes_branch
  refine .of_bind fun _ => .of_bind fun found => .ite ?_ ?_
  · exact .of_bind fun name => .of_bind exported
  · exact .of_bind exported

theorem closes_exportDefault {before : List Node} :
    Closes start (exportDefault g start before) := by
  refine .of_bind fun state => .of_bind fun _ => .of_bind fun valueStart => .of_bind fun after => ?_
  refine .of_bind fun isClass => .ite (.of_bind fun _ => closes_branch) ?_
  refine .of_bind fun _ => .of_bind fun word => .of_bind fun isAsync => .ite ?_ ?_
  · exact .of_bind fun _ => .of_bind fun _ => closes_branch
  · exact .of_bind fun _ => .of_bind fun _ => closes_branch

theorem frames_exportDeclaration {before : List Node} :
    Frames start (exportDeclaration g before) := by
  refine .at_position (Closes.frames (.of_bind fun _ => .of_bind fun found => ?_))
  split
  · exact closes_exportAll
  · exact closes_exportList
  · exact closes_exportDefault
  · exact .of_bind fun _ => closes_branch

theorem frames_importDeclaration : Frames start (importDeclaration g) := by
  refine .at_position (Closes.frames (.of_bind fun _ => .of_bind fun found => ?_))
  have declaration (bindings : List ImportBinding) : Closes start (do
      let source ← source
      sourceOptions g
      semicolon
      branch start (.importDeclaration bindings source) []) :=
    .of_bind fun _ => .of_bind fun _ => .of_bind fun _ => closes_branch
  dsimp only
  split
  · exact declaration _
  · exact .of_bind declaration

theorem keeps_recorded (node : Node) : Keeps node (recorded node) := by
  have rest : Keeps node (pure node) := keeps_pure
  refine .of_bind peeks_get fun state => ?_
  exact iteInduction (motive := Keeps node) (fun _ => .of_bind (peeks_note _) fun _ => rest)
    fun _ => rest

end

end ModuleBundler.Script.Grammar

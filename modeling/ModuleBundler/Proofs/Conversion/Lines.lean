/-
# ModuleBundler.Proofs.Conversion.Lines — the lines of a converted script.

The statements of the prologue stand on one line, and an edit holds as many line feeds as the text
that it replaces, but for the literals that they quote: a literal is copied as it is written, and a
line continuation inside of it is a line feed.  Without these (`keeps_lines_iff`) every character
that is still there stands on the line of the text, or on the next one behind a prologue
(`convert_keeps_lines`); with them it may stand further down (`lines_moved`).
-/
import ModuleBundler.Proofs.Conversion.Specifiers
import ModuleBundler.Proofs.Conversion.Trace

namespace ModuleBundler.Conversion

open Script Text

/-! ## Texts of one line -/

/-- A text without line feeds. -/
def OneLine (text : String) : Prop :=
  '\n' ∉ text.toList

instance (text : String) : Decidable (OneLine text) :=
  inferInstanceAs (Decidable ('\n' ∉ text.toList))

@[simp] theorem oneLine_append {first second : String} :
    OneLine (first ++ second) ↔ OneLine first ∧ OneLine second := by
  simp [OneLine, String.toList_append, not_or]

theorem oneLine_ofList {text : List Char} : OneLine (String.ofList text) ↔ '\n' ∉ text := by
  rw [OneLine, String.toList_ofList]

/-- Texts of one line with blanks between them are a text of one line. -/
theorem oneLine_intercalate {texts : List String} :
    OneLine (" ".intercalate texts) ↔ ∀ text ∈ texts, OneLine text := by
  have blank : '\n' ∉ " ".toList := by decide
  rw [OneLine, String.toList_intercalate]
  induction texts with
  | nil => simp
  | cons first texts ih =>
    cases texts with
    | nil => simp [OneLine]
    | cons second texts =>
      rw [List.map_cons, List.map_cons, List.intercalate_cons_cons, ← List.map_cons,
        List.mem_append, List.mem_append, or_assoc, not_or, not_or, List.forall_mem_cons]
      exact and_congr Iff.rfl ((and_iff_right blank).trans ih)

theorem oneLine_quoted (name : String) : OneLine (quoted name) :=
  oneLine_ofList.mpr (newline_not_mem_quotedChars name)

theorem oneLine_of_isWord {name : String} (h : IsWord name) : OneLine name :=
  h.newline_not_mem

/-- Temporary names are names and numbers. -/
theorem oneLine_temporary (number : Nat) : OneLine (temporary number) := by
  refine oneLine_append.mpr ⟨by decide, fun mem => ?_⟩
  rw [Nat.toString_eq_repr, Nat.repr, String.toList_ofList] at mem
  have digit := Nat.isDigit_of_mem_toDigits (by decide) (by decide) mem
  revert digit
  decide

theorem oneLine_of_isPlainName {name : String} (h : isPlainName name = true) : OneLine name := by
  unfold isPlainName at h
  unfold OneLine
  split at h
  · cases h
  · rename_i c rest is
    obtain ⟨first, others⟩ := Bool.and_eq_true_iff.mp h
    rw [is, List.mem_cons, not_or]
    refine ⟨?_, fun mem => ?_⟩
    · rintro rfl
      revert first
      decide
    · have part := List.all_eq_true.mp others _ mem
      revert part
      decide

theorem oneLine_defaultOf {object : String} (h : OneLine object) : OneLine (defaultOf object) := by
  simp only [defaultOf, oneLine_append, h, true_and, and_true]
  decide

/-- An export is reached on one line, whatever its name. -/
theorem oneLine_exportOf {object : String} (h : OneLine object) (name : String) :
    OneLine (exportOf object name) := by
  unfold exportOf
  split
  · exact oneLine_defaultOf h
  · unfold propertyOf
    split
    · rename_i plain
      simp only [oneLine_append, h, oneLine_of_isPlainName plain, true_and, and_true]
      decide
    · simp only [oneLine_append, h, oneLine_quoted, true_and, and_true]
      decide

/-! ## The prologue -/

theorem oneLine_requireCall {text : List Char} {source : Source} :
    OneLine (requireCall text source) ↔ '\n' ∉ source.literal.slice text := by
  have opening : OneLine "require(" := by decide
  have closing : OneLine ")" := by decide
  simp only [requireCall, oneLine_append, oneLine_ofList, opening, closing, true_and, and_true]

theorem oneLine_bindingStatement {object : String} (h : OneLine object) {binding : ImportBinding}
    (word : IsWord binding.locally) : OneLine (bindingStatement object binding) := by
  have name := oneLine_of_isWord word
  cases binding with
  | default own =>
    simp only [ImportBinding.locally] at name
    simp only [bindingStatement, oneLine_append, name, oneLine_defaultOf h, and_true]
    decide
  | «namespace» own =>
    simp only [ImportBinding.locally] at name
    simp only [bindingStatement, oneLine_append, name, h, and_true]
    decide
  | named imported own =>
    simp only [ImportBinding.locally] at name
    simp only [bindingStatement, oneLine_append, name, oneLine_exportOf h, and_true]
    decide

/-- What runs before the script for an item stands on one line if its literal does. -/
theorem oneLine_hoisted {text : List Char} {object statement : String} (h : OneLine object)
    {item : ModuleItem} (proper : item.Proper) (is : hoisted? text object item = some statement) :
    OneLine statement ↔ ∀ source ∈ item.source?, '\n' ∉ source.literal.slice text := by
  have declares : OneLine "var " := by decide
  have becomes : OneLine " = " := by decide
  have ends : OneLine ";" := by decide
  have passes : OneLine "__minipack_exportStar(" := by decide
  have behind : OneLine ", exports);" := by decide
  unfold hoisted? at is
  split at is
  · cases is
    simp [oneLine_requireCall, ends, ModuleItem.source?]
  · rename_i span name source
    cases is
    have word : OneLine name :=
      oneLine_of_isWord (proper.2 (.namespace name) (List.mem_singleton.mpr rfl))
    simp [oneLine_requireCall, declares, becomes, ends, word, ModuleItem.source?]
  · rename_i span bindings source _ _
    cases is
    have bound : ∀ statement ∈ bindings.map (bindingStatement object), OneLine statement := by
      intro statement mem
      obtain ⟨binding, listed, rfl⟩ := List.mem_map.mp mem
      exact oneLine_bindingStatement h (proper.2 binding listed)
    rw [oneLine_intercalate, List.forall_mem_cons]
    simp only [oneLine_append, oneLine_requireCall, declares, becomes, ends, h, true_and, and_true,
      and_iff_left bound, ModuleItem.source?, Option.mem_some_iff, forall_eq']
  · cases is
    simp [oneLine_requireCall, declares, becomes, ends, h, ModuleItem.source?]
  · cases is
    simp [oneLine_requireCall, declares, becomes, ends, h, ModuleItem.source?]
  · cases is
    simp [oneLine_requireCall, passes, behind, ModuleItem.source?]
  · cases is

/-- Something runs before the script for every declaration that names a module. -/
theorem exists_hoisted {text : List Char} (object : String) {item : ModuleItem} {source : Source}
    (declared : item.isDeclaration = true) (is : item.source? = some source) :
    ∃ statement, hoisted? text object item = some statement := by
  cases item with
  | importDeclaration span bindings own =>
    rcases bindings with _ | ⟨_ | _ | _, _ | _⟩ <;> exact ⟨_, rfl⟩
  | exportList span entries own =>
    cases is
    exact ⟨_, rfl⟩
  | exportAll span name own => cases name <;> exact ⟨_, rfl⟩
  | exportDeclaration span start names => cases is
  | exportDefault span keyword start name => cases is
  | dynamicImport span own => cases declared
  | requireCall own => cases declared

theorem isDeclaration_of_hoisted {text : List Char} {object statement : String} {item : ModuleItem}
    (is : hoisted? text object item = some statement) : item.isDeclaration = true := by
  unfold hoisted? at is
  split at is
  all_goals first
    | rfl
    | cases is

/-- The getters that an item asks for return expressions of one line. -/
theorem oneLine_exported {object : String} (h : OneLine object) {item : ModuleItem}
    (proper : item.Proper) {found : Export} (mem : found ∈ exports object item) {value : String}
    (is : found.value = some value) : OneLine value := by
  cases item with
  | importDeclaration span bindings source => cases mem
  | exportList span entries source =>
    obtain ⟨entry, listed, rfl⟩ := List.mem_map.mp mem
    cases is
    cases source with
    | none => exact oneLine_of_isWord (proper entry listed)
    | some source => exact oneLine_exportOf h entry.value
  | exportAll span name source =>
    cases name with
    | none => cases mem
    | some name =>
      rw [exports, List.mem_singleton] at mem
      subst mem
      cases is
      exact h
  | exportDeclaration span start names =>
    obtain ⟨⟨name, range⟩, listed, rfl⟩ := List.mem_map.mp mem
    cases is
    exact oneLine_of_isWord (proper (value, range) listed)
  | exportDefault span keyword start name =>
    rw [exports, List.mem_singleton] at mem
    subst mem
    exact oneLine_of_isWord (proper value is)
  | dynamicImport span source => cases mem
  | requireCall source => cases mem

theorem oneLine_getter (name : String) {value : String} (h : OneLine value) :
    OneLine (getter name value) := by
  have opening : OneLine "Object.defineProperty(exports, " := oneLine_ofList.mpr (by decide)
  have middle : OneLine ", \x7b enumerable: true, get: function () \x7b return " :=
    oneLine_ofList.mpr (by decide)
  have closing : OneLine "; \x7d \x7d);" := oneLine_ofList.mpr (by decide)
  unfold getter
  rw [oneLine_append, oneLine_append, oneLine_append, oneLine_append]
  exact ⟨⟨⟨⟨opening, oneLine_quoted name⟩, middle⟩, h⟩, closing⟩

theorem oneLine_passAllFunction : OneLine passAllFunction := by
  unfold passAllFunction
  rw [oneLine_append, oneLine_append, oneLine_append]
  refine ⟨⟨⟨oneLine_ofList.mpr ?_, oneLine_ofList.mpr ?_⟩, oneLine_ofList.mpr ?_⟩,
    oneLine_ofList.mpr ?_⟩
  all_goals decide

theorem numbered_of_mem {items : List ModuleItem} {item : ModuleItem} (mem : item ∈ items)
    (number : Nat) : ∃ object, (object, item) ∈ numbered number items := by
  induction items generalizing number with
  | nil => cases mem
  | cons first items ih =>
    rw [numbered]
    rcases List.mem_cons.mp mem with same | mem
    · subst same
      exact ⟨_, List.mem_cons_self⟩
    · obtain ⟨object, listed⟩ := ih mem (if needsTemporary first then number + 1 else number)
      exact ⟨object, List.mem_cons_of_mem _ listed⟩

theorem mem_of_numbered {items : List ModuleItem} {object : String} {item : ModuleItem}
    {number : Nat} (mem : (object, item) ∈ numbered number items) :
    OneLine object ∧ item ∈ items := by
  induction items generalizing number with
  | nil => cases mem
  | cons first items ih =>
    rw [numbered] at mem
    rcases List.mem_cons.mp mem with same | mem
    · cases same
      exact ⟨oneLine_temporary number, List.mem_cons_self⟩
    · obtain ⟨short, listed⟩ := ih mem
      exact ⟨short, List.mem_cons_of_mem _ listed⟩

/-- The prologue stands on one line if the literals of the declarations do. -/
theorem oneLine_prologue {text : List Char} {items : List ModuleItem}
    (proper : ∀ item ∈ items, item.Proper) :
    OneLine (prologue text items) ↔ ∀ item ∈ items, item.isDeclaration = true →
      ∀ source ∈ item.source?, '\n' ∉ source.literal.slice text := by
  rw [prologue, oneLine_intercalate]
  constructor
  · intro short item mem declared source is
    obtain ⟨object, listed⟩ := numbered_of_mem mem 0
    obtain ⟨statement, runs⟩ := @exists_hoisted text object item source declared is
    -- the statement of an item that names a module is a part of the prologue
    refine (oneLine_hoisted (mem_of_numbered listed).1 (proper item mem) runs).mp
      (short statement ?_) source is
    refine List.mem_cons_of_mem _ (List.mem_cons_of_mem _ (List.mem_append_right _ ?_))
    exact List.mem_filterMap.mpr ⟨(object, item), listed, runs⟩
  · -- the two fixed statements, the getters, the function that passes exports on, the calls
    intro short statement mem
    rcases List.mem_cons.mp mem with rfl | mem
    · exact oneLine_ofList.mpr (by decide)
    rcases List.mem_append.mp mem with mem | mem
    · rcases List.mem_append.mp mem with mem | mem
      · rcases List.mem_cons.mp mem with rfl | mem
        · exact oneLine_ofList.mpr (by decide)
        · obtain ⟨found, exported, is⟩ := List.mem_filterMap.mp mem
          obtain ⟨value, isValue, rfl⟩ := Option.map_eq_some_iff.mp is
          obtain ⟨⟨object, item⟩, listed, own⟩ := List.mem_flatMap.mp exported
          obtain ⟨named, mem⟩ := mem_of_numbered listed
          exact oneLine_getter _ (oneLine_exported named (proper item mem) own isValue)
      · split at mem
        · rw [List.mem_singleton] at mem
          subst mem
          exact oneLine_passAllFunction
        · cases mem
    · obtain ⟨⟨object, item⟩, listed, runs⟩ := List.mem_filterMap.mp mem
      obtain ⟨named, mem⟩ := mem_of_numbered listed
      exact (oneLine_hoisted named (proper item mem) runs).mpr
        (short item mem (isDeclaration_of_hoisted runs))

/-! ## The edits -/

/-- An edit whose replacement has as many line feeds as the text that it stands for. -/
def Edit.KeepsLines (text : List Char) (edit : Edit) : Prop :=
  lineFeeds edit.replacement = lineFeeds (edit.span.slice text)

theorem lineFeeds_replacing (text : List Char) (span : Span) (replacement : String) :
    lineFeeds (Edit.replacing text span replacement).replacement =
      lineFeeds replacement.toList + lineFeeds (span.slice text) := by
  simp [lineFeeds, Edit.replacing, List.count_append]

theorem replacing_keepsLines {text : List Char} {span : Span} {replacement : String} :
    (Edit.replacing text span replacement).KeepsLines text ↔ OneLine replacement := by
  unfold Edit.KeepsLines
  rw [lineFeeds_replacing]
  exact (Nat.add_eq_right).trans List.count_eq_zero

theorem oneLine_deferred {text : List Char} {source : Source} :
    OneLine ("Promise.resolve().then(function () \x7b return " ++ requireCall text source ++
      "; \x7d)") ↔ '\n' ∉ source.literal.slice text := by
  have opening : OneLine "Promise.resolve().then(function () \x7b return " :=
    oneLine_ofList.mpr (by decide)
  have closing : OneLine "; \x7d)" := by decide
  rw [oneLine_append, oneLine_append, oneLine_requireCall]
  exact (and_iff_left closing).trans (and_iff_right opening)

/-- Only the edit for an import at run time may add lines, those of its literal. -/
theorem edit_keepsLines {text : List Char} {item : ModuleItem} {edit : Edit}
    (is : edit? text item = some edit) : edit.KeepsLines text ↔
      (item.isDeclaration = false → ∀ source ∈ item.source?, '\n' ∉ source.literal.slice text) := by
  have empty : OneLine "" := by decide
  cases item with
  | exportDefault span keyword start name =>
    have assigned : OneLine "exports.default = " := by decide
    cases is
    cases name <;> simp [replacing_keepsLines, empty, assigned, ModuleItem.isDeclaration]
  | dynamicImport span source =>
    cases is
    rw [replacing_keepsLines, oneLine_deferred]
    simp [ModuleItem.isDeclaration, ModuleItem.source?]
  | requireCall source => cases is
  | _ =>
    cases is
    simp [replacing_keepsLines, empty, ModuleItem.isDeclaration]

/-- An edit replaces the range that its item takes. -/
theorem span_edit (text : List Char) (item : ModuleItem) :
    (edit? text item).map (·.span) = item.place? := by
  cases item <;> rfl

/-- No edit takes lines away. -/
theorem edit_grows {text : List Char} {item : ModuleItem} {edit : Edit}
    (is : edit? text item = some edit) :
    lineFeeds (edit.span.slice text) ≤ lineFeeds edit.replacement := by
  unfold edit? at is
  split at is
  all_goals first
    | (cases is
       exact (Nat.le_add_left _ _).trans_eq (lineFeeds_replacing _ _ _).symm)
    | cases is

/-- The module whose literal a conversion copies for an item.  A call of `require` stays as it
is. -/
def quotedSource? : ModuleItem → Option Source
  | .requireCall _ => none
  | item => item.source?

theorem quotedSource_of_isDeclaration {item : ModuleItem} (declared : item.isDeclaration = true) :
    quotedSource? item = item.source? := by
  cases item with
  | requireCall source => cases declared
  | _ => rfl

/-- A conversion keeps the lines of a script exactly if no literal that it copies goes on in
another line. -/
theorem keeps_lines_iff {isTyped : Bool} {text : List Char} {program : Program}
    (read : Program.read isTyped text = .ok program) :
    (OneLine (prologue text program.items) ∧
      ∀ edit ∈ edits text program.hashbang program.items, edit.KeepsLines text) ↔
    ∀ item ∈ program.items, ∀ source ∈ quotedSource? item, '\n' ∉ source.literal.slice text := by
  rw [oneLine_prologue (Program.proper_of_read read)]
  constructor
  · rintro ⟨declarations, kept⟩ item mem source is
    -- the literal of a declaration is copied to the prologue, that of an import to its place
    cases declared : item.isDeclaration with
    | true =>
      rw [quotedSource_of_isDeclaration declared] at is
      exact declarations item mem declared source is
    | false =>
      cases item with
      | dynamicImport span own =>
        have edited := kept _ (List.mem_append_right _ (List.mem_filterMap.mpr ⟨_, mem, rfl⟩))
        exact (@edit_keepsLines text (.dynamicImport span own) _ rfl).mp edited rfl source is
      | requireCall own => cases is
      | _ => cases declared
  · intro short
    refine ⟨fun item mem declared source is => short item mem source ?_, fun edit mem => ?_⟩
    · rw [quotedSource_of_isDeclaration declared]
      exact is
    · rcases List.mem_append.mp mem with mem | mem
      · obtain ⟨span, -, rfl⟩ := List.mem_map.mp mem
        exact replacing_keepsLines.mpr (by decide)
      · obtain ⟨item, listed, is⟩ := List.mem_filterMap.mp mem
        refine (edit_keepsLines is).mpr fun _ source named => short item listed source ?_
        cases item with
        | requireCall own => cases is
        | _ => exact named

/-- What a conversion replaces ends behind its beginning, and no line is taken away. -/
theorem edits_growing {isTyped : Bool} {text : List Char} {program : Program}
    (read : Program.read isTyped text = .ok program) :
    ∀ edit ∈ edits text program.hashbang program.items, edit.Growing text := by
  intro edit mem
  rcases List.mem_append.mp mem with mem | mem
  · obtain ⟨span, is, rfl⟩ := List.mem_map.mp mem
    refine ⟨?_, (Nat.le_add_left _ _).trans_eq (lineFeeds_replacing _ _ _).symm⟩
    have first := Program.hashbang_of_read read span (Option.mem_toList.mp is)
    exact first ▸ Nat.zero_le _
  · obtain ⟨item, listed, is⟩ := List.mem_filterMap.mp mem
    have place : item.place? = some edit.span := by
      rw [← span_edit text item, is]
      rfl
    exact ⟨Nat.le_of_lt (Program.nonempty_of_read read item listed edit.span place), edit_grows is⟩

/-! ## The code -/

/-- The code of a script with the positions that its characters come from. -/
def tracedCode (text : List Char) (program : Program) : List Traced :=
  let body := trace text (edits text program.hashbang program.items)
  if program.items.any ModuleItem.isDeclaration then
    inserted ((prologue text program.items).toList ++ ['\n']) ++ body
  else body

/-- The lines before the text of a converted script. -/
def linesBefore (text : List Char) (program : Program) : Nat :=
  if program.items.any ModuleItem.isDeclaration then
    lineFeeds (prologue text program.items).toList + 1
  else 0

theorem chars_tracedCode (text : List Char) (program : Program) :
    (tracedCode text program).map (·.char) = code text program.hashbang program.items := by
  unfold tracedCode code
  split
  · rw [List.map_append, chars_inserted, chars_trace, List.append_assoc]
    rfl
  · exact chars_trace _ _

/-- The positions that a conversion keeps: all that no edit takes. -/
theorem mem_tracedCode {isTyped : Bool} {text : List Char} {program : Program} {p : Nat}
    (read : Program.read isTyped text = .ok program) :
    (∃ c, ⟨c, some p⟩ ∈ tracedCode text program) ↔
      p < text.length ∧ ∀ edit ∈ made (edits text program.hashbang program.items),
        ¬(edit.span.start ≤ p ∧ p < edit.span.stop) := by
  rw [← mem_trace fun edit mem => (edits_growing read edit mem).ordered]
  unfold tracedCode
  split
  · simp only [List.mem_append, not_mem_inserted, false_or]
  · rfl

/-- A character that is still there stands behind the lines of the prologue and those that the
edits before it add. -/
theorem lines_tracedCode {isTyped : Bool} {text : List Char} {program : Program} {p : Nat}
    (read : Program.read isTyped text = .ok program) {before after : List Traced} {c : Char}
    (is : tracedCode text program = before ++ ⟨c, some p⟩ :: after) :
    text[p]? = some c ∧ tracedLineFeeds before = lineFeeds (text.take p) +
      linesBefore text program +
        addedBefore text p (made (edits text program.hashbang program.items)) := by
  have growing := edits_growing read
  unfold tracedCode at is
  dsimp only at is
  unfold linesBefore
  split at is
  · rename_i declared
    rw [if_pos declared]
    -- no character of the prologue comes from the text
    rcases append_eq_append_cons is with ⟨between, inside⟩ | ⟨body, isBefore, rest⟩
    · refine absurd ?_ (@not_mem_inserted ((prologue text program.items).toList ++ ['\n']) c p)
      rw [inside]
      simp
    · subst isBefore
      obtain ⟨found, lines⟩ := lines_trace growing rest
      refine ⟨found, ?_⟩
      have all : tracedLineFeeds (inserted ((prologue text program.items).toList ++ ['\n']) ++
          body) = lineFeeds (prologue text program.items).toList + 1 + tracedLineFeeds body := by
        simp [lineFeeds]
      rw [all, lines]
      omega
  · rename_i undeclared
    rw [if_neg undeclared]
    exact lines_trace growing is

/-- In a converted script whose literals, where they are copied, stand on one line, the prologue is
one line and every edit keeps the lines, and so a character that is still there stands on its line
of the text, or on the next one behind a prologue. -/
theorem convert_keeps_lines {isTyped : Bool} {text : List Char} {compiled : CompiledModule}
    (converted : convert isTyped text = .ok compiled) :
    ∃ program, Program.read isTyped text = .ok program ∧
      (tracedCode text program).map (·.char) = compiled.code.toList ∧
      (∀ p, (∃ c, ⟨c, some p⟩ ∈ tracedCode text program) ↔
        p < text.length ∧ ∀ edit ∈ made (edits text program.hashbang program.items),
          ¬(edit.span.start ≤ p ∧ p < edit.span.stop)) ∧
      ((OneLine (prologue text program.items) ∧
          ∀ edit ∈ edits text program.hashbang program.items, edit.KeepsLines text) ↔
        ∀ item ∈ program.items, ∀ source ∈ quotedSource? item,
          '\n' ∉ source.literal.slice text) ∧
      ((∀ item ∈ program.items, ∀ source ∈ quotedSource? item,
          '\n' ∉ source.literal.slice text) →
        ∀ before c p after, tracedCode text program = before ++ ⟨c, some p⟩ :: after →
          text[p]? = some c ∧ tracedLineFeeds before = lineFeeds (text.take p) +
            if program.items.any ModuleItem.isDeclaration then 1 else 0) := by
  obtain ⟨program, read, -, isCode⟩ := read_of_convert converted
  refine ⟨program, read, (chars_tracedCode text program).trans isCode.symm,
    fun p => mem_tracedCode read, keeps_lines_iff read, fun short before c p after is => ?_⟩
  obtain ⟨oneLine, kept⟩ := (keeps_lines_iff read).mpr short
  obtain ⟨found, lines⟩ := lines_tracedCode read is
  have first : linesBefore text program =
      if program.items.any ModuleItem.isDeclaration then 1 else 0 := by
    unfold linesBefore
    rw [lineFeeds, List.count_eq_zero.mpr oneLine]
  have added : addedBefore text p (made (edits text program.hashbang program.items)) = 0 := by
    refine addedBefore_of_surplus fun edit mem => ?_
    exact Nat.sub_eq_zero_of_le (Nat.le_of_eq (kept edit (mem_of_mem_made mem)))
  refine ⟨found, ?_⟩
  rw [lines, first, added, Nat.add_zero]

theorem convert_keeps_lines_multiline :
    ∃ compiled program,
      convert false "import a\nfrom './b';\na".toList = .ok compiled ∧
      Program.read false "import a\nfrom './b';\na".toList = .ok program ∧
      ∀ before c p after,
        tracedCode "import a\nfrom './b';\na".toList program =
            before ++ ⟨c, some p⟩ :: after →
          tracedLineFeeds before =
            lineFeeds ("import a\nfrom './b';\na".toList.take p) + 1 := by
  have run : (convert false
      "import a\nfrom './b';\na".toList).toOption.isSome = true := by
    decide +kernel
  obtain ⟨compiled, converted⟩ := Option.isSome_iff_exists.mp run
  have converted := ok_of_toOption converted
  obtain ⟨program, read, -, -, -, lines⟩ := convert_keeps_lines converted
  have short : (Program.read false
      "import a\nfrom './b';\na".toList).toOption.map (fun program =>
        (program.items.any ModuleItem.isDeclaration,
          decide (∀ item ∈ program.items, ∀ source ∈ quotedSource? item, '\n' ∉ source.literal.slice
            "import a\nfrom './b';\na".toList))) = some (true, true) := by
    decide +kernel
  rw [read] at short
  obtain ⟨declared, short⟩ := Prod.mk.inj (Option.some.inj short)
  refine ⟨compiled, program, converted, read, fun before c p after is => ?_⟩
  rw [(lines (of_decide_eq_true short) before c p after is).2, if_pos declared]

/-- A line continuation in the literal of a declaration moves what stands behind it: the literal
makes two lines of the prologue, while its own lines stay. -/
theorem lines_moved :
    ∃ compiled program, convert false "import './a\\\nb';\nx".toList = .ok compiled ∧
      Program.read false "import './a\\\nb';\nx".toList = .ok program ∧
      (tracedCode "import './a\\\nb';\nx".toList program).map (·.char) = compiled.code.toList ∧
      program.items.any ModuleItem.isDeclaration = true ∧
      ∃ before, tracedCode "import './a\\\nb';\nx".toList program = before ++ [⟨'x', some 17⟩] ∧
        tracedLineFeeds before = lineFeeds ("import './a\\\nb';\nx".toList.take 17) + 2 := by
  have run : (convert false "import './a\\\nb';\nx".toList).toOption.isSome = true := by
    decide +kernel
  obtain ⟨compiled, converted⟩ := Option.isSome_iff_exists.mp run
  have converted := ok_of_toOption converted
  obtain ⟨program, read, -, isCode⟩ := read_of_convert converted
  have moved : (Program.read false "import './a\\\nb';\nx".toList).toOption.map (fun program =>
      (program.items.any ModuleItem.isDeclaration,
        (tracedCode "import './a\\\nb';\nx".toList program).getLast?,
        tracedLineFeeds (tracedCode "import './a\\\nb';\nx".toList program).dropLast)) =
      some (true, some ⟨'x', some 17⟩, 4) := by
    decide +kernel
  rw [read] at moved
  obtain ⟨declared, rest⟩ := Prod.mk.inj (Option.some.inj moved)
  obtain ⟨last, lines⟩ := Prod.mk.inj rest
  refine ⟨compiled, program, converted, read, (chars_tracedCode _ program).trans isCode.symm,
    declared, _, (List.dropLast_append_getLast? _ last).symm, ?_⟩
  rw [lines]
  decide

end ModuleBundler.Conversion

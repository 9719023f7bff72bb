/-
# ModuleBundler.Proofs.Script.Programs — whole scripts.

The knot of the grammar is tied by recursion on a number of steps, and by induction on it every
goal is read in order.  A script is read statement by statement.  In a module some statements are
read again from where they began, so that a statement may reach behind the beginning of the next
one; but each of them stands inside of its range, and in the text.
-/
import ModuleBundler.Proofs.Script.Statements
import ModuleBundler.Script.ModuleItem

namespace ModuleBundler.Script

open Reader

namespace Grammar

theorem extends_production {g : Grammar} (orderly : g.Orderly) (goal : Goal) :
    Extends (g.production goal) [] fun node => [node] := by
  cases goal with
  | expression => exact extends_expression orderly
  | assignment => exact (takes_assignment orderly).rows
  | binary level => exact (takes_binary orderly level).rows
  | unary start => exact (takes_unary orderly start).rows
  | operand => exact (takes_chain orderly true).rows
  | callee => exact (takes_chain orderly false).rows
  | statement place => exact extends_statement orderly place
  | pattern => exact extends_pattern orderly

/-- A bounded grammar reads in order; for what it reads, the bound of lists does not matter. -/
theorem orderly_bounded (length steps : Nat) : Orderly ⟨length, readGoal steps⟩ := by
  induction steps generalizing length with
  | zero => exact ⟨fun _ => (refuses_fail _).extends, (refuses_fail _).takes,
      fun _ => (refuses_fail _).starts⟩
  | succ steps ih =>
    exact ⟨extends_production (ih _), takes_assignment (ih _), fun _ => starts_assignment (ih _)⟩

theorem contained_bounded (text : List Char) (steps : Nat) (place : Place) :
    GivesIn text ((bounded steps).read (.statement place)) (Node.Contained text) := by
  cases steps with
  | zero => exact (refuses_fail _).gives.inText
  | succ steps => exact contained_statement (orderly_bounded _ _) place

end Grammar

/-! ## Readers in a text -/

namespace Reader

variable {α : Type} {text : List Char} {holds : α → Prop}

theorem givesIn_get :
    GivesIn text (get : Reader ReaderState) fun state => state.Sound text := by
  intro state result next sound run
  cases run
  exact ⟨sound.onward, sound⟩

theorem GivesIn.gather {item : Reader (Option α)}
    (h : GivesIn text item fun found => ∀ a ∈ found, holds a) {steps : Nat} {found : List α}
    (all : ∀ a ∈ found, holds a) :
    GivesIn text (gather item steps found) fun items => ∀ a ∈ items, holds a := by
  induction steps generalizing found with
  | zero => exact (refuses_fail _).gives.inText
  | succ steps ih =>
    refine h.bind fun next held => ?_
    split
    · exact (Gives.pure fun a mem => all a (List.mem_reverse.mp mem)).inText
    · exact ih (List.forall_mem_cons.mpr ⟨held _ rfl, all⟩)

end Reader

/-- A construct inside of its range that stands in a text. -/
structure Node.Within (text : List Char) (node : Node) : Prop where
  contained : node.Contained text
  row : Row text 0 text.length [node]

namespace Grammar

theorem within_bounded (text : List Char) (steps : Nat) (place : Place) :
    GivesIn text ((bounded steps).read (.statement place)) (Node.Within text) := by
  intro state node next sound run
  obtain ⟨onward, contained⟩ := contained_bounded text steps place _ _ _ sound run
  obtain ⟨-, rows⟩ := (orderly_bounded steps steps).rows _ _ _ _ _ sound (Nat.zero_le _) run
  -- the statement ends with the last lexeme read, and no lexeme ends behind the text
  exact ⟨onward, contained, (rows .nil).mono (Nat.le_refl _) onward.sound.previousStop_le⟩

end Grammar

/-! ## Statements outside of every function -/

/-- A statement in its place in a text; the reader may go back to where it stood before it. -/
structure OuterStatement.Sound (text : List Char) (outer : OuterStatement) : Prop where
  within : outer.node.Within text
  before : ∀ state ∈ outer.before, state.Sound text

namespace Grammar

variable {g : Grammar} {text : List Char}

theorem passes_allowAwait : Passes allowAwait :=
  passes_surroundings _

theorem givesIn_outerStatement
    (statement : GivesIn text (g.read (.statement .list)) (Node.Within text)) :
    GivesIn text (outerStatement g) fun found => ∀ outer ∈ found, outer.Sound text := by
  refine passes_atEnd.inText.bind fun ends _ => .ite (Gives.pure (by simp)).inText ?_
  refine (passes_note _).inText.bind fun _ _ => givesIn_get.bind fun before sound => ?_
  refine statement.bind fun node within => Gives.inText ?_
  refine gives_get.passes.bind fun state => ?_
  have outer (isOpen : Bool) : Gives (pure (some ⟨node, if isOpen then some before else none⟩))
      fun found : Option OuterStatement => ∀ outer ∈ found, outer.Sound text := by
    refine .pure fun outer mem => ?_
    cases mem
    refine ⟨within, fun state mem => ?_⟩
    cases isOpen with
    | true =>
      cases mem
      exact sound
    | false => cases mem
  exact .when passes_allowAwait fun _ => outer _

theorem tryCatch_ok {α : Type} {reader : Reader α} {handler : SyntaxError → Reader α}
    {state next : ReaderState} {result : α}
    (run : tryCatch reader handler state = .ok result next) :
    reader state = .ok result next ∨ ∃ error between, handler error between = .ok result next := by
  change EStateM.tryCatch reader handler state = _ at run
  unfold EStateM.tryCatch at run
  dsimp only at run
  split at run
  · exact .inr ⟨_, _, run⟩
  · exact .inl run

/-- A statement that is read again is one like it. -/
theorem makes_statementAgain
    (statement : GivesIn text (g.read (.statement .list)) (Node.Within text))
    (last : Option Nat) {outer : OuterStatement} (sound : outer.Sound text) :
    Makes (statementAgain g last outer) (Node.Within text) := by
  unfold statementAgain
  split
  · exact .pure sound.within
  · rename_i before is
    intro state node next run
    obtain ⟨_, middle, first, second⟩ := bind_ok run
    -- going back changes neither the lexeme nor its place, so the state is as sound as it was
    have back : middle.Sound text := by
      cases first
      have sound := sound.before before is
      exact ⟨sound.behind, sound.proper, sound.fits⟩
    obtain ⟨_, again, third, fourth⟩ := bind_ok second
    obtain ⟨onward, -⟩ := passes_allowAwait _ _ _ back third
    split at fourth
    · exact (statement _ _ _ onward.sound fourth).2
    · obtain ⟨found, _, fifth, sixth⟩ := bind_ok fourth
      -- where the statement is refused now, the one that was read before stays
      rcases tryCatch_ok fifth with run | ⟨_, _, run⟩
      · obtain ⟨read, _, run, last⟩ := bind_ok run
        cases last
        cases sixth
        exact (statement _ _ _ onward.sound run).2
      · cases run
        cases sixth
        exact sound.within

theorem makes_statementsAgain
    (statement : GivesIn text (g.read (.statement .list)) (Node.Within text))
    (last : Option Nat) {outers : List OuterStatement}
    (sound : ∀ outer ∈ outers, outer.Sound text) :
    Makes (outers.mapM (statementAgain g last)) fun nodes =>
      ∀ node ∈ nodes, node.Within text := by
  induction outers with
  | nil => exact .pure (by simp)
  | cons outer outers ih =>
    rw [List.mapM_cons]
    refine (makes_statementAgain statement last (sound _ List.mem_cons_self)).bind ?_
    intro node within
    refine (ih fun outer mem => sound outer (List.mem_cons_of_mem _ mem)).bind ?_
    intro nodes all
    exact .pure (List.forall_mem_cons.mpr ⟨within, all⟩)

theorem outerStatements_within
    (statement : GivesIn text (g.read (.statement .list)) (Node.Within text))
    {state next : ReaderState} {nodes : List Node} (sound : state.Sound text)
    (run : outerStatements g state = .ok nodes next) : ∀ node ∈ nodes, node.Within text := by
  obtain ⟨outers, between, first, second⟩ := bind_ok run
  obtain ⟨-, all⟩ := (givesIn_outerStatement statement).gather (by simp) _ _ _ sound first
  obtain ⟨_, _, third, fourth⟩ := bind_ok second
  cases third
  split at fourth
  · exact makes_statementsAgain statement _ all _ _ _ fourth
  · cases fourth
    intro node mem
    obtain ⟨outer, listed, rfl⟩ := List.mem_map.mp mem
    exact (all outer listed).within

end Grammar

/-! ## Scripts -/

theorem hashbangExtent_le (text : List Char) : hashbangExtent text ≤ text.length := by
  unfold hashbangExtent
  split
  · rename_i rest
    exact Nat.add_le_add_right (List.takeWhile_prefix _).length_le 2
  · exact Nat.zero_le _

theorem ReaderState.sound_initial (text : List Char) : (ReaderState.initial text).Sound text := by
  refine ⟨Scan.le_lexeme_start _ _ _, Scan.lexeme_proper _ _ _, Scan.lexeme_fits ⟨.inl rfl, ?_⟩ true⟩
  rw [List.length_drop]
  exact Nat.le_of_eq (Nat.add_sub_cancel' (hashbangExtent_le text))

/-- Every statement of a script that has been read stands in its text. -/
theorem Program.read_within {isTyped : Bool} {text : List Char} {program : Program}
    (h : Program.read isTyped text = .ok program) :
    ∀ node ∈ program.statements, node.Within text := by
  unfold Program.read at h
  dsimp only at h
  split at h
  · cases h
  · rename_i statements state run
    split at h
    · cases h
    · cases h
      exact Grammar.outerStatements_within (Grammar.within_bounded _ _ _)
        (ReaderState.sound_initial text) run

/-- Every statement of a script that has been read stands inside of its range. -/
theorem Program.read_contained {isTyped : Bool} {text : List Char} {program : Program}
    (h : Program.read isTyped text = .ok program) :
    ∀ node ∈ program.statements, node.Contained text :=
  fun node mem => (Program.read_within h node mem).contained

/-- The line that names an interpreter is the first of a script, if there is one. -/
theorem Program.hashbang_eq {isTyped : Bool} {text : List Char} {program : Program}
    (h : Program.read isTyped text = .ok program) : program.hashbang =
      if hashbangExtent text = 0 then none else some ⟨0, hashbangExtent text⟩ := by
  unfold Program.read at h
  dsimp only at h
  split at h
  · cases h
  · split at h
    · cases h
    · cases h
      rfl

theorem Program.hashbang_of_read {isTyped : Bool} {text : List Char} {program : Program}
    (h : Program.read isTyped text = .ok program) :
    ∀ span ∈ program.hashbang, span = ⟨0, hashbangExtent text⟩ := by
  intro span is
  rw [Program.hashbang_eq h] at is
  split at is
  · cases is
  · cases is
    rfl

theorem newline_not_mem_hashbang (text : List Char) :
    '\n' ∉ Span.slice ⟨0, hashbangExtent text⟩ text := by
  unfold hashbangExtent
  split
  · rename_i rest
    intro mem
    change '\n' ∈ '#' :: '!' :: rest.take (rest.takeWhile fun c => !isLineEnd c).length at mem
    rw [← List.prefix_iff_eq_take.mp (List.takeWhile_prefix _)] at mem
    rcases List.mem_cons.mp mem with first | mem
    · exact absurd first (by decide)
    rcases List.mem_cons.mp mem with second | mem
    · exact absurd second (by decide)
    · exact absurd (List.all_eq_true.mp List.all_takeWhile _ mem) (by decide)
  · simp [Span.slice]

end ModuleBundler.Script

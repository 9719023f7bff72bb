/-
# ModuleBundler.Proofs.Script.Standalone — texts that are read by themselves.

Where a statement ends may be up to what follows: one without a semicolon goes on behind the end of
its line if it can.  A text stands alone if this is not so, that is if the same statements are read
from it wherever it stands outside of every function and whatever follows (`Standalone`).  Texts
that stand alone do so one behind the other (`ReadAs.append`), and a script that consists of them is
read as their statements (`Leading.exists_read`).
-/
import ModuleBundler.Proofs.Script.Programs
import ModuleBundler.Proofs.Script.Shape

namespace ModuleBundler.Script

/-! ## Standing before a text -/

/-- A reader that stands before a text outside of every function, in a script in which nothing has
been found wrong. -/
structure ReaderState.FacesAt (state : ReaderState) (text : List Char) (position : Nat)
    (newline : Bool) : Prop where
  lexeme : state.lexeme = (Scan.lexeme text position newline).lexeme
  here : state.here = (Scan.lexeme text position newline).here
  rest : state.rest = (Scan.lexeme text position newline).rest
  surroundings : state.surroundings = .outermost
  lexicalFaults : state.lexicalFaults = (Scan.lexeme text position newline).faults ++ []
  complaints : state.complaints = []
  isModule : state.notes.isModule = false
  waitingLoop : state.notes.waitingLoop = none

/-- The state of such a reader. -/
def ReaderState.facing (text : List Char) (position : Nat) (newline : Bool) (stop : Nat)
    (notes : Notes) : ReaderState :=
  let scanned := Scan.lexeme text position newline
  { lexeme := scanned.lexeme
    here := scanned.here
    rest := scanned.rest
    previousStop := stop
    surroundings := .outermost
    lexicalFaults := scanned.faults ++ []
    complaints := []
    notes := notes }

/-- The same wherever the text stands. -/
def ReaderState.Faces (state : ReaderState) (text : List Char) : Prop :=
  ∃ position newline, state.FacesAt text position newline

/-- A blank makes no difference to the lexeme behind it. -/
theorem skip_blank {c : Char} (blank : isLineEnd c = true ∨ isSpace c = true)
    (comments : Scan.Comments) (newline : Bool) (rest : List Char) (position : Nat) :
    Scan.skip .blank comments newline (c :: rest) position =
      Scan.skip .blank comments (newline || isLineEnd c) rest (position + 1) := by
  have solid : c ≠ '/' ∧ c ≠ '<' ∧ c ≠ '-' := by
    refine ⟨?_, ?_, ?_⟩
    all_goals
      rintro rfl
      revert blank
      decide
  obtain ⟨slash, less, minus⟩ := solid
  by_cases line : isLineEnd c = true
  · simp [Scan.skip, slash, less, minus, line]
  · have space : isSpace c = true := blank.resolve_left line
    simp [Scan.skip, slash, less, minus, line, space]

theorem ReaderState.Faces.of_blank {state : ReaderState} {c : Char} {text : List Char}
    (blank : isLineEnd c = true ∨ isSpace c = true) (faces : state.Faces (c :: text)) :
    state.Faces text := by
  obtain ⟨position, newline, faces⟩ := faces
  have same : Scan.lexeme (c :: text) position newline =
      Scan.lexeme text (position + 1) (newline || isLineEnd c) := by
    unfold Scan.lexeme
    rw [skip_blank blank]
  refine ⟨position + 1, newline || isLineEnd c, ?_⟩
  obtain ⟨lexeme, here, rest, surroundings, lexicalFaults, complaints, isModule, waitingLoop⟩ := faces
  rw [same] at lexeme here rest lexicalFaults
  exact ⟨lexeme, here, rest, surroundings, lexicalFaults, complaints, isModule, waitingLoop⟩

/-! ## Statements one after the other -/

namespace Grammar

open Reader

/-- Statements outside of every function, read one after the other. -/
inductive ReadsAll (g : Grammar) : ReaderState → List Node → ReaderState → Prop
  | nil {state : ReaderState} : ReadsAll g state [] state
  | cons {state between after : ReaderState} {outer : OuterStatement} {nodes : List Node}
      (first : outerStatement g state = .ok (some outer) between)
      (others : ReadsAll g between nodes after) : ReadsAll g state (outer.node :: nodes) after

variable {g : Grammar} {state between after : ReaderState} {nodes others : List Node}

theorem ReadsAll.append (first : ReadsAll g state nodes between)
    (second : ReadsAll g between others after) : ReadsAll g state (nodes ++ others) after := by
  induction first with
  | nil => exact second
  | cons run _ ih => exact .cons run (ih second)

/-- Reads a number of statements. -/
def readCount (g : Grammar) : (count : Nat) → Reader (List Node)
  | 0 => return []
  | count + 1 => do
    match ← outerStatement g with
    | none => fail .unexpectedToken
    | some outer => return outer.node :: (← readCount g count)

theorem ReadsAll.of_run {count : Nat} (run : readCount g count state = .ok nodes after) :
    ReadsAll g state nodes after := by
  induction count generalizing state nodes with
  | zero =>
    cases run
    exact .nil
  | succ count ih =>
    obtain ⟨found, between, first, rest⟩ := bind_ok run
    cases found with
    | none => exact absurd rest (refuses_fail _ _ _ _)
    | some outer =>
      obtain ⟨others, _, run, last⟩ := bind_ok rest
      cases last
      exact .cons first (ih run)

/-- What is read one after the other is gathered. -/
theorem ReadsAll.gather (reads : ReadsAll g state nodes after) (steps : Nat)
    (before : List OuterStatement) : ∃ outers : List OuterStatement, outers.map (·.node) = nodes ∧
      Reader.gather (outerStatement g) (steps + nodes.length) before state =
        Reader.gather (outerStatement g) steps (outers.reverse ++ before) after := by
  induction reads generalizing before with
  | nil => exact ⟨[], rfl, rfl⟩
  | @cons state between after outer nodes first _ ih =>
    obtain ⟨outers, rfl, run⟩ := ih (outer :: before)
    refine ⟨outer :: outers, rfl, ?_⟩
    rw [List.reverse_cons, List.append_assoc, List.singleton_append, ← run]
    change EStateM.bind _ _ _ = _
    rw [EStateM.bind, first]
    rfl

/-- Before the end of a text there is no further statement. -/
theorem outerStatement_of_faces_nil (faces : state.Faces []) :
    outerStatement g state = .ok none state := by
  obtain ⟨position, newline, faces⟩ := faces
  obtain ⟨lexeme, _, _, _, _, _, _, _⟩ := state
  obtain rfl : lexeme = (Scan.lexeme [] position newline).lexeme := faces.lexeme
  rfl

/-- What is read up to the end of a text are the statements of a script. -/
theorem ReadsAll.outerStatements (reads : ReadsAll g state nodes after) (faces : after.Faces [])
    (short : nodes.length < g.steps) : outerStatements g state = .ok nodes after := by
  obtain ⟨steps, enough⟩ := Nat.exists_eq_add_of_lt short
  obtain ⟨outers, rfl, run⟩ := reads.gather (steps + 1) []
  have gathered : many g.steps (outerStatement g) state = .ok outers after := by
    have all : g.steps = steps + 1 + (outers.map (·.node)).length := by omega
    rw [many, all, run, Reader.gather]
    change EStateM.bind _ _ _ = _
    rw [EStateM.bind, outerStatement_of_faces_nil faces, List.append_nil]
    dsimp only
    rw [List.reverse_reverse]
    rfl
  obtain ⟨position, newline, faces⟩ := faces
  obtain ⟨_, _, _, _, _, _, _, ⟨_, isModule, _, _, _, _⟩⟩ := after
  obtain rfl : isModule = false := faces.isModule
  change EStateM.bind _ _ _ = _
  rw [EStateM.bind, gathered]
  rfl

end Grammar

/-! ## Texts that stand alone -/

/-- From a text, statements are read that are given without their ranges, by readers that stand
before it in a certain way, whatever follows.  They stand behind it then. -/
structure ReadAs (standing : ReaderState → List Char → Prop) (text : List Char)
    (trees : List Node) : Prop where
  short : trees.length ≤ text.length
  reads : ∀ steps, stepsFor text.length ≤ steps → ∀ (behind : List Char) (state : ReaderState),
    standing state (text ++ behind) → ∃ nodes after,
      Grammar.ReadsAll (.bounded steps) state nodes after ∧ after.Faces behind ∧
        Node.shapes nodes = trees ∧ Node.strayDefaultAmong? nodes = none

/-- A text that is read as certain statements wherever it stands outside of every function. -/
abbrev Standalone (text : List Char) (trees : List Node) : Prop :=
  ReadAs ReaderState.Faces text trees

/-- A text that is read as certain statements where a script begins with it. -/
abbrev Leading (text : List Char) (trees : List Node) : Prop :=
  ReadAs (fun state text => hashbangExtent text = 0 ∧ state = .initial text) text trees

theorem stepsFor_mono {length longer : Nat} (le : length ≤ longer) :
    stepsFor length ≤ stepsFor longer := by
  unfold stepsFor
  omega

theorem Node.shapes_append (nodes others : List Node) :
    Node.shapes (nodes ++ others) = Node.shapes nodes ++ Node.shapes others := by
  induction nodes with
  | nil => rfl
  | cons node nodes ih => exact congrArg (node.shape :: ·) ih

theorem Node.length_shapes (nodes : List Node) : (Node.shapes nodes).length = nodes.length := by
  induction nodes with
  | nil => rfl
  | cons node nodes ih => exact congrArg (· + 1) ih

theorem Node.strayDefaultAmong?_append {nodes others : List Node}
    (first : Node.strayDefaultAmong? nodes = none)
    (second : Node.strayDefaultAmong? others = none) :
    Node.strayDefaultAmong? (nodes ++ others) = none := by
  induction nodes with
  | nil => exact second
  | cons node nodes ih =>
    rw [Node.strayDefaultAmong?] at first
    rw [List.cons_append, Node.strayDefaultAmong?]
    cases own : node.strayDefault? with
    | some position =>
      rw [own] at first
      cases first
    | none =>
      rw [own] at first
      exact ih first

theorem ReaderState.faces_initial {text : List Char} (unnamed : hashbangExtent text = 0) :
    (ReaderState.initial text).Faces text := by
  refine ⟨0, true, ?_⟩
  unfold ReaderState.initial
  rw [unnamed]
  exact ⟨rfl, rfl, rfl, rfl, (List.append_nil _).symm, rfl, rfl, rfl⟩

variable {text more : List Char} {trees others : List Node}

/-- Behind a text that is read as statements may stand one that stands alone. -/
theorem ReadAs.append {standing : ReaderState → List Char → Prop}
    (first : ReadAs standing text trees) (second : Standalone more others) :
    ReadAs standing (text ++ more) (trees ++ others) where
  short := by
    rw [List.length_append, List.length_append]
    exact Nat.add_le_add first.short second.short
  reads steps le behind state stands := by
    rw [List.length_append] at le
    rw [List.append_assoc] at stands
    obtain ⟨nodes, between, reads, faces, rfl, stray⟩ :=
      first.reads steps (Nat.le_trans (stepsFor_mono (Nat.le_add_right _ _)) le) _ state stands
    obtain ⟨nodes', after, reads', faces, rfl, stray'⟩ :=
      second.reads steps (Nat.le_trans (stepsFor_mono (Nat.le_add_left _ _)) le) _ between faces
    exact ⟨nodes ++ nodes', after, reads.append reads', faces, Node.shapes_append _ _,
      Node.strayDefaultAmong?_append stray stray'⟩

namespace Standalone

theorem nil : Standalone [] [] where
  short := Nat.le_refl _
  reads _ _ _ state faces := ⟨[], state, .nil, faces, rfl, rfl⟩

theorem leading (alone : Standalone text trees) : Leading text trees where
  short := alone.short
  reads steps le behind state stands := by
    obtain ⟨unnamed, rfl⟩ := stands
    exact alone.reads steps le behind _ (ReaderState.faces_initial unnamed)

/-- Blanks hold no statement. -/
theorem of_blank (blank : ∀ c ∈ text, isLineEnd c = true ∨ isSpace c = true) :
    Standalone text [] where
  short := Nat.zero_le _
  reads steps le behind state faces := by
    refine ⟨[], state, .nil, ?_, rfl, rfl⟩
    clear le
    induction text with
    | nil => exact faces
    | cons c rest ih =>
      obtain ⟨first, others⟩ := List.forall_mem_cons.mp blank
      exact ih others (faces.of_blank first)

/-- To stand alone is to be passed over by readers that stand before the text. -/
theorem of_run (short : trees.length ≤ text.length)
    (reads : ∀ steps behind position newline stop comments namesAwait declarations groups,
      ∃ nodes after, Grammar.readCount (.bounded (steps + stepsFor text.length)) trees.length
          (.facing (text ++ behind) position newline stop
            ⟨comments, false, namesAwait, none, declarations, groups⟩) = .ok nodes after ∧
        after.Faces behind ∧ Node.shapes nodes = trees ∧ Node.strayDefaultAmong? nodes = none) :
    Standalone text trees where
  short := short
  reads steps le behind state faces := by
    obtain ⟨more, rfl⟩ := Nat.exists_eq_add_of_le' le
    obtain ⟨position, newline, faces⟩ := faces
    obtain ⟨_, _, _, stop, _, _, _, ⟨comments, _, namesAwait, _, declarations, groups⟩⟩ := state
    obtain ⟨rfl, rfl, rfl, rfl, rfl, rfl, rfl, rfl⟩ := faces
    obtain ⟨nodes, after, run, facts⟩ :=
      reads more behind position newline stop comments namesAwait declarations groups
    exact ⟨nodes, after, .of_run run, facts⟩

end Standalone

theorem Leading.of_run (short : trees.length ≤ text.length)
    (reads : ∀ steps behind, ∃ nodes after,
      Grammar.readCount (.bounded (steps + stepsFor text.length)) trees.length
          (.initial (text ++ behind)) = .ok nodes after ∧
        after.Faces behind ∧ Node.shapes nodes = trees ∧ Node.strayDefaultAmong? nodes = none) :
    Leading text trees where
  short := short
  reads steps le behind state stands := by
    obtain ⟨more, rfl⟩ := Nat.exists_eq_add_of_le' le
    obtain ⟨-, rfl⟩ := stands
    obtain ⟨nodes, after, run, facts⟩ := reads more behind
    exact ⟨nodes, after, .of_run run, facts⟩

/-- A script is read as the statements of its text. -/
theorem Leading.exists_read (leading : Leading text trees) (unnamed : hashbangExtent text = 0)
    (isTyped : Bool) : ∃ program, Program.read isTyped text = .ok program ∧
      Node.shapes program.statements = trees := by
  have stands : hashbangExtent (text ++ []) = 0 ∧
      ReaderState.initial text = .initial (text ++ []) := by
    rw [List.append_nil]
    exact ⟨unnamed, rfl⟩
  obtain ⟨nodes, after, reads, faces, isTrees, stray⟩ :=
    leading.reads _ (Nat.le_refl _) [] _ stands
  have short : nodes.length < stepsFor text.length := by
    have short := leading.short
    rw [← isTrees, Node.length_shapes] at short
    unfold stepsFor
    omega
  have run := reads.outerStatements faces short
  obtain ⟨position, newline, faces⟩ := faces
  have faultless : after.faults = [] := by
    rw [ReaderState.faults, faces.lexicalFaults, faces.complaints]
    rfl
  refine ⟨⟨nodes, none, after.notes.declarations.reverse, after.notes.misfit⟩, ?_, isTrees⟩
  unfold Program.read
  dsimp only
  rw [EStateM.run, run]
  dsimp only
  rw [faultless, stray, unnamed]
  rfl

end ModuleBundler.Script

/-
# ModuleBundler.Proofs.Script.Ranges — readers of constructs that have a range.

Declarations of modules and imports at run time take ranges of the text, so that it matters where
they begin and end.  A construct begins where its first lexeme does and ends with the last one, and
what is between them lies inside of it: a reader `Completes` a construct behind its parts.  One that
reads what another construct exports `Anchors` it, for that begins behind the words that export it.
-/
import ModuleBundler.Proofs.Script.Reading

namespace ModuleBundler.Script

/-- A construct that begins at a position and declares no class. -/
structure Node.Begins (start : Nat) (node : Node) : Prop where
  start : node.span.start = start
  plain : node.declaresClass = false

namespace Reader

variable {α β : Type}

/-! ## Judgements -/

/-- A reader that passes over a lexeme at least. -/
def Consumes (reader : Reader α) : Prop :=
  ∀ state result next ⦃text⦄, state.Sound text → reader state = .ok result next →
    state.Onward text next ∧ state.position ≤ next.previousStop

/-- Behind constructs that stand from an anchor on, a reader completes a construct that has begun
at a position before, and of which what stands before the floor has been read. -/
def Completes (start floor anchor : Nat) (before : List Node) (reader : Reader Node) : Prop :=
  ∀ state node next ⦃text⦄, state.Sound text → start ≤ floor → floor ≤ anchor →
    anchor ≤ state.position → floor ≤ state.previousStop →
    Row text anchor state.previousStop before → reader state = .ok node next →
    state.Onward text next ∧ Row text start next.previousStop [node]

/-- Behind constructs that stand from an anchor on, a reader reads a construct that begins there or
behind the anchor, and that stands where it begins. -/
def Anchors (anchor : Nat) (before : List Node) (reader : Reader Node) : Prop :=
  ∀ state node next ⦃text⦄, state.Sound text → anchor ≤ state.position →
    Row text anchor state.previousStop before → reader state = .ok node next →
    state.Onward text next ∧ anchor ≤ node.span.start ∧ node.span.start ≤ next.previousStop ∧
      Row text node.span.start next.previousStop [node]

/-- A reader that extends a row and passes over a lexeme at least. -/
structure Takes (reader : Reader α) (before : List Node) (after : α → List Node) : Prop where
  rows : Extends reader before after
  consumes : Consumes reader

/-- A reader whose results satisfy a property wherever it stands. -/
def Makes (reader : Reader α) (holds : α → Prop) : Prop :=
  ∀ state result next, reader state = .ok result next → holds result

/-- A reader whose construct begins at a position if the reader stands there. -/
def Starts (start : Nat) (reader : Reader Node) : Prop :=
  ∀ state node next ⦃text⦄, state.Sound text → state.position = start →
    reader state = .ok node next → node.Begins start

/-- A reader whose construct began at a position. -/
abbrev Opens (start : Nat) (reader : Reader Node) : Prop :=
  Makes reader fun node => node.Begins start

/-- A reader whose construct began at a position and ends with the last lexeme read. -/
def Closes (start : Nat) (reader : Reader Node) : Prop :=
  ∀ state node next, reader state = .ok node next → node.span = ⟨start, next.previousStop⟩

/-- A reader whose construct takes the range from a position to the last lexeme read if the reader
stands there. -/
def Frames (start : Nat) (reader : Reader Node) : Prop :=
  ∀ state node next, state.position = start → reader state = .ok node next →
    node.span = ⟨start, next.previousStop⟩

/-- A reader that does not read on, and whose result is given. -/
structure Keeps (node : Node) (reader : Reader Node) : Prop where
  peeks : Peeks reader
  makes : Makes reader (· = node)

section

variable {start floor anchor : Nat} {before : List Node} {reader : Reader α} {rest : α → Reader Node}
  {holds : α → Prop} {between : α → List Node}

theorem Consumes.passes (h : Consumes reader) : Passes reader :=
  fun state result next _ sound run => ⟨(h state result next sound run).1, trivial⟩

theorem Consumes.bind {rest : α → Reader β} (h : Consumes reader) (h' : ∀ a, Passes (rest a)) :
    Consumes (reader >>= rest) := by
  intro state result next text sound run
  obtain ⟨a, middle, first, second⟩ := bind_ok run
  obtain ⟨onward, consumed⟩ := h _ _ _ sound first
  obtain ⟨onward', -⟩ := h' a _ _ _ onward.sound second
  exact ⟨onward.trans onward', Nat.le_trans consumed onward'.previousStop⟩

theorem Gives.consumes {rest : α → Reader β} (h : Gives reader holds)
    (h' : ∀ a, holds a → Consumes (rest a)) : Consumes (reader >>= rest) := by
  intro state result next text sound run
  obtain ⟨a, middle, first, second⟩ := bind_ok run
  obtain ⟨onward, held⟩ := h _ _ _ sound first
  obtain ⟨onward', consumed⟩ := h' a held _ _ _ onward.sound second
  exact ⟨onward.trans onward', Nat.le_trans onward.position consumed⟩

theorem Passes.consumes {rest : α → Reader β} (h : Passes reader) (h' : ∀ a, Consumes (rest a)) :
    Consumes (reader >>= rest) :=
  Gives.consumes h fun a _ => h' a

theorem Consumes.ite {condition : Prop} [Decidable condition] {reader' : Reader α}
    (h : Consumes reader) (h' : Consumes reader') :
    Consumes (if condition then reader else reader') :=
  iteInduction (motive := fun r => Consumes r) (fun _ => h) fun _ => h'

theorem Refuses.consumes (h : Refuses reader) : Consumes reader :=
  fun state result next _ _ run => absurd run (h state result next)

theorem consumes_advance : Consumes advance := by
  intro state result next text sound run
  obtain ⟨onward, stop⟩ := advance_ok sound run
  exact ⟨onward, stop ▸ sound.proper.ordered⟩

theorem consumes_advanceKeyword : Consumes advanceKeyword := by
  refine passes_token.consumes fun found => ?_
  split
  · exact (passes_complain _).consumes fun _ => consumes_advance
  · exact consumes_advance

/-- Behind a mark or a keyword that has been passed over, it lies before the state. -/
theorem advanceKeyword_ok {text : List Char} {state next : ReaderState} {result : Unit}
    (sound : state.Sound text) (run : advanceKeyword state = .ok result next) :
    state.Onward text next ∧ next.previousStop = state.lexeme.span.stop := by
  obtain ⟨token, _, first, second⟩ := bind_ok run
  cases first
  split at second
  · obtain ⟨_, middle, third, fourth⟩ := bind_ok second
    obtain ⟨onward, -⟩ := passes_complain _ _ _ _ sound third
    obtain ⟨onward', stop⟩ := advance_ok onward.sound fourth
    exact ⟨onward.trans onward', stop.trans (congrArg (·.span.stop) (peeks_complain _ _ _ _ third).1)⟩
  · exact advance_ok sound second

/-- Where a mark is eaten it stands at the front, and otherwise the reader stays where it stands. -/
theorem eatMark_ok {mark : Mark} {state next : ReaderState} {found : Bool}
    (run : eatMark mark state = .ok found next) :
    state.lexeme.token = .mark mark ∧ advance state = .ok () next ∨
      found = false ∧ next = state := by
  obtain ⟨isMark, _, first, second⟩ := bind_ok run
  cases first
  split at second
  · rename_i is
    obtain ⟨_, _, third, fourth⟩ := bind_ok second
    cases fourth
    exact .inl ⟨beq_iff_eq.mp is, third⟩
  · cases second
    exact .inr ⟨rfl, rfl⟩

theorem consumes_expectMark (mark : Mark) : Consumes (expectMark mark) := by
  intro state result next text sound run
  obtain ⟨found, middle, first, second⟩ := bind_ok run
  rcases eatMark_ok first with ⟨-, third⟩ | ⟨rfl, -⟩
  · cases found with
    | true =>
      cases second
      exact consumes_advance _ _ _ sound third
    | false => exact absurd second (refuses_fail _ _ _ _)
  · exact absurd second (refuses_fail _ _ _ _)

theorem lexeme_advance {state next : ReaderState} {result : Unit}
    (run : advance state = .ok result next) :
    next.lexeme = (Scan.lexeme state.rest state.lexeme.span.stop false).lexeme := by
  cases run
  rfl

theorem lexeme_advanceKeyword {state next : ReaderState} {result : Unit}
    (run : advanceKeyword state = .ok result next) :
    next.lexeme = (Scan.lexeme state.rest state.lexeme.span.stop false).lexeme := by
  obtain ⟨token, _, first, second⟩ := bind_ok run
  cases first
  split at second
  · obtain ⟨_, middle, third, fourth⟩ := bind_ok second
    obtain ⟨lexeme, -, -, rest⟩ := peeks_complain _ _ _ _ third
    rw [lexeme_advance fourth, lexeme, rest]
  · exact lexeme_advance second

theorem atWord_ok {word : String} {state next : ReaderState}
    (run : atWord word state = .ok true next) :
    next = state ∧ ∃ escaped, state.lexeme.token = .word word escaped := by
  obtain ⟨token, _, first, second⟩ := bind_ok run
  cases first
  cases is : state.lexeme.token with
  | word text escaped =>
    rw [is] at second
    obtain ⟨same, rfl⟩ := EStateM.Result.ok.inj second
    rw [beq_iff_eq.mp same]
    exact ⟨rfl, escaped, rfl⟩
  | _ =>
    rw [is] at second
    cases second

/-- A word that has to stand at the front does so, and is passed over like a keyword. -/
theorem expectWord_ok {word : String} {state next : ReaderState} {result : Unit}
    (run : expectWord word state = .ok result next) :
    (∃ escaped, state.lexeme.token = .word word escaped) ∧
      advanceKeyword state = .ok () next := by
  obtain ⟨found, middle, first, second⟩ := bind_ok run
  cases found with
  | false => exact absurd second (refuses_fail _ _ _ _)
  | true =>
    cases second
    obtain ⟨found, between, third, fourth⟩ := bind_ok first
    cases found with
    | false => cases fourth
    | true =>
      obtain ⟨rfl, escaped, is⟩ := atWord_ok third
      obtain ⟨_, last, fifth, sixth⟩ := bind_ok fourth
      cases sixth
      exact ⟨⟨escaped, is⟩, fifth⟩

/-- A word that has to stand at the front stands in the text, and the reader goes on to the lexeme
behind it. -/
theorem expectWord_words {word : String} {text : List Char} {state next : ReaderState}
    {result : Unit} (sound : state.Sound text) (run : expectWord word state = .ok result next) :
    WordAt text word state.position next.position := by
  obtain ⟨⟨escaped, is⟩, run⟩ := expectWord_ok run
  obtain ⟨rest, newline, same⟩ := sound.fits.plain (by rw [is]; rfl)
  refine ⟨newline, escaped, state.lexeme.span.stop, ?_, ?_, ?_⟩
  · rw [same, is]
  · rw [same]
  · rw [← rest, ← lexeme_advanceKeyword run]

/-- A mark at the front stands in the text. -/
theorem markAt_of_token {mark : Mark} {text : List Char} {state : ReaderState}
    (sound : state.Sound text) (is : state.lexeme.token = .mark mark) :
    MarkAt text mark state.position := by
  obtain ⟨-, newline, same⟩ := sound.fits.plain (by rw [is]; rfl)
  exact ⟨newline, by rw [same, is]⟩

/-- A word that has to stand at the front is passed over with all of its letters. -/
theorem expectWord_extent {word : String} {text : List Char} {state next : ReaderState}
    {result : Unit} (sound : state.Sound text) (run : expectWord word state = .ok result next) :
    state.Onward text next ∧ state.position + word.toList.length ≤ next.previousStop := by
  obtain ⟨⟨escaped, is⟩, run⟩ := expectWord_ok run
  obtain ⟨onward, stop⟩ := advanceKeyword_ok sound run
  exact ⟨onward, stop ▸ sound.proper.extent word escaped is⟩

theorem consumes_expectWord (word : String) : Consumes (expectWord word) :=
  fun _ _ _ _ sound run => (expectWord_extent sound run).imp_right Nat.le_of_add_right_le

theorem consumes_atom (leaf : String → Leaf) : Consumes (atom leaf) :=
  gives_get.passes.consumes fun _ => passes_written.consumes fun _ =>
    consumes_advance.bind fun _ => .pure trivial

theorem consumes_name (leaf : String → Leaf) : Consumes (name leaf) := by
  refine passes_token.consumes fun found => ?_
  split
  · dsimp only
    split
    · exact refuses_unexpected.bind.consumes
    · exact passes_position.consumes fun _ => (passes_checkName _ _).consumes fun _ =>
        consumes_atom _
  · exact refuses_unexpected.consumes

end

/-! ## Taking lexemes -/

section

variable {reader : Reader α} {rest : α → Reader β} {before : List Node} {between : α → List Node}
  {after : β → List Node}

theorem Refuses.takes (h : Refuses reader) : Takes reader before between :=
  ⟨h.extends, h.consumes⟩

theorem Consumes.takes (h : Consumes reader) (h' : ∀ a, Extends (rest a) before after) :
    Takes (reader >>= rest) before after :=
  ⟨h.passes.then h', h.bind fun a => (h' a).passes⟩

theorem Passes.takes (h : Passes reader) (h' : ∀ a, Takes (rest a) before after) :
    Takes (reader >>= rest) before after :=
  ⟨h.then fun a => (h' a).rows, h.consumes fun a => (h' a).consumes⟩

theorem Takes.bind (h : Takes reader before between)
    (h' : ∀ a, Extends (rest a) (between a) after) : Takes (reader >>= rest) before after :=
  ⟨h.rows.bind h', h.consumes.bind fun a => (h' a).passes⟩

theorem Takes.replacing {other : List Node} (h : Takes reader other between)
    (row : Replaces other before) : Takes reader before between :=
  ⟨h.rows.replacing row, h.consumes⟩

theorem Takes.within {change : Surroundings → Surroundings} (h : Takes reader before between) :
    Takes (within change reader) before between := by
  refine ⟨h.rows.within, gives_get.passes.consumes fun state => ?_⟩
  refine (passes_surroundings _).consumes fun _ => h.consumes.bind fun result => ?_
  exact (passes_surroundings _).bind fun _ => .pure trivial

theorem Takes.ite {condition : Prop} [Decidable condition] {reader' : Reader α}
    (h : Takes reader before between) (h' : Takes reader' before between) :
    Takes (if condition then reader else reader') before between :=
  iteInduction (motive := fun r => Takes r before between) (fun _ => h) fun _ => h'

end

section

variable {start floor anchor : Nat} {before : List Node} {reader : Reader α} {rest : α → Reader Node}
  {holds : α → Prop} {between : α → List Node}

/-! ## Constructs with ranges of their own -/

theorem Refuses.completes {reader : Reader Node} (h : Refuses reader) :
    Completes start floor anchor before reader :=
  fun state node next _ _ _ _ _ _ _ run => absurd run (h state node next)

/-- A construct without a range of its own is completed where it is read. -/
theorem Extends.completed {reader : Reader Node}
    (h : Extends reader before fun node => [node]) : Completes start floor anchor before reader := by
  intro state node next text sound low le le' _ row run
  obtain ⟨onward, rows⟩ := h _ _ _ _ sound le' run
  exact ⟨onward, (rows row).mono (Nat.le_trans low le) (Nat.le_refl _)⟩

theorem Gives.completes (h : Gives reader holds)
    (h' : ∀ a, holds a → Completes start floor anchor before (rest a)) :
    Completes start floor anchor before (reader >>= rest) := by
  intro state node next text sound low le le' begun row run
  obtain ⟨a, middle, first, second⟩ := bind_ok run
  obtain ⟨onward, held⟩ := h _ _ _ sound first
  obtain ⟨onward', row'⟩ := h' a held _ _ _ onward.sound low le (Nat.le_trans le' onward.position)
    (Nat.le_trans begun onward.previousStop) (row.mono (Nat.le_refl _) onward.previousStop) second
  exact ⟨onward.trans onward', row'⟩

theorem Passes.completes (h : Passes reader)
    (h' : ∀ a, Completes start floor anchor before (rest a)) :
    Completes start floor anchor before (reader >>= rest) :=
  Gives.completes h fun a _ => h' a

theorem Extends.completes (h : Extends reader before between)
    (h' : ∀ a, Completes start floor anchor (between a) (rest a)) :
    Completes start floor anchor before (reader >>= rest) := by
  intro state node next text sound low le le' begun row run
  obtain ⟨a, middle, first, second⟩ := bind_ok run
  obtain ⟨onward, rows⟩ := h _ _ _ _ sound le' first
  obtain ⟨onward', row'⟩ := h' a _ _ _ onward.sound low le (Nat.le_trans le' onward.position)
    (Nat.le_trans begun onward.previousStop) (rows row) second
  exact ⟨onward.trans onward', row'⟩

/-- What is read in a row and satisfies a property. -/
theorem Extends.completesBy (h : Extends reader before between) (h' : Gives reader holds)
    (h'' : ∀ a, holds a → Completes start floor anchor (between a) (rest a)) :
    Completes start floor anchor before (reader >>= rest) := by
  intro state node next text sound low le le' begun row run
  obtain ⟨a, middle, first, second⟩ := bind_ok run
  obtain ⟨onward, rows⟩ := h _ _ _ _ sound le' first
  obtain ⟨-, held⟩ := h' _ _ _ sound first
  obtain ⟨onward', row'⟩ := h'' a held _ _ _ onward.sound low le (Nat.le_trans le' onward.position)
    (Nat.le_trans begun onward.previousStop) (rows row) second
  exact ⟨onward.trans onward', row'⟩

theorem Completes.ite {condition : Prop} [Decidable condition] {reader reader' : Reader Node}
    (h : Completes start floor anchor before reader) (h' : Completes start floor anchor before reader') :
    Completes start floor anchor before (if condition then reader else reader') :=
  iteInduction (motive := fun r => Completes start floor anchor before r) (fun _ => h) fun _ => h'

/-- What a branch is completed to depends on where it ends. -/
theorem completes_branch {form : Form} {parts : List Node}
    (h : ∀ ⦃text⦄ stop, start ≤ anchor → floor ≤ stop → Row text anchor stop before →
      Row text start stop [.branch ⟨start, stop⟩ form parts]) :
    Completes start floor anchor before (branch start form parts) := by
  intro state node next text sound low le le' begun row run
  cases run
  exact ⟨sound.onward, h _ (Nat.le_trans low le) begun row⟩

/-- A construct that begins with a lexeme begins where the reader stands. -/
theorem Consumes.completed {rest : Nat → α → Reader Node} (h : Consumes reader)
    (h' : ∀ start a, Completes start start start [] (rest start a)) :
    Takes (position >>= fun start => reader >>= rest start) [] fun node => [node] := by
  have completed {state node next text} (sound : state.Sound text)
      (run : (position >>= fun start => reader >>= rest start) state = .ok node next) :
      state.Onward text next ∧ state.position ≤ next.previousStop ∧
        Row text state.position next.previousStop [node] := by
    obtain ⟨_, _, begun, read⟩ := bind_ok run
    cases begun
    obtain ⟨a, middle, first, second⟩ := bind_ok read
    obtain ⟨onward, consumed⟩ := h _ _ _ sound first
    obtain ⟨onward', row⟩ := h' _ _ _ _ _ onward.sound (Nat.le_refl _) (Nat.le_refl _)
      onward.position consumed .nil second
    exact ⟨onward.trans onward', Nat.le_trans consumed onward'.previousStop, row⟩
  constructor
  · intro low state node next text sound le run
    obtain ⟨onward, -, row⟩ := completed sound run
    exact ⟨onward, fun _ => row.mono le (Nat.le_refl _)⟩
  · intro state node next text sound run
    obtain ⟨onward, consumed, -⟩ := completed sound run
    exact ⟨onward, consumed⟩

theorem Makes.pure {result : α} (h : holds result) : Makes (Pure.pure result) holds := by
  intro state found next run
  cases run
  exact h

theorem Makes.bind {rest : α → Reader β} {holds' : β → Prop} (h : Makes reader holds)
    (h' : ∀ a, holds a → Makes (rest a) holds') : Makes (reader >>= rest) holds' := by
  intro state result next run
  obtain ⟨a, middle, first, second⟩ := bind_ok run
  exact h' a (h _ _ _ first) _ _ _ second

theorem Makes.of_bind {rest : α → Reader β} {holds : β → Prop} (h : ∀ a, Makes (rest a) holds) :
    Makes (reader >>= rest) holds := by
  intro state result next run
  obtain ⟨a, middle, -, second⟩ := bind_ok run
  exact h a _ _ _ second

theorem Makes.ite {condition : Prop} [Decidable condition] {reader reader' : Reader α}
    (h : Makes reader holds) (h' : Makes reader' holds) :
    Makes (if condition then reader else reader') holds :=
  iteInduction (motive := fun r => Makes r holds) (fun _ => h) fun _ => h'

theorem Refuses.makes (h : Refuses reader) : Makes reader holds :=
  fun state result next run => absurd run (h state result next)

theorem makes_branch {start : Nat} {form : Form} {parts : List Node} {holds : Node → Prop}
    (h : ∀ stop, holds (.branch ⟨start, stop⟩ form parts)) :
    Makes (branch start form parts) holds := by
  intro state node next run
  cases run
  exact h _

/-- What is read may be taken for something else because of what it is. -/
theorem Extends.remade {after : α → List Node} (h : Extends reader before between)
    (h' : Makes reader fun a => Replaces (after a) (between a)) : Extends reader before after := by
  intro low state result next text sound le run
  obtain ⟨onward, rows⟩ := h _ _ _ _ sound le run
  exact ⟨onward, fun row => h' _ _ _ run (rows row)⟩

theorem Takes.remade {after : α → List Node} (h : Takes reader before between)
    (h' : Makes reader fun a => Replaces (after a) (between a)) : Takes reader before after :=
  ⟨h.rows.remade h', h.consumes⟩

/-- What is read in a row is proper. -/
theorem Extends.proper {reader : Reader Node} (h : Extends reader [] fun node => [node]) :
    Gives reader fun node => ∃ text, node.Proper text := by
  intro state node next text sound run
  obtain ⟨onward, rows⟩ := h 0 _ _ _ sound (Nat.zero_le _) run
  exact ⟨onward, text, (rows .nil).proper _ List.mem_cons_self⟩

/-! ## Where constructs begin and end -/

theorem Starts.at_position {rest : Nat → Reader Node} (h : Starts start (rest start)) :
    Starts start (position >>= rest) := by
  intro state node next text sound is run
  cases is
  exact h _ _ _ sound rfl run

theorem Peeks.starts (h : Peeks reader) (h' : ∀ a, Starts start (rest a)) :
    Starts start (reader >>= rest) := by
  intro state node next text sound is run
  obtain ⟨a, middle, first, second⟩ := bind_ok run
  obtain ⟨onward, -⟩ := h.passes _ _ _ sound first
  obtain ⟨lexeme, -⟩ := h _ _ _ first
  exact h' a _ _ _ onward.sound ((congrArg (·.span.start) lexeme).trans is) second

theorem Starts.ite {condition : Prop} [Decidable condition] {reader reader' : Reader Node}
    (h : Starts start reader) (h' : Starts start reader') :
    Starts start (if condition then reader else reader') :=
  iteInduction (motive := fun r => Starts start r) (fun _ => h) fun _ => h'

theorem Refuses.starts {reader : Reader Node} (h : Refuses reader) : Starts start reader :=
  fun state node next _ _ _ run => absurd run (h state node next)

/-- What goes on behind a construct that begins at a position begins there too. -/
theorem Starts.bind {reader : Reader Node} {rest : Node → Reader Node} (h : Starts start reader)
    (h' : ∀ node : Node, node.Begins start → Opens start (rest node)) :
    Starts start (reader >>= rest) := by
  intro state node next text sound is run
  obtain ⟨found, middle, first, second⟩ := bind_ok run
  exact h' found (h _ _ _ sound is first) _ _ _ second

theorem Closes.of_bind (h : ∀ a, Closes start (rest a)) : Closes start (reader >>= rest) := by
  intro state node next run
  obtain ⟨a, middle, -, second⟩ := bind_ok run
  exact h a _ _ _ second

theorem Closes.ite {condition : Prop} [Decidable condition] {reader reader' : Reader Node}
    (h : Closes start reader) (h' : Closes start reader') :
    Closes start (if condition then reader else reader') :=
  iteInduction (motive := fun r => Closes start r) (fun _ => h) fun _ => h'

theorem Refuses.closes {reader : Reader Node} (h : Refuses reader) : Closes start reader :=
  fun state node next run => absurd run (h state node next)

theorem closes_branch {form : Form} {parts : List Node} :
    Closes start (branch start form parts) := by
  intro state node next run
  cases run
  rfl

theorem Closes.makes {reader : Reader Node} (h : Closes start reader) :
    Makes reader fun node => node.span.start = start := by
  intro state node next run
  rw [h _ _ _ run]

theorem opens_branch {form : Form} {parts : List Node}
    (plain : ∀ span, (Node.branch span form parts).declaresClass = false) :
    Opens start (branch start form parts) :=
  makes_branch fun _ => ⟨rfl, plain _⟩

theorem Opens.starts {reader : Reader Node} (h : Opens start reader) : Starts start reader :=
  fun _ _ _ _ _ _ run => h _ _ _ run

theorem Closes.frames {reader : Reader Node} (h : Closes start reader) : Frames start reader :=
  fun _ _ _ _ run => h _ _ _ run

theorem Frames.at_position {rest : Nat → Reader Node} (h : Frames start (rest start)) :
    Frames start (position >>= rest) := by
  intro state node next is run
  cases is
  exact h _ _ _ rfl run

theorem Peeks.frames (h : Peeks reader) (h' : ∀ a, Frames start (rest a)) :
    Frames start (reader >>= rest) := by
  intro state node next is run
  obtain ⟨a, middle, first, second⟩ := bind_ok run
  obtain ⟨lexeme, -⟩ := h _ _ _ first
  exact h' a _ _ _ ((congrArg (·.span.start) lexeme).trans is) second

theorem Frames.ite {condition : Prop} [Decidable condition] {reader reader' : Reader Node}
    (h : Frames start reader) (h' : Frames start reader') :
    Frames start (if condition then reader else reader') :=
  iteInduction (motive := fun r => Frames start r) (fun _ => h) fun _ => h'

theorem Frames.keep {reader : Reader Node} {rest : Node → Reader Node} (h : Frames start reader)
    (h' : ∀ node, Keeps node (rest node)) : Frames start (reader >>= rest) := by
  intro state node next is run
  obtain ⟨found, middle, first, second⟩ := bind_ok run
  obtain ⟨-, stop⟩ := (h' found).peeks _ _ _ second
  rw [(h' found).makes _ _ _ second, h _ _ _ is first, stop]

theorem Keeps.of_bind {node : Node} {rest : α → Reader Node} (h : Peeks reader)
    (h' : ∀ a, Keeps node (rest a)) : Keeps node (reader >>= rest) :=
  ⟨h.bind fun a => (h' a).peeks, .of_bind fun a => (h' a).makes⟩

theorem keeps_pure {node : Node} : Keeps node (Pure.pure node) :=
  ⟨.pure, .pure rfl⟩

/-- What is framed and read in a row stands inside of its range. -/
theorem Extends.contained {reader : Reader Node} (h : Extends reader [] fun node => [node])
    (frames : ∀ start, Frames start reader) {text : List Char} :
    GivesIn text reader (Node.Contained text) := by
  intro state node next sound run
  obtain ⟨onward, rows⟩ := h state.position _ _ _ sound (Nat.le_refl _) run
  refine ⟨onward, ?_⟩
  unfold Node.Contained
  rw [frames _ _ _ _ rfl run]
  exact rows .nil

theorem starts_atom {leaf : String → Leaf} : Starts start (atom leaf) := by
  intro state node next text sound is run
  cases run
  exact ⟨is, rfl⟩

theorem starts_name {leaf : String → Leaf} : Starts start (name leaf) := by
  refine peeks_token.starts fun found => ?_
  split
  · refine .ite refuses_unexpected.bind.starts ?_
    exact peeks_position.starts fun _ => (peeks_checkName _ _).starts fun _ => starts_atom
  · exact refuses_unexpected.starts

/-! ## Constructs around others -/

theorem Refuses.anchors {reader : Reader Node} (h : Refuses reader) :
    Anchors anchor before reader :=
  fun state node next _ _ _ _ run => absurd run (h state node next)

theorem Extends.anchors (h : Extends reader before between)
    (h' : ∀ a, Anchors anchor (between a) (rest a)) : Anchors anchor before (reader >>= rest) := by
  intro state node next text sound le row run
  obtain ⟨a, middle, first, second⟩ := bind_ok run
  obtain ⟨onward, rows⟩ := h _ _ _ _ sound le first
  obtain ⟨onward', found⟩ :=
    h' a _ _ _ onward.sound (Nat.le_trans le onward.position) (rows row) second
  exact ⟨onward.trans onward', found⟩

theorem Passes.anchors (h : Passes reader) (h' : ∀ a, Anchors anchor before (rest a)) :
    Anchors anchor before (reader >>= rest) := by
  intro state node next text sound le row run
  obtain ⟨a, middle, first, second⟩ := bind_ok run
  obtain ⟨onward, -⟩ := h _ _ _ sound first
  obtain ⟨onward', found⟩ := h' a _ _ _ onward.sound (Nat.le_trans le onward.position)
    (row.mono (Nat.le_refl _) onward.previousStop) second
  exact ⟨onward.trans onward', found⟩

theorem Anchors.ite {condition : Prop} [Decidable condition] {reader reader' : Reader Node}
    (h : Anchors anchor before reader) (h' : Anchors anchor before reader') :
    Anchors anchor before (if condition then reader else reader') :=
  iteInduction (motive := fun r => Anchors anchor before r) (fun _ => h) fun _ => h'

/-- A construct that begins at the anchor. -/
theorem Takes.anchored {reader : Reader Node} (h : Takes reader before fun node => [node])
    (starts : Makes reader fun node => node.span.start = anchor) :
    Anchors anchor before reader := by
  intro state node next text sound le row run
  obtain ⟨onward, rows⟩ := h.rows _ _ _ _ sound le run
  obtain ⟨-, consumed⟩ := h.consumes _ _ _ sound run
  rw [starts _ _ _ run]
  exact ⟨onward, Nat.le_refl _, Nat.le_trans le consumed, rows row⟩

/-- A construct may be anchored where the reader stands. -/
theorem Anchors.at_position {rest : Nat → Reader Node}
    (h : ∀ start, Anchors start [] (rest start)) : Anchors anchor before (position >>= rest) := by
  intro state node next text sound le row run
  obtain ⟨onward, le', found⟩ := h state.position _ _ _ sound (Nat.le_refl _) .nil run
  exact ⟨onward, Nat.le_trans le le', found⟩

/-- A construct that begins behind the anchor. -/
theorem Takes.anchors {reader : Reader Node} (h : Takes reader [] fun node => [node])
    (starts : ∀ start, Starts start reader) : Anchors anchor before reader := by
  intro state node next text sound le row run
  obtain ⟨onward, rows⟩ := h.rows state.position _ _ _ sound (Nat.le_refl _) run
  obtain ⟨-, consumed⟩ := h.consumes _ _ _ sound run
  rw [(starts _ _ _ _ sound rfl run).start]
  exact ⟨onward, le, consumed, rows .nil⟩

end

end Reader

/-- A grammar that reads all constructs in order, and operands that may assign from where they
begin. -/
structure Grammar.Orderly (g : Grammar) : Prop where
  rows : ∀ goal, (g.read goal).Extends [] fun node => [node]
  takes : (g.read .assignment).Takes [] fun node => [node]
  starts : ∀ start, Reader.Starts start (g.read .assignment)

theorem Grammar.Orderly.reads {g : Grammar} (orderly : g.Orderly) (goal : Goal)
    (before : List Node) : (g.read goal).Extends before fun node => before ++ [node] :=
  (orderly.rows goal).behind before

end ModuleBundler.Script

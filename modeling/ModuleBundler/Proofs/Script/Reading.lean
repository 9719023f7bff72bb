/-
# ModuleBundler.Proofs.Script.Reading — what readers do to a row.

A reader never goes back behind where it stood and stays in its text (`Onward`), and what it reads
stands between where it began and where it ends.  Three judgements say this of readers: a reader
`Passes` over a part of the text, it `Gives` a result that satisfies a property, or it `Extends` a
row of constructs to another one.  Each has a rule for every way to combine readers, so that a
production of the grammar is judged by the judgements about the readers that it is made of, in their
order.
-/
import ModuleBundler.Proofs.Script.Extents
import ModuleBundler.Script.Reader

namespace ModuleBundler.Script

namespace ReaderState

/-- Where the lexeme at the front begins. -/
abbrev position (state : ReaderState) : Nat :=
  state.lexeme.span.start

/-- A state in a text whose lexeme is proper and begins behind the one before. -/
structure Sound (text : List Char) (state : ReaderState) : Prop where
  behind : state.previousStop ≤ state.position
  proper : state.lexeme.Proper
  fits : Scan.Fits text state.lexeme state.here state.rest

/-- A sound state that lies behind another one in the same text. -/
structure Onward (text : List Char) (state next : ReaderState) : Prop where
  sound : next.Sound text
  position : state.position ≤ next.position
  previousStop : state.previousStop ≤ next.previousStop

variable {text : List Char}

theorem Sound.onward {state : ReaderState} (h : state.Sound text) : state.Onward text state :=
  ⟨h, Nat.le_refl _, Nat.le_refl _⟩

theorem Onward.trans {state between next : ReaderState} (h : state.Onward text between)
    (behind : between.Onward text next) : state.Onward text next :=
  ⟨behind.sound, Nat.le_trans h.position behind.position,
    Nat.le_trans h.previousStop behind.previousStop⟩

/-- What has been read ends where the text does at the latest. -/
theorem Sound.previousStop_le {state : ReaderState} (h : state.Sound text) :
    state.previousStop ≤ text.length :=
  Nat.le_trans h.behind (Nat.le_of_add_right_le h.fits.front.le)

/-- A state that stands in the same place of the same text. -/
structure Alike (state next : ReaderState) : Prop where
  lexeme : next.lexeme = state.lexeme
  previousStop : next.previousStop = state.previousStop
  here : next.here = state.here
  rest : next.rest = state.rest

theorem Alike.trans {state between next : ReaderState} (h : state.Alike between)
    (h' : between.Alike next) : state.Alike next :=
  ⟨h'.lexeme.trans h.lexeme, h'.previousStop.trans h.previousStop, h'.here.trans h.here,
    h'.rest.trans h.rest⟩

theorem Alike.onward {state next : ReaderState} (h : state.Alike next) (sound : state.Sound text) :
    state.Onward text next := by
  have place : next.position = state.position := congrArg (·.span.start) h.lexeme
  refine ⟨⟨?_, ?_, ?_⟩, Nat.le_of_eq place.symm, Nat.le_of_eq h.previousStop.symm⟩
  · rw [h.previousStop, place]
    exact sound.behind
  · rw [h.lexeme]
    exact sound.proper
  · rw [h.lexeme, h.here, h.rest]
    exact sound.fits

end ReaderState

namespace Reader

variable {α β : Type}

/-- What is read in two steps is read in one step and then in another. -/
theorem bind_ok {reader : Reader α} {rest : α → Reader β} {state next : ReaderState} {result : β}
    (h : (reader >>= rest) state = .ok result next) :
    ∃ first between, reader state = .ok first between ∧
      rest first between = .ok result next := by
  change EStateM.bind reader rest state = _ at h
  unfold EStateM.bind at h
  split at h
  · rename_i first between run
    exact ⟨first, between, run, h⟩
  · cases h

/-! ## Judgements -/

/-- A reader that goes on and whose results satisfy a property. -/
def Gives (reader : Reader α) (holds : α → Prop) : Prop :=
  ∀ state result next ⦃text⦄, state.Sound text → reader state = .ok result next →
    state.Onward text next ∧ holds result

/-- A reader that goes on and whose results satisfy a property in one text. -/
def GivesIn (text : List Char) (reader : Reader α) (holds : α → Prop) : Prop :=
  ∀ state result next, state.Sound text → reader state = .ok result next →
    state.Onward text next ∧ holds result

/-- A reader that goes on. -/
abbrev Passes (reader : Reader α) : Prop :=
  Gives reader fun _ => True

/-- A reader that goes on and, behind a row of constructs, makes another row of it. -/
def Extends (reader : Reader α) (before : List Node) (after : α → List Node) : Prop :=
  ∀ low state result next ⦃text⦄, state.Sound text → low ≤ state.position →
    reader state = .ok result next → state.Onward text next ∧
      (Row text low state.previousStop before → Row text low next.previousStop (after result))

/-- A reader that stays where it stands. -/
def Peeks (reader : Reader α) : Prop :=
  ∀ state result next, reader state = .ok result next → state.Alike next

/-- A reader that refuses whatever stands at the front. -/
def Refuses (reader : Reader α) : Prop :=
  ∀ state result next, reader state ≠ .ok result next

section Rules

variable {reader : Reader α} {rest : α → Reader β} {holds : α → Prop} {holds' : β → Prop}
  {before : List Node} {between : α → List Node} {after : β → List Node}

theorem Peeks.passes (h : Peeks reader) : Passes reader :=
  fun _ _ _ _ sound run => ⟨(h _ _ _ run).onward sound, trivial⟩

theorem Peeks.pure {result : α} : Peeks (Pure.pure result : Reader α) := by
  intro state found next run
  cases run
  exact ⟨rfl, rfl, rfl, rfl⟩

theorem Peeks.bind (h : Peeks reader) (h' : ∀ a, Peeks (rest a)) : Peeks (reader >>= rest) := by
  intro state result next run
  obtain ⟨a, middle, first, second⟩ := bind_ok run
  exact (h _ _ _ first).trans (h' a _ _ _ second)

theorem Peeks.ite {condition : Prop} [Decidable condition] {reader' : Reader α}
    (h : Peeks reader) (h' : Peeks reader') : Peeks (if condition then reader else reader') :=
  iteInduction (motive := fun r => Peeks r) (fun _ => h) fun _ => h'

theorem Refuses.gives (h : Refuses reader) : Gives reader holds :=
  fun state result next _ _ run => absurd run (h state result next)

theorem Refuses.extends (h : Refuses reader) : Extends reader before between :=
  fun _ state result next _ _ _ run => absurd run (h state result next)

theorem Refuses.bind (h : Refuses reader) : Refuses (reader >>= rest) := by
  intro state result next run
  obtain ⟨a, middle, first, -⟩ := bind_ok run
  exact h _ _ _ first

theorem Refuses.of_bind (h : ∀ a, Refuses (rest a)) : Refuses (reader >>= rest) := by
  intro state result next run
  obtain ⟨a, middle, -, second⟩ := bind_ok run
  exact h a _ _ _ second

theorem Gives.pure {result : α} (h : holds result) : Gives (pure result) holds := by
  intro state found next text sound run
  cases run
  exact ⟨sound.onward, h⟩

theorem Gives.bind (h : Gives reader holds) (h' : ∀ a, holds a → Gives (rest a) holds') :
    Gives (reader >>= rest) holds' := by
  intro state result next text sound run
  obtain ⟨a, middle, first, second⟩ := bind_ok run
  obtain ⟨onward, held⟩ := h _ _ _ sound first
  obtain ⟨onward', held'⟩ := h' a held _ _ _ onward.sound second
  exact ⟨onward.trans onward', held'⟩

theorem Passes.bind (h : Passes reader) (h' : ∀ a, Gives (rest a) holds') :
    Gives (reader >>= rest) holds' :=
  Gives.bind h fun a _ => h' a

theorem Gives.imp {weaker : α → Prop} (h : Gives reader holds) (h' : ∀ a, holds a → weaker a) :
    Gives reader weaker :=
  fun state result next _ sound run => (h state result next sound run).imp_right (h' result)

theorem Gives.passes (h : Gives reader holds) : Passes reader :=
  fun state result next _ sound run => ⟨(h state result next sound run).1, trivial⟩

theorem Gives.inText {text : List Char} (h : Gives reader holds) : GivesIn text reader holds :=
  fun state result next sound run => h state result next sound run

theorem GivesIn.bind {text : List Char} (h : GivesIn text reader holds)
    (h' : ∀ a, holds a → GivesIn text (rest a) holds') : GivesIn text (reader >>= rest) holds' := by
  intro state result next sound run
  obtain ⟨a, middle, first, second⟩ := bind_ok run
  obtain ⟨onward, held⟩ := h _ _ _ sound first
  obtain ⟨onward', held'⟩ := h' a held _ _ _ onward.sound second
  exact ⟨onward.trans onward', held'⟩

theorem GivesIn.ite {text : List Char} {condition : Prop} [Decidable condition]
    {reader' : Reader α} (h : GivesIn text reader holds) (h' : GivesIn text reader' holds) :
    GivesIn text (if condition then reader else reader') holds :=
  iteInduction (motive := fun r => GivesIn text r holds) (fun _ => h) fun _ => h'

theorem Extends.pure {result : α} (h : before = between result) :
    Extends (pure result) before between := by
  intro low state found next text sound le run
  cases run
  exact ⟨sound.onward, fun row => h ▸ row⟩

theorem Extends.bind (h : Extends reader before between)
    (h' : ∀ a, Extends (rest a) (between a) after) : Extends (reader >>= rest) before after := by
  intro low state result next text sound le run
  obtain ⟨a, middle, first, second⟩ := bind_ok run
  obtain ⟨onward, rows⟩ := h _ _ _ _ sound le first
  obtain ⟨onward', rows'⟩ := h' a _ _ _ _ onward.sound (Nat.le_trans le onward.position) second
  exact ⟨onward.trans onward', fun row => rows' (rows row)⟩

theorem Gives.ite {condition : Prop} [Decidable condition] {reader' : Reader α}
    (h : Gives reader holds) (h' : Gives reader' holds) :
    Gives (if condition then reader else reader') holds :=
  iteInduction (motive := fun r => Gives r holds) (fun _ => h) fun _ => h'

theorem Extends.ite {condition : Prop} [Decidable condition] {reader' : Reader α}
    (h : Extends reader before between) (h' : Extends reader' before between) :
    Extends (if condition then reader else reader') before between :=
  iteInduction (motive := fun r => Extends r before between) (fun _ => h) fun _ => h'

/-- A reader that makes no constructs leaves every row as it is. -/
theorem Gives.then (h : Gives reader holds) (h' : ∀ a, holds a → Extends (rest a) before after) :
    Extends (reader >>= rest) before after := by
  intro low state result next text sound le run
  obtain ⟨a, middle, first, second⟩ := bind_ok run
  obtain ⟨onward, held⟩ := h _ _ _ sound first
  obtain ⟨onward', rows⟩ :=
    h' a held _ _ _ _ onward.sound (Nat.le_trans le onward.position) second
  exact ⟨onward.trans onward', fun row => rows (row.mono (Nat.le_refl _) onward.previousStop)⟩

theorem Passes.then (h : Passes reader) (h' : ∀ a, Extends (rest a) before after) :
    Extends (reader >>= rest) before after :=
  Gives.then h fun a _ => h' a

/-- A reader that extends a row goes on. -/
theorem Extends.passes (h : Extends reader before between) : Passes reader := by
  intro state result next text sound run
  exact ⟨(h 0 _ _ _ sound (Nat.zero_le _) run).1, trivial⟩

/-- Constructs that stand before a row are not touched. -/
theorem Extends.framed {nodes : List Node} (h : Extends reader nodes between)
    (before : List Node) : Extends reader (before ++ nodes) fun a => before ++ between a := by
  intro low state result next text sound le run
  obtain ⟨onward, rows⟩ := h _ _ _ _ sound le run
  refine ⟨onward, fun row => ?_⟩
  obtain ⟨middle, upper, first, second⟩ := row.part
  obtain ⟨-, behind⟩ := h _ _ _ _ sound (Nat.le_trans upper sound.behind) run
  exact first.append (Nat.le_trans upper onward.previousStop)
    (rows (row.sublist (List.sublist_append_right _ _))) (behind second)

theorem Extends.behind (h : Extends reader [] between) (before : List Node) :
    Extends reader before fun a => before ++ between a := by
  have framed := h.framed before
  rwa [List.append_nil] at framed

/-- A row may be taken for another one. -/
theorem Extends.replacing {other : List Node} (h : Extends reader other between)
    (row : Replaces other before) : Extends reader before between :=
  fun _ _ _ _ _ sound le run =>
    ⟨(h _ _ _ _ sound le run).1, fun before' => (h _ _ _ _ sound le run).2 (row before')⟩

/-! A reader that branches and goes on in the same way calls the same rest from each branch. -/

section Joined

variable {condition : Prop} [Decidable condition]

theorem Gives.when {rest : Unit → Reader β} {reader : Reader Unit} (h : Passes reader)
    (h' : ∀ a, Gives (rest a) holds') :
    Gives (if condition then reader >>= rest else rest ()) holds' :=
  .ite (h.bind h') (h' ())

theorem Extends.when {rest : Unit → Reader β} {reader : Reader Unit} (h : Passes reader)
    (h' : ∀ a, Extends (rest a) before after) :
    Extends (if condition then reader >>= rest else rest ()) before after :=
  .ite (h.then h') (h' ())

theorem Extends.unless {rest : Unit → Reader β} {reader : Reader Unit} (h : Refuses reader)
    (h' : Extends (rest ()) before after) :
    Extends (if condition then rest () else reader >>= rest) before after :=
  .ite h' h.bind.extends

theorem Extends.decided {reader' : Reader α} (h : Passes reader) (h' : Passes reader')
    (h'' : ∀ a, Extends (rest a) before after) :
    Extends (if condition then reader >>= rest else reader' >>= rest) before after :=
  .ite (h.then h'') (h'.then h'')

theorem Extends.either {reader' : Reader α} (h : Extends reader before between)
    (h' : Extends reader' before between) (h'' : ∀ a, Extends (rest a) (between a) after) :
    Extends (if condition then reader >>= rest else reader' >>= rest) before after :=
  .ite (h.bind h'') (h'.bind h'')

variable {part : Reader Node} {rest : List Node → Reader β}

/-- A part that may be there. -/
theorem Extends.optional (h : Extends part [] fun node => [node])
    (h' : ∀ nodes, Extends (rest nodes) (before ++ nodes) after) :
    Extends (if condition then (do let node ← part; (do let nodes ← Pure.pure [node]; rest nodes))
      else (do let nodes ← Pure.pure []; rest nodes)) before after := by
  refine .ite ((h.behind _).bind fun node => h' [node]) ?_
  have absent := h' []
  rwa [List.append_nil] at absent

/-- A part that may be missing. -/
theorem Extends.missing (h : Extends part [] fun node => [node])
    (h' : ∀ nodes, Extends (rest nodes) (before ++ nodes) after) :
    Extends (if condition then (do let nodes ← Pure.pure []; rest nodes)
      else (do let node ← part; (do let nodes ← Pure.pure [node]; rest nodes))) before after := by
  refine .ite ?_ ((h.behind _).bind fun node => h' [node])
  have absent := h' []
  rwa [List.append_nil] at absent

end Joined

end Rules

/-! ## Refusing and complaining -/

theorem refuses_throw {α : Type} (error : SyntaxError) : Refuses (throw error : Reader α) := by
  intro state result next run
  cases run

theorem refuses_failAt {α : Type} (position : Nat) (fault : SyntaxFault) :
    Refuses (failAt position fault : Reader α) :=
  refuses_throw _

theorem refuses_fail {α : Type} (fault : SyntaxFault) : Refuses (fail fault : Reader α) :=
  .of_bind fun _ => refuses_failAt _ _

theorem refuses_unexpected {α : Type} : Refuses (unexpected : Reader α) := by
  refine .of_bind fun state => ?_
  split
  · exact .of_bind fun _ => refuses_throw _
  · exact .of_bind fun _ => refuses_throw _
  · exact refuses_fail _

/-- The state is sound wherever a reader looks at it. -/
theorem gives_get : Gives (get : Reader ReaderState) fun state => ∃ text, state.Sound text := by
  intro state result next text sound run
  cases run
  exact ⟨sound.onward, text, sound⟩

theorem peeks_get : Peeks (get : Reader ReaderState) := by
  intro state result next run
  cases run
  exact ⟨rfl, rfl, rfl, rfl⟩

/-- A change of the state that leaves its place alone. -/
theorem peeks_modify {change : ReaderState → ReaderState}
    (h : ∀ state : ReaderState, state.Alike (change state)) :
    Peeks (modify change : Reader Unit) := by
  intro state result next run
  cases run
  exact h state

theorem peeks_complainAt (position : Nat) (fault : SyntaxFault) :
    Peeks (complainAt position fault) :=
  peeks_modify fun _ => ⟨rfl, rfl, rfl, rfl⟩

theorem passes_complainAt (position : Nat) (fault : SyntaxFault) :
    Passes (complainAt position fault) :=
  (peeks_complainAt position fault).passes

theorem peeks_complain (fault : SyntaxFault) : Peeks (complain fault) :=
  peeks_get.bind fun _ => peeks_complainAt _ _

theorem passes_complain (fault : SyntaxFault) : Passes (complain fault) :=
  (peeks_complain fault).passes

theorem passes_surroundings (change : ReaderState → Surroundings) :
    Passes (modify fun state => { state with surroundings := change state } : Reader Unit) := by
  refine Peeks.passes ?_
  exact peeks_modify fun _ => ⟨rfl, rfl, rfl, rfl⟩

theorem peeks_note (change : Notes → Notes) : Peeks (note change) :=
  peeks_modify fun _ => ⟨rfl, rfl, rfl, rfl⟩

theorem passes_note (change : Notes → Notes) : Passes (note change) :=
  (peeks_note change).passes

/-! ## Lexemes -/

/-- A word at the front consists of the letters of names. -/
theorem gives_token :
    Gives token fun token => ∀ text escaped, token = .word text escaped → IsWord text :=
  gives_get.bind fun _ ⟨_, sound⟩ => .pure sound.proper.word

theorem peeks_token : Peeks token :=
  peeks_get.bind fun _ => .pure

theorem passes_token : Passes token :=
  peeks_token.passes

theorem peeks_position : Peeks position :=
  peeks_get.bind fun _ => .pure

theorem passes_position : Passes position :=
  peeks_position.passes

theorem peeks_afterNewline : Peeks afterNewline :=
  peeks_get.bind fun _ => .pure

theorem passes_afterNewline : Passes afterNewline :=
  peeks_afterNewline.passes

theorem peeks_written : Peeks written :=
  peeks_get.bind fun _ => .pure

theorem passes_written : Passes written :=
  peeks_written.passes

/-- Behind a lexeme that has been passed over, the state is sound, and the lexeme lies before it. -/
theorem advance_ok {text : List Char} {state next : ReaderState} {result : Unit}
    (sound : state.Sound text) (run : advance state = .ok result next) :
    state.Onward text next ∧ next.previousStop = state.lexeme.span.stop := by
  cases run
  have le := Scan.le_lexeme_start state.rest state.lexeme.span.stop false
  have proper := Scan.lexeme_proper state.rest state.lexeme.span.stop false
  exact ⟨⟨⟨le, proper, Scan.lexeme_fits sound.fits.back false⟩,
    Nat.le_trans sound.proper.ordered le, Nat.le_trans sound.behind sound.proper.ordered⟩, rfl⟩

theorem passes_advance : Passes advance :=
  fun _ _ _ _ sound run => ⟨(advance_ok sound run).1, trivial⟩

/-- The lexeme at the front may be read anew from where it begins. -/
theorem passes_place {scan : ReaderState → Scan.Scanned}
    (proper : ∀ state, (scan state).lexeme.Proper)
    (begins : ∀ state, Scan.Begins state.here state.position (scan state))
    (special : ∀ state, (scan state).lexeme.token.isPlain = false) :
    Passes (modify fun state => state.place (scan state) : Reader Unit) := by
  intro state result next text sound run
  cases run
  have le : state.position ≤ (scan state).lexeme.span.start := Nat.le_of_eq (begins state).start.symm
  exact ⟨⟨⟨Nat.le_trans sound.behind le, proper state,
    (begins state).fits sound.fits.front (special state)⟩, le, Nat.le_refl _⟩, trivial⟩

theorem passes_rescanRegex : Passes rescanRegex :=
  passes_place (fun _ => Scan.regex_proper _ _ _) (fun _ => Scan.regex_begins _ _ _)
    fun _ => Scan.regex_special _ _ _

theorem passes_rescanChunk : Passes rescanChunk :=
  passes_place (fun _ => Scan.chunk_proper _ _ _) (fun _ => Scan.chunk_begins _ _ _)
    fun _ => Scan.chunk_special _ _ _

/-! ## Going back -/

/-- Whatever is looked at, the reader stays where it is. -/
theorem peeks_look (reader : Reader α) : Peeks (look reader) := by
  intro state result next run
  unfold look at run
  split at run
  · cases run
    exact ⟨rfl, rfl, rfl, rfl⟩
  · cases run

theorem extends_attempt {reader : Reader α} {before : List Node} {after : α → List Node}
    (h : Extends reader before after) :
    Extends (attempt reader) before fun found => found.elim before after := by
  intro low state result next text sound le run
  unfold attempt at run
  split at run
  · rename_i found middle reads
    cases run
    exact h _ _ _ _ sound le reads
  · cases run
    exact ⟨ReaderState.Alike.onward ⟨rfl, rfl, rfl, rfl⟩ sound, fun row => row⟩

theorem peeks_next : Peeks next :=
  peeks_look _

theorem passes_next : Passes next :=
  peeks_next.passes

theorem peeks_ahead : Peeks ahead :=
  peeks_look _

theorem passes_atEnd : Passes atEnd := by
  refine passes_token.bind fun found => ?_
  split <;> exact .pure trivial

/-! ## Marks and words -/

theorem peeks_atMark (mark : Mark) : Peeks (atMark mark) :=
  peeks_token.bind fun _ => .pure

theorem passes_atMark (mark : Mark) : Passes (atMark mark) :=
  (peeks_atMark mark).passes

theorem passes_eatMark (mark : Mark) : Passes (eatMark mark) := by
  refine (passes_atMark mark).bind fun found => ?_
  split
  · exact passes_advance.bind fun _ => .pure trivial
  · exact .pure trivial

theorem passes_expectMark (mark : Mark) : Passes (expectMark mark) := by
  refine (passes_eatMark mark).bind fun found => ?_
  split
  · exact .pure trivial
  · exact (refuses_fail _).gives

theorem peeks_atWord (word : String) : Peeks (atWord word) := by
  refine peeks_token.bind fun found => ?_
  split <;> exact .pure

theorem passes_atWord (word : String) : Passes (atWord word) :=
  (peeks_atWord word).passes

theorem passes_advanceKeyword : Passes advanceKeyword := by
  refine passes_token.bind fun found => ?_
  split
  · exact (passes_complain _).bind fun _ => passes_advance
  · exact passes_advance

theorem passes_eatWord (word : String) : Passes (eatWord word) := by
  refine (passes_atWord word).bind fun found => ?_
  split
  · exact passes_advanceKeyword.bind fun _ => .pure trivial
  · exact .pure trivial

theorem passes_expectWord (word : String) : Passes (expectWord word) := by
  refine (passes_eatWord word).bind fun found => ?_
  split
  · exact .pure trivial
  · exact (refuses_fail _).gives

theorem passes_atName : Passes atName :=
  gives_get.passes.bind fun _ => .pure trivial

theorem peeks_checkName (position : Nat) (word : String) : Peeks (checkName position word) := by
  refine peeks_get.bind fun state => .ite (.ite ?_ (.ite ?_ .pure)) (.ite ?_ .pure)
  · exact peeks_complainAt _ _
  · exact peeks_note _
  · exact peeks_complainAt _ _

theorem passes_checkName (position : Nat) (word : String) : Passes (checkName position word) :=
  (peeks_checkName position word).passes

/-- A leaf whose range does not matter stands anywhere. -/
theorem extends_leaf {span : Span} {leaf : Leaf} (proper : leaf.Proper span)
    (unlisted : leaf.isListed = false) : Extends (pure (.leaf span leaf)) [] fun node => [node] := by
  intro low state result next text sound le run
  cases run
  exact ⟨sound.onward, fun _ => .unlistedLeaf proper unlisted⟩

/-- The lexeme at the front makes a leaf that stands where it does. -/
theorem atom_ok {leaf : String → Leaf} {text : List Char} {low : Nat} {state next : ReaderState}
    {node : Node} (sound : state.Sound text) (le : low ≤ state.position)
    (run : atom leaf state = .ok node next)
    (proper : ∀ written, (leaf written).Proper state.lexeme.span) :
    state.Onward text next ∧
      (Row text low state.previousStop [] → Row text low next.previousStop [node]) := by
  cases run
  exact ⟨(advance_ok sound rfl).1,
    fun _ => .leaf (proper _) le sound.proper.ordered (Nat.le_refl _)⟩

theorem extends_atom {leaf : String → Leaf} (proper : ∀ text span, (leaf text).Proper span) :
    Extends (atom leaf) [] fun node => [node] :=
  fun _ _ _ _ _ sound le run => atom_ok sound le run fun _ => proper _ _

theorem extends_name {leaf : String → Leaf}
    (proper : ∀ text span, IsWord text → (leaf text).Proper span) :
    Extends (name leaf) [] fun node => [node] := by
  refine gives_token.then fun found isWord => ?_
  split
  · rename_i text escaped
    dsimp only
    split
    · exact refuses_unexpected.bind.extends
    · refine passes_position.then fun start => ?_
      refine (passes_checkName _ _).then fun _ => ?_
      exact extends_atom fun _ _ => proper _ _ (isWord text escaped rfl)
  · exact refuses_unexpected.extends

theorem passes_semicolon : Passes semicolon := by
  refine (passes_eatMark _).bind fun found => ?_
  split
  · exact .pure trivial
  refine passes_afterNewline.bind fun found => ?_
  split
  · exact .pure trivial
  refine passes_token.bind fun found => ?_
  split
  · exact .pure trivial
  · exact .pure trivial
  · exact gives_get.passes.bind fun _ => (refuses_failAt _ _).gives

theorem passes_mayEnd : Passes mayEnd := by
  refine passes_afterNewline.bind fun found => ?_
  split
  · exact .pure trivial
  refine passes_token.bind fun found => ?_
  split <;> exact .pure trivial

/-! ## Branches, lists and surroundings -/

/-- A plain branch takes the place of its parts. -/
theorem extends_branch {parts : List Node} {start : Nat} {form : Form}
    (plain : form.isPlain = true) :
    Extends (branch start form parts) parts fun node => [node] := by
  intro low state result next text sound le run
  cases run
  exact ⟨sound.onward, (Row.branch plain).mpr⟩

variable {before : List Node} {after : α → List Node} {reader : Reader α} {holds : α → Prop}

theorem Extends.within {change : Surroundings → Surroundings} (h : Extends reader before after) :
    Extends (within change reader) before after := by
  refine gives_get.passes.then fun state => ?_
  refine (passes_surroundings _).then fun _ => ?_
  refine h.bind fun result => ?_
  exact (passes_surroundings _).then fun _ => .pure rfl

theorem Extends.withIn (h : Extends reader before after) : Extends (withIn reader) before after :=
  h.within

theorem Extends.bracketed (h : Extends reader before after) :
    Extends (bracketed reader) before after :=
  h.within

/-- Items that are read one after another stand in a row. -/
theorem Extends.gather {item : Reader (Option Node)} (h : Extends item [] Option.toList)
    {steps : Nat} {found : List Node} :
    Extends (gather item steps found) found.reverse fun items => items := by
  induction steps generalizing found with
  | zero => exact (refuses_fail _).extends
  | succ steps ih =>
    refine (h.behind _).bind fun next => ?_
    cases next with
    | none => exact .pure (List.append_nil _)
    | some node =>
      rw [Option.toList_some, ← List.reverse_cons]
      exact ih

theorem Extends.many {item : Reader (Option Node)} (h : Extends item [] Option.toList)
    {steps : Nat} : Extends (many steps item) [] fun items => items :=
  Extends.gather h

/-- Items between commas that make a construct each stand in a row. -/
theorem Extends.separatedOf {item : Reader α} {make : α → Node}
    (h : Extends item [] fun a => [make a]) {close : Mark} {steps : Nat} {found : List α} :
    Extends (separated close item steps found) (found.reverse.map make) fun items =>
      items.1.map make := by
  induction steps generalizing found with
  | zero => exact (refuses_fail _).extends
  | succ steps ih =>
    refine (h.behind _).bind fun a => ?_
    have grown : found.reverse.map make ++ [make a] = (a :: found).reverse.map make := by simp
    rw [grown]
    refine (passes_atMark _).then fun closes => ?_
    split
    · exact .pure rfl
    refine passes_position.then fun comma => ?_
    refine (passes_expectMark _).then fun _ => ?_
    refine (passes_atMark _).then fun closes => ?_
    split
    · exact .pure rfl
    · exact ih

theorem Extends.listOf {item : Reader α} {make : α → Node} (h : Extends item [] fun a => [make a])
    {steps : Nat} {close : Mark} :
    Extends (list steps close item) [] fun items => items.1.map make := by
  refine (passes_eatMark _).then fun closes => ?_
  split
  · exact .pure rfl
  refine passes_atEnd.then fun ends => ?_
  split
  · exact (refuses_fail _).bind.extends
  refine h.separatedOf.bind fun items => ?_
  exact (passes_expectMark _).then fun _ => .pure rfl

theorem Extends.separated {item : Reader Node} (h : Extends item [] fun node => [node])
    {close : Mark} {steps : Nat} {found : List Node} :
    Extends (separated close item steps found) found.reverse fun items => items.1 := by
  have separated := @Extends.separatedOf _ _ id h close steps found
  simpa only [List.map_id] using separated

theorem Extends.list {item : Reader Node} (h : Extends item [] fun node => [node])
    {steps : Nat} {close : Mark} : Extends (list steps close item) [] fun items => items.1 := by
  have listed := @Extends.listOf _ _ id h steps close
  simpa only [List.map_id] using listed

theorem Gives.separated {item : Reader α} (h : Gives item holds) {close : Mark} {steps : Nat}
    {found : List α} (all : ∀ a ∈ found, holds a) :
    Gives (separated close item steps found) fun items => ∀ a ∈ items.1, holds a := by
  induction steps generalizing found with
  | zero => exact (refuses_fail _).gives
  | succ steps ih =>
    refine h.bind fun a held => ?_
    have all' : ∀ other ∈ (a :: found), holds other := List.forall_mem_cons.mpr ⟨held, all⟩
    refine (passes_atMark _).bind fun closes => ?_
    split
    · exact .pure fun a mem => all' a (List.mem_reverse.mp mem)
    refine passes_position.bind fun comma => ?_
    refine (passes_expectMark _).bind fun _ => ?_
    refine (passes_atMark _).bind fun closes => ?_
    split
    · exact .pure fun a mem => all' a (List.mem_reverse.mp mem)
    · exact ih all'

theorem Gives.list {item : Reader α} (h : Gives item holds) {steps : Nat} {close : Mark} :
    Gives (list steps close item) fun items => ∀ a ∈ items.1, holds a := by
  refine (passes_eatMark _).bind fun closes => .ite (.pure (by simp)) ?_
  refine passes_atEnd.bind fun ends => .ite (refuses_fail _).bind.gives ?_
  exact (h.separated (by simp)).bind fun items held =>
    (passes_expectMark _).bind fun _ => .pure held

/-! ## Strings -/

/-- What is read depends on the token at the front. -/
theorem Extends.of_token {rest : Token → Reader α} {before : List Node} {after : α → List Node}
    (h : ∀ found, (∀ value, found ≠ .string value) → Extends (rest found) before after)
    (string : ∀ low state value result next ⦃text⦄, state.Sound text → low ≤ state.position →
      state.lexeme.token = .string value → rest (.string value) state = .ok result next →
      state.Onward text next ∧
        (Row text low state.previousStop before → Row text low next.previousStop (after result))) :
    Extends (token >>= rest) before after := by
  intro low state result next text sound le run
  obtain ⟨found, middle, first, second⟩ := bind_ok run
  cases first
  cases is : state.lexeme.token with
  | string value =>
    rw [is] at second
    exact string _ _ _ _ _ sound le is second
  | _ =>
    refine h _ ?_ _ _ _ _ sound le second
    rw [is]
    simp

/-- A string is read as a leaf where it stands. -/
theorem extends_atom_string {text : List Char} {low : Nat} {state next : ReaderState}
    {value : String} {node : Node} (sound : state.Sound text) (le : low ≤ state.position)
    (is : state.lexeme.token = .string value)
    (run : atom (fun _ => .string value) state = .ok node next) :
    state.Onward text next ∧
      (Row text low state.previousStop [] → Row text low next.previousStop [node]) :=
  atom_ok sound le run fun _ => sound.proper.string value is

end Reader

end ModuleBundler.Script

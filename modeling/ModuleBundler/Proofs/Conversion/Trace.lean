/-
# ModuleBundler.Proofs.Conversion.Trace — where the characters of an edited text come from.

Every character that edits leave in a text is copied from a position of the text, and every other
one belongs to a replacement.  `trace` is the edited text with these positions; without them it is
what `splice` gives (`chars_trace`).  A position survives exactly if no edit that is made takes it
(`mem_trace`), and its line moves by the lines that the edits made before it add or take
(`lines_trace`).
-/
import Mathlib.Algebra.BigOperators.Group.List.Basic
import Mathlib.Algebra.Order.Ring.Int
import ModuleBundler.Conversion.Edit

namespace ModuleBundler.Conversion

open Script (Span)

/-- A character of an edited text, and the position of the text that it has been copied from. -/
structure Traced where
  char : Char
  origin : Option Nat
  deriving DecidableEq, Repr

/-- A piece of a text that begins at a position. -/
def copied (position : Nat) : List Char → List Traced
  | [] => []
  | c :: rest => ⟨c, some position⟩ :: copied (position + 1) rest

/-- Characters that stand in no text. -/
def inserted (replacement : List Char) : List Traced :=
  replacement.map fun c => ⟨c, none⟩

/-- Makes sorted edits in the part of a text that begins at a position. -/
def traceFrom (position : Nat) (text : List Char) : List Edit → List Traced
  | [] => copied position text
  | edit :: edits =>
    if edit.span.start < position then traceFrom position text edits
    else
      copied position (text.take (edit.span.start - position)) ++ inserted edit.replacement ++
        traceFrom edit.span.stop (text.drop (edit.span.stop - position)) edits

/-- Makes edits in a text. -/
def trace (text : List Char) (edits : List Edit) : List Traced :=
  traceFrom 0 text (Edit.sorted edits)

/-- The edits that are made among sorted edits: those that begin behind what has been replaced. -/
def madeFrom (position : Nat) : List Edit → List Edit
  | [] => []
  | edit :: edits =>
    if edit.span.start < position then madeFrom position edits
    else edit :: madeFrom edit.span.stop edits

/-- The edits that `splice` makes. -/
def made (edits : List Edit) : List Edit :=
  madeFrom 0 (Edit.sorted edits)

/-! ## Sorting -/

namespace Edit

theorem insert_perm (edit : Edit) (edits : List Edit) :
    (insert edit edits).Perm (edit :: edits) := by
  induction edits with
  | nil => exact .refl _
  | cons first edits ih =>
    rw [insert]
    split
    · exact .refl _
    · exact (ih.cons first).trans (.swap edit first edits)

theorem mem_insert {edit other : Edit} {edits : List Edit} :
    other ∈ insert edit edits ↔ other = edit ∨ other ∈ edits := by
  rw [(insert_perm edit edits).mem_iff, List.mem_cons]

/-- Sorting keeps the edits. -/
theorem sorted_perm (edits : List Edit) : (sorted edits).Perm edits := by
  induction edits with
  | nil => exact .refl _
  | cons edit edits ih => exact (insert_perm edit _).trans (ih.cons edit)

theorem mem_sorted {edit : Edit} {edits : List Edit} : edit ∈ sorted edits ↔ edit ∈ edits :=
  (sorted_perm edits).mem_iff

theorem pairwise_insert {edit : Edit} {edits : List Edit}
    (h : edits.Pairwise fun first later => first.span.start ≤ later.span.start) :
    (insert edit edits).Pairwise fun first later => first.span.start ≤ later.span.start := by
  induction edits with
  | nil => exact List.pairwise_singleton _ _
  | cons first edits ih =>
    obtain ⟨behind, rest⟩ := List.pairwise_cons.mp h
    rw [insert]
    split
    · rename_i le
      refine List.pairwise_cons.mpr ⟨fun later mem => ?_, h⟩
      rcases List.mem_cons.mp mem with rfl | mem
      · exact le
      · exact Nat.le_trans le (behind later mem)
    · rename_i gt
      refine List.pairwise_cons.mpr ⟨fun later mem => ?_, ih rest⟩
      rcases mem_insert.mp mem with rfl | mem
      · omega
      · exact behind later mem

/-- Sorted edits begin one behind the other. -/
theorem pairwise_sorted (edits : List Edit) :
    (sorted edits).Pairwise fun first later => first.span.start ≤ later.span.start := by
  induction edits with
  | nil => exact .nil
  | cons edit edits ih => exact pairwise_insert ih

end Edit

/-- Only edits that are there are made. -/
theorem madeFrom_sublist (position : Nat) (edits : List Edit) :
    (madeFrom position edits).Sublist edits := by
  induction edits generalizing position with
  | nil => exact .slnil
  | cons first edits ih =>
    unfold madeFrom
    split
    · exact (ih _).cons first
    · exact (ih _).cons_cons first

theorem mem_of_mem_made {edits : List Edit} {edit : Edit} (mem : edit ∈ made edits) :
    edit ∈ edits :=
  Edit.mem_sorted.mp ((madeFrom_sublist _ _).subset mem)

/-- An edit is made, or one that is made has taken the position where it begins. -/
theorem mem_madeFrom_or {position : Nat} {edits : List Edit} {edit : Edit}
    (sorted : edits.Pairwise fun first later => first.span.start ≤ later.span.start)
    (mem : edit ∈ edits) (le : position ≤ edit.span.start) :
    edit ∈ madeFrom position edits ∨ ∃ other ∈ madeFrom position edits,
      other.span.start ≤ edit.span.start ∧ edit.span.start < other.span.stop := by
  induction edits generalizing position with
  | nil => cases mem
  | cons first edits ih =>
    obtain ⟨behind, sorted⟩ := List.pairwise_cons.mp sorted
    unfold madeFrom
    split
    · rcases List.mem_cons.mp mem with rfl | mem
      · omega
      · exact ih sorted mem le
    · rcases List.mem_cons.mp mem with rfl | mem
      · exact .inl List.mem_cons_self
      by_cases before : edit.span.start < first.span.stop
      · exact .inr ⟨first, List.mem_cons_self, behind edit mem, before⟩
      · rcases ih sorted mem (Nat.le_of_not_lt before) with made | ⟨other, made, holds⟩
        · exact .inl (List.mem_cons_of_mem _ made)
        · exact .inr ⟨other, List.mem_cons_of_mem _ made, holds⟩

theorem mem_made_or {edits : List Edit} {edit : Edit} (mem : edit ∈ edits) :
    edit ∈ made edits ∨ ∃ other ∈ made edits,
      other.span.start ≤ edit.span.start ∧ edit.span.start < other.span.stop :=
  mem_madeFrom_or (Edit.pairwise_sorted edits) (Edit.mem_sorted.mpr mem) (Nat.zero_le _)

/-! ## What is copied -/

theorem chars_copied (position : Nat) (text : List Char) :
    (copied position text).map (·.char) = text := by
  induction text generalizing position with
  | nil => rfl
  | cons c text ih => rw [copied, List.map_cons, ih]

theorem chars_inserted (replacement : List Char) :
    (inserted replacement).map (·.char) = replacement := by
  rw [inserted, List.map_map]
  exact List.map_id _

theorem chars_traceFrom (position : Nat) (text : List Char) (edits : List Edit) :
    (traceFrom position text edits).map (·.char) = spliceFrom position text edits := by
  induction edits generalizing position text with
  | nil => exact chars_copied _ _
  | cons edit edits ih =>
    unfold traceFrom spliceFrom
    split
    · exact ih _ _
    · rw [List.map_append, List.map_append, chars_copied, chars_inserted, ih]

/-- Without the positions a trace is the edited text. -/
theorem chars_trace (text : List Char) (edits : List Edit) :
    (trace text edits).map (·.char) = splice text edits :=
  chars_traceFrom _ _ _

/-- A copied character stands where it comes from, behind the characters before it. -/
theorem eq_of_copied {position p : Nat} {text : List Char} {before after : List Traced} {c : Char}
    (is : copied position text = before ++ ⟨c, some p⟩ :: after) :
    position ≤ p ∧ text[p - position]? = some c ∧
      before.map (·.char) = text.take (p - position) := by
  induction text generalizing position before with
  | nil => simp [copied] at is
  | cons first text ih =>
    cases before with
    | nil =>
      obtain ⟨same, -⟩ := List.cons.inj is
      cases same
      simp
    | cons here before =>
      obtain ⟨same, others⟩ := List.cons.inj is
      subst same
      obtain ⟨le, found, chars⟩ := ih others
      obtain ⟨behind, rfl⟩ := Nat.exists_eq_add_of_le le
      have next : position + 1 + behind - position = behind + 1 := by omega
      rw [Nat.add_sub_cancel_left] at found chars
      rw [next]
      exact ⟨by omega, by simpa using found, by simp [chars]⟩

theorem mem_copied {position p : Nat} {text : List Char} :
    (∃ c, ⟨c, some p⟩ ∈ copied position text) ↔ position ≤ p ∧ p < position + text.length := by
  induction text generalizing position with
  | nil =>
    simp only [copied, List.not_mem_nil, exists_false, List.length_nil, false_iff]
    omega
  | cons first text ih =>
    simp only [copied, List.mem_cons, Traced.mk.injEq, Option.some.injEq, List.length_cons,
      exists_or, ih, exists_eq_left]
    omega

theorem not_mem_inserted {replacement : List Char} {c : Char} {p : Nat} :
    (⟨c, some p⟩ : Traced) ∉ inserted replacement := by
  simp [inserted]

/-! ## Positions -/

/-- An edit behind the position is made: what is before it is copied. -/
theorem traceFrom_cons {text : List Char} {position : Nat} {edit : Edit} {edits : List Edit}
    (le : position ≤ edit.span.start) (ordered : edit.span.start ≤ edit.span.stop) :
    traceFrom position (text.drop position) (edit :: edits) =
      copied position (Span.slice ⟨position, edit.span.start⟩ text) ++
        (inserted edit.replacement ++
          traceFrom edit.span.stop (text.drop edit.span.stop) edits) := by
  have skipped : (text.drop position).drop (edit.span.stop - position) =
      text.drop edit.span.stop := by
    rw [List.drop_drop, Nat.add_sub_cancel' (Nat.le_trans le ordered)]
  rw [traceFrom, if_neg (Nat.not_lt.mpr le), skipped, List.append_assoc]
  rfl

theorem madeFrom_cons {position : Nat} {edit : Edit} {edits : List Edit}
    (le : position ≤ edit.span.start) :
    madeFrom position (edit :: edits) = edit :: madeFrom edit.span.stop edits :=
  if_neg (Nat.not_lt.mpr le)

/-- Edits are made behind the position where they may begin. -/
theorem start_of_mem_madeFrom {position : Nat} {edits : List Edit}
    (ordered : ∀ edit ∈ edits, edit.span.start ≤ edit.span.stop) {edit : Edit}
    (mem : edit ∈ madeFrom position edits) : position ≤ edit.span.start := by
  induction edits generalizing position with
  | nil => cases mem
  | cons first edits ih =>
    obtain ⟨own, ordered⟩ := List.forall_mem_cons.mp ordered
    unfold madeFrom at mem
    split at mem
    · exact ih ordered mem
    · rename_i behind
      rcases List.mem_cons.mp mem with rfl | mem
      · omega
      · have later := ih ordered mem
        omega

theorem mem_traceFrom {text : List Char} {position p : Nat} {edits : List Edit}
    (ordered : ∀ edit ∈ edits, edit.span.start ≤ edit.span.stop) :
    (∃ c, ⟨c, some p⟩ ∈ traceFrom position (text.drop position) edits) ↔
      position ≤ p ∧ p < text.length ∧
        ∀ edit ∈ madeFrom position edits, ¬(edit.span.start ≤ p ∧ p < edit.span.stop) := by
  induction edits generalizing position with
  | nil =>
    simp only [traceFrom, madeFrom, mem_copied, List.length_drop, List.not_mem_nil, false_implies,
      implies_true, and_true]
    omega
  | cons edit edits ih =>
    obtain ⟨own, ordered⟩ := List.forall_mem_cons.mp ordered
    by_cases earlier : edit.span.start < position
    · rw [traceFrom, madeFrom, if_pos earlier, if_pos earlier]
      exact ih ordered
    · have low := Nat.le_of_not_lt earlier
      have later : ∀ other ∈ madeFrom edit.span.stop edits, edit.span.stop ≤ other.span.start :=
        fun other mem => start_of_mem_madeFrom ordered mem
      rw [traceFrom_cons low own, madeFrom_cons low]
      simp only [List.mem_append, exists_or, mem_copied, not_mem_inserted, false_or, ih ordered,
        List.forall_mem_cons, Span.slice, List.length_take, List.length_drop]
      constructor
      · -- what stands before this edit is not taken by later ones either
        rintro (⟨le, lt⟩ | ⟨le, lt, apart⟩)
        · refine ⟨le, by omega, by omega, fun other mem => ?_⟩
          have start := later other mem
          omega
        · exact ⟨by omega, lt, by omega, apart⟩
      · rintro ⟨le, lt, apart, others⟩
        by_cases before : p < edit.span.start
        · exact .inl ⟨le, by omega⟩
        · exact .inr ⟨by omega, lt, others⟩

/-- A position of a text survives the edits exactly if none that is made takes it. -/
theorem mem_trace {text : List Char} {p : Nat} {edits : List Edit}
    (ordered : ∀ edit ∈ edits, edit.span.start ≤ edit.span.stop) :
    (∃ c, ⟨c, some p⟩ ∈ trace text edits) ↔
      p < text.length ∧ ∀ edit ∈ made edits, ¬(edit.span.start ≤ p ∧ p < edit.span.stop) := by
  have found := @mem_traceFrom text 0 p (Edit.sorted edits)
    fun edit mem => ordered edit (Edit.mem_sorted.mp mem)
  rw [List.drop_zero] at found
  exact found.trans (and_iff_right (Nat.zero_le p))

/-! ## Lines -/

/-- The line feeds in a piece of a text. -/
def lineFeeds (text : List Char) : Nat :=
  text.count '\n'

/-- The line feeds in traced characters. -/
def tracedLineFeeds (traced : List Traced) : Nat :=
  lineFeeds (traced.map (·.char))

@[simp] theorem tracedLineFeeds_append (first second : List Traced) :
    tracedLineFeeds (first ++ second) = tracedLineFeeds first + tracedLineFeeds second := by
  simp only [tracedLineFeeds, lineFeeds, List.map_append, List.count_append]

@[simp] theorem tracedLineFeeds_copied (position : Nat) (text : List Char) :
    tracedLineFeeds (copied position text) = lineFeeds text :=
  congrArg lineFeeds (chars_copied position text)

@[simp] theorem tracedLineFeeds_inserted (replacement : List Char) :
    tracedLineFeeds (inserted replacement) = lineFeeds replacement :=
  congrArg lineFeeds (chars_inserted replacement)

/-- The lines that an edit adds to a text. -/
def Edit.surplus (text : List Char) (edit : Edit) : Nat :=
  lineFeeds edit.replacement - lineFeeds (edit.span.slice text)

/-- Edits that end behind their beginning and take no lines away. -/
structure Edit.Growing (text : List Char) (edit : Edit) : Prop where
  ordered : edit.span.start ≤ edit.span.stop
  lines : lineFeeds (edit.span.slice text) ≤ lineFeeds edit.replacement

/-- The lines that the edits made before a position add. -/
def addedBefore (text : List Char) (p : Nat) (edits : List Edit) : Nat :=
  ((edits.filter fun edit => edit.span.stop ≤ p).map (Edit.surplus text)).sum

/-- A character of a list that is put together stands in the first part or in the second. -/
theorem append_eq_append_cons {α : Type} {first second before after : List α} {a : α}
    (h : first ++ second = before ++ a :: after) :
    (∃ between, first = before ++ a :: between) ∨
      ∃ between, before = first ++ between ∧ second = between ++ a :: after := by
  rcases List.append_eq_append_iff.mp h with ⟨between, is, rest⟩ | ⟨between, is, rest⟩
  · exact .inr ⟨between, is, rest⟩
  · cases between with
    | nil => exact .inr ⟨[], by simpa using is.symm, by simpa using rest.symm⟩
    | cons b between =>
      obtain ⟨same, -⟩ := List.cons.inj rest
      subst same
      exact .inl ⟨between, is⟩

theorem lineFeeds_take {start stop : Nat} (le : start ≤ stop) (text : List Char) :
    lineFeeds (text.take stop) =
      lineFeeds (text.take start) + lineFeeds (Span.slice ⟨start, stop⟩ text) := by
  obtain ⟨extent, rfl⟩ := Nat.exists_eq_add_of_le le
  unfold Span.slice
  rw [List.take_add, Nat.add_sub_cancel_left]
  exact List.count_append

/-- A character that is copied from a piece of a text stands behind what is before it there. -/
theorem eq_of_copied_slice {text : List Char} {position stop p : Nat} {before after : List Traced}
    {c : Char}
    (is : copied position (Span.slice ⟨position, stop⟩ text) = before ++ ⟨c, some p⟩ :: after) :
    position ≤ p ∧ p < stop ∧ text[p]? = some c ∧
      before.map (·.char) = Span.slice ⟨position, p⟩ text := by
  obtain ⟨low, found, chars⟩ := eq_of_copied is
  unfold Span.slice at found chars
  rw [List.getElem?_take, Option.ite_none_right_eq_some] at found
  obtain ⟨near, found⟩ := found
  rw [List.getElem?_drop, Nat.add_sub_cancel' low] at found
  rw [List.take_take, Nat.min_eq_left (Nat.le_of_lt near)] at chars
  dsimp only at near
  exact ⟨low, by omega, found, chars⟩

/-- Edits that are made behind a position add nothing before it. -/
theorem addedBefore_eq_zero {text : List Char} {p : Nat} {edits : List Edit}
    (behind : ∀ edit ∈ edits, p < edit.span.stop) : addedBefore text p edits = 0 := by
  have none : edits.filter (fun edit => edit.span.stop ≤ p) = [] :=
    List.filter_eq_nil_iff.mpr fun edit mem => by simpa using behind edit mem
  rw [addedBefore, none]
  rfl

theorem addedBefore_cons {text : List Char} {p : Nat} {edit : Edit} {edits : List Edit}
    (before : edit.span.stop ≤ p) :
    addedBefore text p (edit :: edits) = edit.surplus text + addedBefore text p edits := by
  rw [addedBefore, List.filter_cons_of_pos (by simpa using before)]
  rfl

/-- Edits that add no lines add none before any position. -/
theorem addedBefore_of_surplus {text : List Char} {p : Nat} {edits : List Edit}
    (none : ∀ edit ∈ edits, edit.surplus text = 0) : addedBefore text p edits = 0 := by
  refine List.sum_eq_zero fun lines mem => ?_
  obtain ⟨edit, listed, rfl⟩ := List.mem_map.mp mem
  exact none edit (List.mem_of_mem_filter listed)

/-- Behind an edit there are as many lines more as it adds. -/
theorem Edit.Growing.lineFeeds_take {text : List Char} {edit : Edit} (growing : edit.Growing text) :
    lineFeeds (text.take edit.span.stop) + edit.surplus text =
      lineFeeds (text.take edit.span.start) + lineFeeds edit.replacement := by
  have toStop : lineFeeds (text.take edit.span.stop) =
      lineFeeds (text.take edit.span.start) + lineFeeds (edit.span.slice text) :=
    Conversion.lineFeeds_take growing.ordered text
  have made : lineFeeds (edit.span.slice text) + edit.surplus text = lineFeeds edit.replacement :=
    Nat.add_sub_cancel' growing.lines
  omega

/-- Edits that are made from an edit on add nothing before it. -/
theorem addedBefore_madeFrom_eq_zero {text : List Char} {p : Nat} {edit : Edit} {edits : List Edit}
    (growing : ∀ other ∈ edit :: edits, other.Growing text) (near : p < edit.span.start) :
    addedBefore text p (edit :: madeFrom edit.span.stop edits) = 0 := by
  obtain ⟨own, growing⟩ := List.forall_mem_cons.mp growing
  have ordered := own.ordered
  apply addedBefore_eq_zero
  intro other mem
  rcases List.mem_cons.mp mem with same | mem
  · subst same
    omega
  · have later := start_of_mem_madeFrom (fun edit mem => (growing edit mem).ordered) mem
    have bound := (growing other ((madeFrom_sublist _ _).subset mem)).ordered
    omega

theorem lines_traceFrom {text : List Char} {position p : Nat} {edits : List Edit}
    (growing : ∀ edit ∈ edits, edit.Growing text) {before after : List Traced} {c : Char}
    (is : traceFrom position (text.drop position) edits = before ++ ⟨c, some p⟩ :: after) :
    position ≤ p ∧ text[p]? = some c ∧
      lineFeeds (text.take position) + tracedLineFeeds before =
        lineFeeds (text.take p) + addedBefore text p (madeFrom position edits) := by
  induction edits generalizing position before with
  | nil =>
    obtain ⟨le, found, chars⟩ := eq_of_copied is
    rw [List.getElem?_drop, Nat.add_sub_cancel' le] at found
    refine ⟨le, found, ?_⟩
    rw [tracedLineFeeds, chars, lineFeeds_take le]
    rfl
  | cons edit edits ih =>
    obtain ⟨own, others⟩ := List.forall_mem_cons.mp growing
    by_cases earlier : edit.span.start < position
    · rw [traceFrom, if_pos earlier] at is
      rw [madeFrom, if_pos earlier]
      exact ih others is
    have le := Nat.le_of_not_lt earlier
    have ordered := own.ordered
    rw [traceFrom_cons le ordered] at is
    rw [madeFrom_cons le]
    rcases append_eq_append_cons is with ⟨between, gap⟩ | ⟨middle, isBefore, behindGap⟩
    · -- the character stands before the edit, and all that are made stop behind it
      obtain ⟨low, near, found, chars⟩ := eq_of_copied_slice gap
      refine ⟨low, found, ?_⟩
      rw [tracedLineFeeds, chars, ← lineFeeds_take low, addedBefore_madeFrom_eq_zero growing near,
        Nat.add_zero]
    subst isBefore
    rcases append_eq_append_cons behindGap with ⟨between, inside⟩ | ⟨last, isMiddle, rest⟩
    · -- what an edit puts in comes from nowhere
      refine absurd ?_ (@not_mem_inserted edit.replacement c p)
      rw [inside]
      simp
    · -- the character stands behind the edit
      subst isMiddle
      obtain ⟨low, found, lines⟩ := ih others rest
      refine ⟨by omega, found, ?_⟩
      have toStart := lineFeeds_take le text
      have behind := own.lineFeeds_take
      rw [tracedLineFeeds_append, tracedLineFeeds_append, tracedLineFeeds_copied,
        tracedLineFeeds_inserted, addedBefore_cons low]
      omega

/-- A character of an edited text that comes from a position stands as many lines further down as
the edits made before it add. -/
theorem lines_trace {text : List Char} {p : Nat} {edits : List Edit}
    (growing : ∀ edit ∈ edits, edit.Growing text) {before after : List Traced} {c : Char}
    (is : trace text edits = before ++ ⟨c, some p⟩ :: after) :
    text[p]? = some c ∧
      tracedLineFeeds before = lineFeeds (text.take p) + addedBefore text p (made edits) := by
  obtain ⟨-, found, lines⟩ := @lines_traceFrom text 0 p (Edit.sorted edits)
    (fun edit mem => growing edit (Edit.mem_sorted.mp mem)) before after c is
  rw [List.take_zero] at lines
  refine ⟨found, ?_⟩
  rw [← Nat.zero_add (tracedLineFeeds before)]
  exact lines

end ModuleBundler.Conversion

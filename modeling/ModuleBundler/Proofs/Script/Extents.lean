/-
# ModuleBundler.Proofs.Script.Extents — where lexemes stand in a text.

The extents of literals, words and marks are counted in the text that they are read from, so none
is longer than this text.  A lexeme that is scanned in a text ends in it, what the scanner keeps as
the text behind it is what is left there, and a word or a mark is what the text has at its place
(`lexeme_fits`).
-/
import ModuleBundler.Proofs.Script.Lexeme

namespace ModuleBundler.Script

namespace Literal

/-! ## Strings, templates and regular expressions -/

theorem stringExtent?_lt {quote : Char} {text : List Char} {extent : Nat}
    (h : stringExtent? quote text = some extent) : extent < text.length := by
  fun_induction stringExtent? quote text generalizing extent
  all_goals grind [Option.map_eq_some_iff]

theorem chunkExtent?_le {text : List Char} {extent : Nat} {last : Bool}
    (h : chunkExtent? text = some (extent, last)) :
    extent + (if last then 1 else 2) ≤ text.length := by
  fun_induction chunkExtent? text generalizing extent
  all_goals grind [Option.map_eq_some_iff]

theorem regexExtent?_lt {inClass : Bool} {text : List Char} {extent : Nat}
    (h : regexExtent? inClass text = some extent) : extent < text.length := by
  fun_induction regexExtent? inClass text generalizing extent
  all_goals grind [Option.map_eq_some_iff]

/-! ## Numbers -/

theorem digitExtent?_le {isDigit : Char → Bool} {run : DigitRun} {text : List Char} {extent : Nat}
    (h : digitExtent? isDigit run text = some extent) : extent ≤ text.length := by
  fun_induction digitExtent? isDigit run text generalizing extent
  all_goals grind [Option.map_eq_some_iff]

theorem exponentExtent?_le {text : List Char} {extent : Nat}
    (h : exponentExtent? text = some extent) : extent ≤ text.length := by
  unfold exponentExtent? at h
  split at h
  · rename_i e rest
    split at h
    · extract_lets sign at h
      -- the digits of an exponent stand behind its sign, if it has one
      have signed : sign ≤ rest.length := by
        unfold sign
        split <;> simp
      split at h
      · cases h
      · cases h
      · rename_i digits positive is
        have le := digitExtent?_le is
        rw [List.length_drop] at le
        cases h
        rw [List.length_cons]
        omega
    · cases h
      exact Nat.zero_le _
  · cases h
    exact Nat.zero_le _

theorem fractionExtent?_le {text : List Char} {extent : Nat}
    (h : fractionExtent? text = some extent) : extent ≤ text.length := by
  have joined {fraction : Nat} (le : fraction ≤ text.length)
      (h : (do let exponent ← exponentExtent? (text.drop fraction); return fraction + exponent) =
        some extent) : extent ≤ text.length := by
    obtain ⟨exponent, is, same⟩ := Option.bind_eq_some_iff.mp h
    cases same
    have le' := exponentExtent?_le is
    rw [List.length_drop] at le'
    omega
  unfold fractionExtent? at h
  dsimp only at h
  split at h
  · split at h
    · exact joined (by simp) h
    · obtain ⟨fraction, is, h⟩ := Option.bind_eq_some_iff.mp h
      obtain ⟨digits, run, rfl⟩ := Option.map_eq_some_iff.mp is
      exact joined (Nat.succ_le_succ (digitExtent?_le run)) h
  · exact joined (Nat.zero_le _) h

theorem head?_drop_le {text : List Char} {extent : Nat} {c : Char}
    (h : (text.drop extent).head? = some c) : extent + 1 ≤ text.length := by
  rw [List.head?_drop] at h
  exact (List.getElem?_eq_some_iff.mp h).1

theorem basedExtent?_le {isDigit : Char → Bool} {text : List Char} {extent : Nat}
    (h : basedExtent? isDigit text = some extent) : extent ≤ text.length := by
  unfold basedExtent? at h
  split at h
  · cases h
  · cases h
  · rename_i n some is
    cases h
    split
    · rename_i suffix
      exact head?_drop_le suffix
    · exact digitExtent?_le is

theorem numberCore?_le {text : List Char} {extent : Nat}
    (h : numberCore? text = some extent) : extent ≤ text.length := by
  unfold numberCore? at h
  split at h
  · rename_i x rest
    have based {isDigit : Char → Bool} (h : (basedExtent? isDigit rest).map (· + 2) = some extent) :
        extent ≤ ('0' :: x :: rest).length := by
      obtain ⟨digits, is, rfl⟩ := Option.map_eq_some_iff.mp h
      exact Nat.add_le_add_right (basedExtent?_le is) 2
    split at h
    · exact based h
    split at h
    · exact based h
    split at h
    · exact based h
    split at h
    · -- a number with a leading nought that is no octal number is a decimal one
      have le := (List.takeWhile_prefix (l := x :: rest) Char.isDigit).length_le
      dsimp only at h
      split at h
      · cases h
        exact Nat.succ_le_succ le
      · obtain ⟨fraction, is, rfl⟩ := Option.map_eq_some_iff.mp h
        have le' := fractionExtent?_le is
        simp only [List.length_drop, List.length_cons] at le le' ⊢
        omega
    split at h
    · cases h
    split at h
    · cases h
      simp
    · obtain ⟨fraction, is, rfl⟩ := Option.map_eq_some_iff.mp h
      exact Nat.succ_le_succ (fractionExtent?_le is)
  · obtain ⟨whole, is, h⟩ := Option.bind_eq_some_iff.mp h
    split at h
    · rename_i suffix
      cases h
      exact head?_drop_le suffix
    · obtain ⟨fraction, is', same⟩ := Option.bind_eq_some_iff.mp h
      cases same
      have le := digitExtent?_le is
      have le' := fractionExtent?_le is'
      rw [List.length_drop] at le'
      omega

theorem numberExtent?_le {text : List Char} {extent : Nat}
    (h : numberExtent? text = some extent) : extent ≤ text.length := by
  unfold numberExtent? at h
  obtain ⟨core, is, rest⟩ := Option.bind_eq_some_iff.mp h
  have le := numberCore?_le is
  split at rest
  · cases rest
    exact le
  · split at rest
    · cases rest
    · cases rest
      exact le

/-! ## Escapes -/

theorem bracedCode?_le {text : List Char} {value taken : Nat} {found : Nat × Nat}
    (h : bracedCode? text value taken = some found) : found.2 ≤ taken + text.length := by
  fun_induction bracedCode? text value taken
  all_goals grind

theorem codeEscape?_le {text : List Char} {found : Nat × Nat} (h : codeEscape? text = some found) :
    found.2 ≤ text.length := by
  unfold codeEscape? at h
  split at h
  · obtain ⟨inner, is, rfl⟩ := Option.map_eq_some_iff.mp h
    have le := bracedCode?_le is
    simp only [List.length_cons]
    omega
  · -- four digits, each of which has a value
    obtain ⟨_, -, h⟩ := Option.bind_eq_some_iff.mp h
    obtain ⟨_, -, h⟩ := Option.bind_eq_some_iff.mp h
    obtain ⟨_, -, h⟩ := Option.bind_eq_some_iff.mp h
    obtain ⟨_, -, h⟩ := Option.bind_eq_some_iff.mp h
    cases h
    simp
  · cases h

end Literal

/-- A mark takes no more than the text that it begins. -/
theorem Mark.read?_le {text : List Char} {found : Mark × Nat} (h : Mark.read? text = some found) :
    found.2 ≤ text.length := by
  unfold Mark.read? at h
  split at h
  · cases h
  · rename_i spelling mark listed
    have begins := List.find?_some listed
    have begun := List.isPrefixOf_iff_prefix.mp begins
    have le := begun.length_le
    split at h
    · rename_i digit
      cases h
      -- the digit behind the mark is a character of the text too
      obtain ⟨c, is, -⟩ := Option.map_eq_some_iff.mp digit.2
      exact Nat.le_trans (by decide) (Literal.head?_drop_le is)
    · cases h
      exact le

/-- Whether a token is a word or a mark: these are read in one way wherever they stand. -/
def Token.isPlain : Token → Bool
  | .word _ _ => true
  | .mark _ => true
  | _ => false

namespace Scan

/-! ## Words -/

theorem escapedWord_extent {steps : Nat} {first : Bool} {text : List Char} {position : Nat}
    {word : Word} (h : escapedWord steps first text position = .ok word) :
    word.extent ≤ text.length := by
  fun_induction escapedWord steps first text position generalizing word with
  | case1 => cases h; exact Nat.zero_le _
  | case2 => cases h; exact Nat.zero_le _
  | case3 => cases h
  | case4 =>
    rename_i escape _ _ ih
    obtain ⟨others, run, rfl⟩ := map_ok h
    have le := Literal.codeEscape?_le escape
    have le' := ih run
    simp only [List.length_drop, List.length_cons] at le' ⊢
    omega
  | case5 => cases h
  | case6 =>
    rename_i ih
    obtain ⟨others, run, rfl⟩ := map_ok h
    exact Nat.succ_le_succ (ih run)
  | case7 => cases h; exact Nat.zero_le _

theorem word?_extent {text : List Char} {position : Nat} {word : Word}
    (h : word? text position = some (.ok word)) : word.extent ≤ text.length := by
  unfold word? at h
  split at h
  · cases h
  · rename_i c rest
    split at h
    · exact escapedWord_extent (Option.some.inj h)
    split at h
    · have le := (List.takeWhile_prefix (l := c :: rest) isNamePart).length_le
      dsimp only at h
      split at h
      · obtain ⟨others, run, rfl⟩ := map_ok (Option.some.inj h)
        have le' := escapedWord_extent run
        rw [List.length_drop] at le'
        dsimp only
        omega
      · cases h
        exact le
    · cases h

/-! ## Lexemes -/

/-- A lexeme that takes some of the characters that a text at a position begins with. -/
structure Begins (text : List Char) (position : Nat) (scanned : Scanned) : Prop where
  start : scanned.lexeme.span.start = position
  here : scanned.here = text
  extent : ∃ extent ≤ text.length,
    scanned.lexeme.span.stop = position + extent ∧ scanned.rest = text.drop extent

section

variable {text : List Char} {position : Nat}

theorem taken_begins {extent : Nat} (within : extent ≤ text.length) (token : Token)
    (newline : Bool) : Begins text position (taken token extent text position newline) :=
  ⟨rfl, rfl, extent, within, rfl, rfl⟩

/-- Something wrong in a lexeme does not change its place. -/
theorem Begins.blame {scanned : Scanned} (h : Begins text position scanned) (start : Nat)
    (fault : SyntaxFault) : Begins text position (scanned.blame start fault) :=
  ⟨h.start, h.here, h.extent⟩

theorem broken_begins (fault : SyntaxError) (newline : Bool) :
    Begins text position (broken fault text position newline) :=
  ⟨rfl, rfl, text.length, Nat.le_refl _, rfl, rfl⟩

theorem string_begins {inner : List Char} (behind : inner.length + 1 = text.length) (quote : Char)
    (newline : Bool) : Begins text position (string quote inner text position newline) := by
  unfold string
  split
  · exact broken_begins _ _
  · rename_i extent is
    have lt := Literal.stringExtent?_lt is
    have within : extent + 2 ≤ text.length := by omega
    split
    · exact (taken_begins within _ _).blame _ _
    · exact taken_begins within _ _

theorem chunk_begins (text : List Char) (position : Nat) (newline : Bool) :
    Begins text position (chunk text position newline) := by
  unfold chunk
  dsimp only
  split
  · exact broken_begins _ _
  · rename_i extent last is
    have le' := Literal.chunkExtent?_le is
    rw [List.length_drop] at le'
    refine taken_begins ?_ _ _
    cases last <;> simp at le' ⊢ <;> omega

theorem regex_begins (text : List Char) (position : Nat) (newline : Bool) :
    Begins text position (regex text position newline) := by
  unfold regex
  dsimp only
  split
  · exact (taken_begins (Nat.le_refl _) _ _).blame _ _
  · rename_i extent is
    have lt := Literal.regexExtent?_lt is
    have flags := (List.takeWhile_prefix (l := (text.drop 1).drop (extent + 1))
      isPlainNamePart).length_le
    have within : extent + 2 +
        (((text.drop 1).drop (extent + 1)).takeWhile isPlainNamePart).length ≤ text.length := by
      simp only [List.length_drop] at lt flags ⊢
      omega
    split
    · exact taken_begins within _ _
    · exact (taken_begins within _ _).blame _ _

/-- A text begins with its token. -/
theorem token_begins (text : List Char) (position : Nat) (newline : Bool) :
    Begins text position (token text position newline) := by
  unfold token
  split
  · exact taken_begins (Nat.zero_le _) _ _
  rename_i c rest
  split
  · exact broken_begins _ _
  · rename_i word read
    exact taken_begins (word?_extent read) _ _
  split
  · exact string_begins rfl _ _
  split
  · exact chunk_begins _ _ _
  split
  · split
    · exact broken_begins _ _
    · rename_i extent is
      exact taken_begins (Literal.numberExtent?_le is) _ _
  split
  · split
    · exact broken_begins _ _
    · exact broken_begins _ _
    · rename_i word read
      exact taken_begins (Nat.succ_le_succ (word?_extent read)) _ _
  split
  · exact broken_begins _ _
  · rename_i mark extent is
    exact taken_begins (Mark.read?_le is) _ _

end

/-! ## Lexemes in a text -/

/-- What a scanner has left of a text at a position: the text from there on, or nothing where it
has given up. -/
structure Tail (text : List Char) (position : Nat) (left : List Char) : Prop where
  eq : left = text.drop position ∨ left = []
  le : position + left.length ≤ text.length

/-- A lexeme that stands in a text, with what is left of the text where it begins and behind it.  A
word or a mark is what the text has there. -/
structure Fits (text : List Char) (lexeme : Lexeme) (here rest : List Char) : Prop where
  front : Tail text lexeme.span.start here
  back : Tail text lexeme.span.stop rest
  plain : lexeme.token.isPlain = true → rest = text.drop lexeme.span.stop ∧
    ∃ newline, (token (text.drop lexeme.span.start) lexeme.span.start newline).lexeme = lexeme

/-- What has been scanned fits. -/
abbrev Scanned.Fits (text : List Char) (scanned : Scanned) : Prop :=
  Scan.Fits text scanned.lexeme scanned.here scanned.rest

variable {text left : List Char} {position : Nat}

/-- What is left behind some characters. -/
theorem Tail.drop {extent : Nat} (tail : Tail text position left) (within : extent ≤ left.length) :
    Tail text (position + extent) (left.drop extent) := by
  refine ⟨?_, ?_⟩
  · rcases tail.eq with rfl | rfl
    · exact .inl List.drop_drop
    · exact .inr List.drop_nil
  · have le := tail.le
    rw [List.length_drop]
    omega

/-- A lexeme that is neither a word nor a mark fits where it has been scanned. -/
theorem Begins.fits {scanned : Scanned} (begins : Begins left position scanned)
    (tail : Tail text position left) (special : scanned.lexeme.token.isPlain = false) :
    scanned.Fits text := by
  obtain ⟨extent, within, stop, rest⟩ := begins.extent
  refine ⟨?_, ?_, fun plain => absurd plain (Bool.eq_false_iff.mp special)⟩
  · rw [begins.start, begins.here]
    exact tail
  · rw [stop, rest]
    exact tail.drop within

theorem chunk_special (left : List Char) (position : Nat) (newline : Bool) :
    (chunk left position newline).lexeme.token.isPlain = false := by
  unfold chunk
  grind [taken, broken, Scanned.blame, Token.isPlain]

theorem regex_special (left : List Char) (position : Nat) (newline : Bool) :
    (regex left position newline).lexeme.token.isPlain = false := by
  unfold regex
  grind [taken, Scanned.blame, Token.isPlain]

theorem token_fits (tail : Tail text position left) (newline : Bool) :
    (token left position newline).Fits text := by
  have begins := token_begins left position newline
  cases plain : (token left position newline).lexeme.token.isPlain with
  | false => exact begins.fits tail plain
  | true =>
    rcases tail.eq with rfl | rfl
    · obtain ⟨extent, within, stop, rest⟩ := begins.extent
      refine ⟨?_, ?_, fun _ => ⟨?_, newline, ?_⟩⟩
      · rw [begins.start, begins.here]
        exact tail
      · rw [stop, rest]
        exact tail.drop within
      · rw [stop, rest, List.drop_drop]
      · rw [begins.start]
    · cases plain

/-! ## Blanks and comments -/

/-- What is behind blanks and comments stands where it stood in the text. -/
theorem skip_tail (gap : Gap) (comments : Comments) (newline : Bool) (left : List Char)
    (position : Nat) (tail : Tail text position left) :
    Tail text (skip gap comments newline left position).position
      (skip gap comments newline left position).text := by
  fun_induction skip gap comments newline left position
  all_goals first
    | exact tail
    | rename_i ih
      exact ih (tail.drop (by simp))

/-- A comment that does not end has begun in the text, unless it has begun before. -/
theorem skip_unclosed_le (gap : Gap) (comments : Comments) (newline : Bool) (text : List Char)
    (position start : Nat) (h : (skip gap comments newline text position).unclosed = some start) :
    gap = .block start ∨ start ≤ position + text.length := by
  fun_induction skip gap comments newline text position
  all_goals grind

/-- The next lexeme of a text stands in it. -/
theorem lexeme_fits (tail : Tail text position left) (newline : Bool) :
    (lexeme left position newline).Fits text := by
  unfold lexeme
  dsimp only
  split
  · rename_i start unclosed
    rcases skip_unclosed_le _ _ _ _ _ _ unclosed with gap | within
    · cases gap
    · have nothing : Tail text start [] := ⟨.inr rfl, Nat.le_trans within tail.le⟩
      have broken (newline : Bool) : Begins [] start (taken .broken 0 [] start newline) :=
        taken_begins (Nat.zero_le _) _ _
      exact ((broken _).blame start .unterminatedComment).fits nothing rfl
  · exact token_fits (skip_tail _ _ _ _ _ tail) _

end Scan

end ModuleBundler.Script

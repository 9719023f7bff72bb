/-
# ModuleBundler.Proofs.Script.Lexeme — what every lexeme is like.

A lexeme begins where the text to scan begins or behind that, and does not end before it begins.
Words consist of the letters of names, also where these are written as escapes, and the literal of
a string has characters.
-/
import Mathlib.Data.List.TakeWhile
import ModuleBundler.Proofs.Script.Row

namespace ModuleBundler.Script

/-- A lexeme whose end is not before its beginning, whose text is a word if it is one, with a
character at least for every letter, and whose literal has characters if it is a string. -/
structure Lexeme.Proper (lexeme : Lexeme) : Prop where
  ordered : lexeme.span.start ≤ lexeme.span.stop
  word : ∀ text escaped, lexeme.token = .word text escaped → IsWord text
  extent : ∀ text escaped, lexeme.token = .word text escaped →
    lexeme.span.start + text.toList.length ≤ lexeme.span.stop
  string : ∀ value, lexeme.token = .string value → lexeme.span.start < lexeme.span.stop

namespace Scan

/-! ## Words -/

/-- A letter that may begin a name may also go on with one. -/
theorem isNamePart_of_isNameStart {c : Char} (h : isNameStart c = true) : isNamePart c = true := by
  unfold isNameStart at h
  unfold isNamePart
  split at h <;> rename_i low <;> simp [isPlainNamePart, low, h]

/-- A letter that fits where it stands in a name is a letter of names. -/
theorem isNamePart_of_fits {first : Bool} {c : Char}
    (h : (if first = true then isNameStart else isNamePart) c = true) : isNamePart c = true := by
  split at h
  · exact isNamePart_of_isNameStart h
  · exact h

/-- What is made of a result was made of one. -/
theorem map_ok {α β : Type} {x : Except SyntaxError α} {f : α → β} {result : β}
    (h : (do let a ← x; return f a) = Except.ok result) : ∃ a, x = .ok a ∧ f a = result := by
  cases x with
  | error fault => cases h
  | ok a => exact ⟨a, rfl, Except.ok.inj h⟩

/-- Escaped or not, the letters of a word are letters of names. -/
theorem escapedWord_letters {steps : Nat} {first : Bool} {text : List Char} {position : Nat}
    {word : Word} (h : escapedWord steps first text position = .ok word) :
    ∀ c ∈ word.letters, isNamePart c = true := by
  fun_induction escapedWord steps first text position generalizing word with
  | case1 => cases h; simp
  | case2 => cases h; simp
  | case3 => cases h
  | case4 =>
    rename_i fit ih
    obtain ⟨others, run, rfl⟩ := map_ok h
    exact List.forall_mem_cons.mpr ⟨isNamePart_of_fits fit, ih run⟩
  | case5 => cases h
  | case6 =>
    rename_i fit ih
    obtain ⟨others, run, rfl⟩ := map_ok h
    exact List.forall_mem_cons.mpr ⟨isNamePart_of_fits fit, ih run⟩
  | case7 => cases h; simp

/-- Every letter of a word takes a character at least. -/
theorem length_escapedWord {steps : Nat} {first : Bool} {text : List Char} {position : Nat}
    {word : Word} (h : escapedWord steps first text position = .ok word) :
    word.letters.length ≤ word.extent := by
  fun_induction escapedWord steps first text position generalizing word with
  | case1 => cases h; simp
  | case2 => cases h; simp
  | case3 => cases h
  | case4 =>
    rename_i ih
    obtain ⟨others, run, rfl⟩ := map_ok h
    have le := ih run
    simp only [List.length_cons]
    omega
  | case5 => cases h
  | case6 =>
    rename_i ih
    obtain ⟨others, run, rfl⟩ := map_ok h
    have le := ih run
    simp only [List.length_cons]
    omega
  | case7 => cases h; simp

theorem length_word? {text : List Char} {position : Nat} {word : Word}
    (h : word? text position = some (.ok word)) : word.letters.length ≤ word.extent := by
  unfold word? at h
  split at h
  · cases h
  · split at h
    · exact length_escapedWord (Option.some.inj h)
    split at h
    · dsimp only at h
      split at h
      · obtain ⟨others, run, rfl⟩ := map_ok (Option.some.inj h)
        have le := length_escapedWord run
        simp only [List.length_append]
        omega
      · cases h
        exact Nat.le_refl _
    · cases h

/-- What is read as a word consists of the letters of names. -/
theorem word?_letters {text : List Char} {position : Nat} {word : Word}
    (h : word? text position = some (.ok word)) : ∀ c ∈ word.letters, isNamePart c = true := by
  unfold word? at h
  split at h
  · cases h
  · rename_i c rest
    split at h
    · exact escapedWord_letters (Option.some.inj h)
    split at h
    · dsimp only at h
      split at h
      · obtain ⟨others, run, rfl⟩ := map_ok (Option.some.inj h)
        intro c mem
        rcases List.mem_append.mp mem with mem | mem
        · exact List.mem_takeWhile_imp mem
        · exact escapedWord_letters run c mem
      · cases h
        intro c mem
        exact List.mem_takeWhile_imp mem
    · cases h

/-! ## Tokens -/

/-- A lexeme that takes some characters from a position on. -/
theorem proper_of_extent {token : Token} {position extent : Nat} {newline : Bool}
    (word : ∀ text escaped, token = .word text escaped →
      IsWord text ∧ text.toList.length ≤ extent)
    (string : ∀ value, token = .string value → 0 < extent) :
    Lexeme.Proper ⟨token, ⟨position, position + extent⟩, newline⟩ where
  ordered := Nat.le_add_right _ _
  word text escaped is := (word text escaped is).1
  extent text escaped is := Nat.add_le_add_left (word text escaped is).2 _
  string value is := Nat.lt_add_of_pos_right (string value is)

theorem string_proper (quote : Char) (inner text : List Char) (position : Nat) (newline : Bool) :
    (string quote inner text position newline).lexeme.Proper := by
  unfold string
  split
  · exact proper_of_extent (by simp) (by simp)
  · split
    · exact proper_of_extent (by simp) (by simp)
    · exact proper_of_extent (by simp) (by simp)

theorem chunk_proper (text : List Char) (position : Nat) (newline : Bool) :
    (chunk text position newline).lexeme.Proper := by
  unfold chunk
  dsimp only
  split
  · exact proper_of_extent (by simp) (by simp)
  · exact proper_of_extent (by simp) (by simp)

theorem regex_proper (text : List Char) (position : Nat) (newline : Bool) :
    (regex text position newline).lexeme.Proper := by
  unfold regex
  dsimp only
  split
  · exact proper_of_extent (by simp) (by simp)
  · split
    · exact proper_of_extent (by simp) (by simp)
    · exact proper_of_extent (by simp) (by simp)

theorem token_proper (text : List Char) (position : Nat) (newline : Bool) :
    (token text position newline).lexeme.Proper := by
  unfold token
  split
  · exact proper_of_extent (by simp) (by simp)
  split
  · exact proper_of_extent (by simp) (by simp)
  · rename_i word read
    refine proper_of_extent (fun text escaped is => ?_) (by simp)
    cases is
    rw [IsWord, String.toList_ofList]
    exact ⟨word?_letters read, length_word? read⟩
  split
  · exact string_proper _ _ _ _ _
  split
  · exact chunk_proper _ _ _
  split
  · split
    · exact proper_of_extent (by simp) (by simp)
    · exact proper_of_extent (by simp) (by simp)
  split
  · split
    · exact proper_of_extent (by simp) (by simp)
    · exact proper_of_extent (by simp) (by simp)
    · exact proper_of_extent (by simp) (by simp)
  split
  · exact proper_of_extent (by simp) (by simp)
  · exact proper_of_extent (by simp) (by simp)

theorem chunk_start (text : List Char) (position : Nat) (newline : Bool) :
    (chunk text position newline).lexeme.span.start = position := by
  unfold chunk
  grind [taken, broken, Scanned.blame]

/-- A token begins where the text begins. -/
theorem token_start (text : List Char) (position : Nat) (newline : Bool) :
    (token text position newline).lexeme.span.start = position := by
  unfold token string
  grind [taken, broken, Scanned.blame, chunk_start]

/-! ## Blanks and comments -/

/-- Passing over blanks and comments leads on. -/
theorem le_skip_position (gap : Gap) (comments : Comments) (newline : Bool) (text : List Char)
    (position : Nat) : position ≤ (skip gap comments newline text position).position := by
  fun_induction skip gap comments newline text position
  all_goals first
    | exact Nat.le_refl _
    | omega

/-- A comment that does not end has been met on the way, unless it has begun before. -/
theorem le_skip_unclosed (gap : Gap) (comments : Comments) (newline : Bool) (text : List Char)
    (position start : Nat) (h : (skip gap comments newline text position).unclosed = some start) :
    gap = .block start ∨ position ≤ start := by
  fun_induction skip gap comments newline text position
  all_goals grind

/-- The next lexeme begins where the text begins or behind that. -/
theorem le_lexeme_start (text : List Char) (position : Nat) (newline : Bool) :
    position ≤ (lexeme text position newline).lexeme.span.start := by
  unfold lexeme
  dsimp only
  split
  · rename_i start unclosed
    rcases le_skip_unclosed _ _ _ _ _ _ unclosed with gap | le
    · cases gap
    · exact le
  · rw [token_start]
    exact le_skip_position _ _ _ _ _

/-- The next lexeme is proper. -/
theorem lexeme_proper (text : List Char) (position : Nat) (newline : Bool) :
    (lexeme text position newline).lexeme.Proper := by
  unfold lexeme
  dsimp only
  split
  · exact proper_of_extent (by simp) (by simp)
  · exact token_proper _ _ _

end Scan

end ModuleBundler.Script

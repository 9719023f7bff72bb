/-
# ModuleBundler.Proofs.Script.Literals — texts and numbers that are written are read back.

A text between double quotes is read as the string that it was written for, whatever characters the
string has, and the digits that a number is printed with are read as one number.  Both hold whatever
stands behind, as far as this is no part of the literal; so the lemmas on lexemes can be put together
along a longer text.
-/
import ModuleBundler.Script.Scan
import ModuleBundler.Text.Quoted

namespace ModuleBundler.Script

open Text

namespace Literal

/-! ## How one character is written -/

/-- The letters of short escapes, with the codes of the characters that they stand for. -/
def shortEscapes : List (Char × Nat) :=
  [('"', 34), ('\\', 92), ('n', 10), ('r', 13), ('t', 9), ('b', 8), ('f', 12)]

/-- The ways in which a character is written between double quotes. -/
inductive Spelling (c : Char) : List Char → Prop
  | short {letter : Char} (mem : (letter, c.toNat) ∈ shortEscapes) : Spelling c ['\\', letter]
  | control (low : c.toNat < 32) :
      Spelling c ['\\', 'u', '0', '0', hexDigit (c.toNat / 16), hexDigit (c.toNat % 16)]
  | plain (quote : c ≠ '"') (backslash : c ≠ '\\') (feed : c ≠ '\n') (carriage : c ≠ '\r') :
      Spelling c [c]

theorem spelling_quotedChar (c : Char) : Spelling c (quotedChar c) := by
  unfold quotedChar
  by_cases quote : c = '"'
  · rw [if_pos quote, quote]
    exact .short (by decide)
  by_cases backslash : c = '\\'
  · rw [if_neg quote, if_pos backslash, backslash]
    exact .short (by decide)
  by_cases feed : c = '\n'
  · rw [if_neg quote, if_neg backslash, if_pos feed, feed]
    exact .short (by decide)
  by_cases carriage : c = '\r'
  · rw [if_neg quote, if_neg backslash, if_neg feed, if_pos carriage, carriage]
    exact .short (by decide)
  by_cases tab : c = '\t'
  · rw [if_neg quote, if_neg backslash, if_neg feed, if_neg carriage, if_pos tab, tab]
    exact .short (by decide)
  rw [if_neg quote, if_neg backslash, if_neg feed, if_neg carriage, if_neg tab]
  split
  · rename_i backspace
    exact .short (by rw [backspace]; decide)
  split
  · rename_i formFeed
    exact .short (by rw [formFeed]; decide)
  split
  · rename_i low
    exact .control low
  · exact .plain quote backslash feed carriage

/-- What a hexadecimal digit is: it has its value, and nothing in a string depends on it. -/
theorem hexDigit_digit : ∀ n < 16, hexValue? (hexDigit n) = some n ∧ hexDigit n ≠ '"' ∧
    hexDigit n ≠ '\\' ∧ hexDigit n ≠ '\n' ∧ hexDigit n ≠ '\r' := by
  decide

theorem escape?_of_mem {letter : Char} {code : Nat} (mem : (letter, code) ∈ shortEscapes)
    (rest : List Char) : escape? true (letter :: rest) = some (some code, 1) := by
  simp only [shortEscapes, List.mem_cons, List.not_mem_nil, or_false, Prod.mk.injEq] at mem
  rcases mem with ⟨rfl, rfl⟩ | ⟨rfl, rfl⟩ | ⟨rfl, rfl⟩ | ⟨rfl, rfl⟩ | ⟨rfl, rfl⟩ | ⟨rfl, rfl⟩ |
    ⟨rfl, rfl⟩
  all_goals rfl

theorem escape?_control {n : Nat} (low : n < 32) (rest : List Char) :
    escape? true ('u' :: '0' :: '0' :: hexDigit (n / 16) :: hexDigit (n % 16) :: rest) =
      some (some n, 5) := by
  have high := (hexDigit_digit (n / 16) (by omega)).1
  have digit := (hexDigit_digit (n % 16) (by omega)).1
  have value : n / 16 * 16 + n % 16 = n := by omega
  show ((hexValue? (hexDigit (n / 16))).bind fun c => (hexValue? (hexDigit (n % 16))).bind fun d =>
    some (((0 * 16 + 0) * 16 + c) * 16 + d, 5)).map _ = _
  rw [high, digit]
  simp [value]

/-- A character that stands for itself in a string. -/
theorem stringExtent?_plain {c : Char} (quote : c ≠ '"') (backslash : c ≠ '\\') (feed : c ≠ '\n')
    (carriage : c ≠ '\r') (rest : List Char) :
    stringExtent? '"' (c :: rest) = (stringExtent? '"' rest).map (· + 1) := by
  simp [stringExtent?, quote, backslash, feed, carriage]

section

variable {c : Char} {letters : List Char}

theorem Spelling.length_pos (spelling : Spelling c letters) : 0 < letters.length := by
  cases spelling <;> simp

/-- No character ends a string. -/
theorem Spelling.stringExtent? (spelling : Spelling c letters) (rest : List Char) :
    Literal.stringExtent? '"' (letters ++ rest) =
      (Literal.stringExtent? '"' rest).map (· + letters.length) := by
  cases spelling with
  | @short letter mem =>
    have isLetter : letter ≠ '\r' := by
      rintro rfl
      simp [shortEscapes] at mem
    simp [Literal.stringExtent?, isLetter]
  | control low =>
    obtain ⟨-, q₁, b₁, f₁, r₁⟩ := hexDigit_digit (c.toNat / 16) (by omega)
    obtain ⟨-, q₂, b₂, f₂, r₂⟩ := hexDigit_digit (c.toNat % 16) (by omega)
    have zero : ∀ text, Literal.stringExtent? '"' ('0' :: text) =
        (Literal.stringExtent? '"' text).map (· + 1) :=
      stringExtent?_plain (by decide) (by decide) (by decide) (by decide)
    show (Literal.stringExtent? '"' ('0' :: '0' :: hexDigit (c.toNat / 16) ::
      hexDigit (c.toNat % 16) :: rest)).map (· + 2) = _
    rw [zero, zero, stringExtent?_plain q₁ b₁ f₁ r₁, stringExtent?_plain q₂ b₂ f₂ r₂]
    simp [Function.comp_def]
  | plain quote backslash feed carriage =>
    exact stringExtent?_plain quote backslash feed carriage rest

/-- Every character is read as what it is. -/
theorem Spelling.codes (spelling : Spelling c letters) (steps position : Nat) (rest : List Char) :
    Literal.codes true (steps + 1) position (letters ++ rest) = do
      let codes ← Literal.codes true steps (position + letters.length) rest
      return c.toNat :: codes := by
  cases spelling with
  | short mem =>
    simp only [List.cons_append, List.nil_append, Literal.codes, escape?_of_mem mem]
    rfl
  | control low =>
    simp only [List.cons_append, List.nil_append, Literal.codes, escape?_control low]
    rfl
  | plain quote backslash feed carriage =>
    simp only [List.cons_append, List.nil_append, Literal.codes]
    rfl

end

/-! ## Strings -/

/-- A text between double quotes reaches up to the quote that was written behind it. -/
theorem stringExtent?_quoted (cs rest : List Char) :
    stringExtent? '"' (cs.flatMap quotedChar ++ '"' :: rest) =
      some (cs.flatMap quotedChar).length := by
  induction cs with
  | nil => simp [stringExtent?]
  | cons c cs ih =>
    rw [List.flatMap_cons, List.append_assoc, (spelling_quotedChar c).stringExtent?, ih]
    simp [Nat.add_comm]

theorem codes_quoted (cs : List Char) {steps : Nat} (enough : cs.length ≤ steps) (position : Nat) :
    codes true steps position (cs.flatMap quotedChar) = .ok (cs.map Char.toNat) := by
  induction cs generalizing steps position with
  | nil => simp [codes]
  | cons c cs ih =>
    obtain ⟨fewer, rfl⟩ : ∃ fewer, steps = fewer + 1 :=
      Nat.exists_eq_add_one_of_ne_zero (by rw [List.length_cons] at enough; omega)
    rw [List.flatMap_cons, (spelling_quotedChar c).codes, ih (Nat.le_of_succ_le_succ enough)]
    rfl

/-- No character is half of a pair. -/
theorem not_surrogate (c : Char) : ¬ (0xD800 ≤ c.toNat ∧ c.toNat < 0xE000) := by
  have valid : c.toNat < 0xD800 ∨ 0xDFFF < c.toNat ∧ c.toNat < 0x110000 := c.valid
  omega

theorem joinSurrogates_toNat (cs : List Char) : joinSurrogates (cs.map Char.toNat) = cs := by
  have single (c : Char) : joinSurrogates.single c.toNat = c := by
    rw [joinSurrogates.single, if_neg (not_surrogate c), Char.ofNat_toNat]
  induction cs with
  | nil => rfl
  | cons c cs ih =>
    cases cs with
    | nil => exact congrArg (· :: []) (single c)
    | cons d cs =>
      have apart : ¬ (0xD800 ≤ c.toNat ∧ c.toNat < 0xDC00 ∧ 0xDC00 ≤ d.toNat ∧
          d.toNat < 0xE000) := by
        have := not_surrogate c
        omega
      rw [List.map_cons, List.map_cons, joinSurrogates, if_neg apart, single]
      exact congrArg (c :: ·) ih

theorem length_le_quoted (cs : List Char) : cs.length ≤ (cs.flatMap quotedChar).length := by
  induction cs with
  | nil => exact Nat.le_refl 0
  | cons c cs ih =>
    have written := (spelling_quotedChar c).length_pos
    rw [List.flatMap_cons, List.length_append, List.length_cons]
    omega

/-- A text between double quotes is the string that it was written for. -/
theorem value_quoted (position : Nat) (cs : List Char) :
    value position (cs.flatMap quotedChar) = .ok (String.ofList cs) := by
  rw [value, codes_quoted cs (length_le_quoted cs)]
  exact congrArg (fun chars => Except.ok (String.ofList chars)) (joinSurrogates_toNat cs)

/-! ## Numbers -/

/-- The characters that stand behind a number in lists and objects. -/
def Closing (c : Char) : Prop :=
  c ∈ [',', ':', '}', ']']

instance (c : Char) : Decidable (Closing c) :=
  inferInstanceAs (Decidable (c ∈ [',', ':', '}', ']']))

theorem Closing.not_part {c : Char} (closing : Closing c) :
    c.isDigit = false ∧ isNameStart c = false ∧ isNamePart c = false ∧ c ≠ '_' ∧ c ≠ 'n' ∧
      c ≠ '.' ∧ c ≠ 'e' ∧ c ≠ 'E' ∧ c ≠ '\\' := by
  simp only [Closing, List.mem_cons, List.not_mem_nil, or_false] at closing
  rcases closing with rfl | rfl | rfl | rfl
  all_goals decide

theorem digitExtent?_digits (run : DigitRun) (placed : run ≠ .separator) {digits : List Char}
    (isDigit : ∀ d ∈ digits, d.isDigit = true) {c : Char} (closing : Closing c)
    (rest : List Char) :
    digitExtent? Char.isDigit run (digits ++ c :: rest) = some digits.length := by
  induction digits generalizing run with
  | nil =>
    obtain ⟨notDigit, -, -, separator, -⟩ := closing.not_part
    simp [digitExtent?, notDigit, separator, placed]
  | cons d digits ih =>
    obtain ⟨first, others⟩ := List.forall_mem_cons.mp isDigit
    have step := ih .digit nofun others
    simp [digitExtent?, first, step]

theorem fractionExtent?_closing {c : Char} (closing : Closing c) (rest : List Char) :
    fractionExtent? (c :: rest) = some 0 := by
  simp only [Closing, List.mem_cons, List.not_mem_nil, or_false] at closing
  rcases closing with rfl | rfl | rfl | rfl
  all_goals rfl

/-- No number but nought is printed with a leading nought. -/
theorem head?_toDigits {n : Nat} (pos : 0 < n) : (Nat.toDigits 10 n).head? ≠ some '0' := by
  induction n using Nat.strongRecOn with
  | ind n ih =>
    by_cases small : n < 10
    · rw [Nat.toDigits_of_lt_base small]
      have digits : ∀ n < 10, 0 < n → [n.digitChar].head? ≠ some '0' := by decide
      exact digits n small pos
    · rw [Nat.toDigits_of_base_le (by decide) (Nat.le_of_not_lt small)]
      have leading := ih (n / 10) (by omega) (by omega)
      obtain ⟨d, digits, split⟩ :=
        List.exists_cons_of_ne_nil (Nat.toDigits_ne_nil (n := n / 10) (b := 10))
      rw [split] at leading ⊢
      exact leading

/-- The digits that a number is printed with are all of the number. -/
theorem numberExtent?_printed (n : Nat) {c : Char} (closing : Closing c) (rest : List Char) :
    numberExtent? (Nat.toDigits 10 n ++ c :: rest) = some (Nat.toDigits 10 n).length := by
  obtain ⟨notDigit, notStart, -, -, big, -, -, -, backslash⟩ := closing.not_part
  have core : numberCore? (Nat.toDigits 10 n ++ c :: rest) = some (Nat.toDigits 10 n).length := by
    rcases Nat.eq_zero_or_pos n with rfl | pos
    · simp only [Closing, List.mem_cons, List.not_mem_nil, or_false] at closing
      rcases closing with rfl | rfl | rfl | rfl
      all_goals rfl
    · have digits : ∀ d ∈ Nat.toDigits 10 n, d.isDigit = true := fun d mem =>
        Nat.isDigit_of_mem_toDigits (by decide) (by decide) mem
      have whole := digitExtent?_digits .start nofun digits closing rest
      obtain ⟨d, others, split⟩ :=
        List.exists_cons_of_ne_nil (Nat.toDigits_ne_nil (n := n) (b := 10))
      have leading : d ≠ '0' := fun same => head?_toDigits pos (by rw [split, same]; rfl)
      rw [split, List.cons_append] at whole ⊢
      simp [numberCore?, leading, whole, fractionExtent?_closing closing, big]
  simp [numberExtent?, core, notStart, notDigit, backslash]

/-! ## Lists -/

/-- A list has no more items than its text has characters, but for one. -/
theorem length_le_intercalate (separator : List Char) (pos : 0 < separator.length)
    (items : List (List Char)) : items.length ≤ (separator.intercalate items).length + 1 := by
  induction items with
  | nil => exact Nat.zero_le _
  | cons item items ih =>
    cases items with
    | nil => simp
    | cons second items =>
      rw [List.intercalate_cons_cons, List.length_append, List.length_append]
      simp only [List.length_cons] at ih ⊢
      omega

end Literal

namespace Scan

/-! ## Tokens -/

/-- A text between double quotes is one token. -/
theorem token_quoted (s : String) (rest : List Char) (position : Nat) (newline : Bool) :
    token (quotedChars s ++ rest) position newline =
      taken (.string s) (quotedChars s).length (quotedChars s ++ rest) position newline := by
  have extent := Literal.stringExtent?_quoted s.toList rest
  have value := Literal.value_quoted (position + 1) s.toList
  rw [String.ofList_toList] at value
  have inner : quotedChars s ++ rest = '"' :: (s.toList.flatMap quotedChar ++ '"' :: rest) := by
    simp [quotedChars]
  have opens : token ('"' :: (s.toList.flatMap quotedChar ++ '"' :: rest)) position newline =
      string '"' (s.toList.flatMap quotedChar ++ '"' :: rest)
        ('"' :: (s.toList.flatMap quotedChar ++ '"' :: rest)) position newline := rfl
  have length : (quotedChars s).length = (s.toList.flatMap quotedChar).length + 2 := by
    simp [quotedChars]
  rw [inner, opens, string, extent, length]
  simp only [List.take_left, value]

/-- A word is one token, up to a character that is no part of it. -/
theorem token_word {first : Char} {letters : List Char} (start : isNameStart first = true)
    (plain : first ≠ '\\') (parts : (first :: letters).all isNamePart = true)
    {c : Char} (ends : isNamePart c = false ∧ c ≠ '\\') (rest : List Char) (position : Nat)
    (newline : Bool) : token (first :: (letters ++ c :: rest)) position newline =
      taken (.word (String.ofList (first :: letters)) false) (first :: letters).length
        (first :: (letters ++ c :: rest)) position newline := by
  have taken : (first :: (letters ++ c :: rest)).takeWhile isNamePart = first :: letters := by
    rw [← List.cons_append, List.takeWhile_append_of_pos (List.all_eq_true.mp parts),
      List.takeWhile_cons_of_neg (by simp [ends.1]), List.append_nil]
  have word : word? (first :: (letters ++ c :: rest)) position =
      some (.ok ⟨first :: letters, false, (first :: letters).length⟩) := by
    simp only [word?, plain, start, taken]
    simp [ends.2]
  simp only [token, word]

/-- What holds of all ten digits holds of every digit. -/
theorem of_isDigit {P : Char → Prop} (all : ∀ n < 10, P (Char.ofNat (n + 48))) {d : Char}
    (digit : d.isDigit = true) : P d := by
  obtain ⟨low, high⟩ : 48 ≤ d.toNat ∧ d.toNat ≤ 57 := by
    simpa [Char.isDigit, UInt32.le_iff_toNat_le] using digit
  have same : d.toNat - 48 + 48 = d.toNat := by omega
  have holds := all (d.toNat - 48) (by omega)
  rwa [same, Char.ofNat_toNat] at holds

/-- A digit begins neither a word nor a string. -/
theorem isDigit_not_start {d : Char} (digit : d.isDigit = true) :
    isNameStart d = false ∧ d ≠ '\\' ∧ d ≠ '"' ∧ d ≠ '\'' ∧ d ≠ '`' := by
  revert d
  apply of_isDigit
  decide

/-- So is a number, where a list or an object goes on behind it. -/
theorem token_printed (n : Nat) {c : Char} (closing : Literal.Closing c) (rest : List Char)
    (position : Nat) (newline : Bool) :
    token (Nat.toDigits 10 n ++ c :: rest) position newline =
      taken .number (Nat.toDigits 10 n).length (Nat.toDigits 10 n ++ c :: rest) position
        newline := by
  have extent := Literal.numberExtent?_printed n closing rest
  obtain ⟨d, others, split⟩ :=
    List.exists_cons_of_ne_nil (Nat.toDigits_ne_nil (n := n) (b := 10))
  have digit : d.isDigit = true :=
    Nat.isDigit_of_mem_toDigits (by decide) (by decide) (split ▸ List.mem_cons_self)
  obtain ⟨start, backslash, double, single, tick⟩ := isDigit_not_start digit
  rw [split, List.cons_append] at extent ⊢
  simp only [token, word?, start, backslash, double, single, tick, digit, extent]
  simp

end Scan

end ModuleBundler.Script

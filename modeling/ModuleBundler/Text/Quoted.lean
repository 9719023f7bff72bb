/-
# ModuleBundler.Text.Quoted — string literals that JSON and scripts both read.

`quoted s` stands between double quotes.  A quote, a backslash and the control characters below
the space are written as escapes; every other character stands for itself, so the text holds no
line feed whatever `s` holds.
-/

namespace ModuleBundler.Text

/-- The lower-case hexadecimal digit of a number below sixteen. -/
def hexDigit (n : Nat) : Char :=
  if n < 10 then Char.ofNat (n + 48) else Char.ofNat (n + 87)

/-- How one character is written between double quotes. -/
def quotedChar (c : Char) : List Char :=
  if c = '"' then ['\\', '"']
  else if c = '\\' then ['\\', '\\']
  else if c = '\n' then ['\\', 'n']
  else if c = '\r' then ['\\', 'r']
  else if c = '\t' then ['\\', 't']
  else if c.toNat = 8 then ['\\', 'b']
  else if c.toNat = 12 then ['\\', 'f']
  else if c.toNat < 32 then ['\\', 'u', '0', '0', hexDigit (c.toNat / 16), hexDigit (c.toNat % 16)]
  else [c]

/-- The characters of the literal that stands for `s`. -/
def quotedChars (s : String) : List Char :=
  '"' :: s.toList.flatMap quotedChar ++ ['"']

/-- The literal that stands for `s`. -/
def quoted (s : String) : String :=
  String.ofList (quotedChars s)

/-- No character is written with a line feed. -/
theorem newline_not_mem_quotedChar (c : Char) : '\n' ∉ quotedChar c := by
  unfold quotedChar
  split
  · simp
  split
  · simp
  split
  · simp
  split
  · simp
  split
  · simp
  split
  · simp
  split
  · simp
  split
  · rename_i h _ _ _ _ hc
    have digit : ∀ n < 16, '\n' ≠ hexDigit n := by decide
    have low : c.toNat / 16 < 16 := by omega
    have high : c.toNat % 16 < 16 := by omega
    simp [digit _ low, digit _ high]
  · rename_i h _ _ _ _ _
    simpa using fun e => h e.symm

/-- A literal stands on one line. -/
theorem newline_not_mem_quotedChars (s : String) : '\n' ∉ quotedChars s := by
  simp [quotedChars, newline_not_mem_quotedChar]

end ModuleBundler.Text

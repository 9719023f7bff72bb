/-
# ModuleBundler.Script.Literal — the extent and the meaning of literals.

For every kind of literal one function says how far it reaches, and, for strings, another what the
text between the quotes stands for.  Extents are counted in characters and found by recursion on
the text; escapes are read only after the extent is known.
-/
import ModuleBundler.Script.Character

namespace ModuleBundler.Script.Literal

/-! ## Escapes -/

/-- Reads hexadecimal digits up to a closing brace: the value, and how many characters that took.
There has to be a digit, and the value has to be a code point. -/
def bracedCode? : (text : List Char) → (value taken : Nat) → Option (Nat × Nat)
  | [], _, _ => none
  | c :: rest, value, taken =>
    if c = '}' then if taken = 0 then none else some (value, taken + 1)
    else
      match hexValue? c with
      | none => none
      | some digit =>
        let next := value * 16 + digit
        if next < 0x110000 then bracedCode? rest next (taken + 1) else none

/-- Reads the escape of a code point, from the letter behind the backslash on: four hexadecimal
digits or any number of them in braces. -/
def codeEscape? : List Char → Option (Nat × Nat)
  | 'u' :: '{' :: rest => (bracedCode? rest 0 0).map fun (value, taken) => (value, taken + 2)
  | 'u' :: a :: b :: c :: d :: _ => do
    let a ← hexValue? a
    let b ← hexValue? b
    let c ← hexValue? c
    let d ← hexValue? d
    return (((a * 16 + b) * 16 + c) * 16 + d, 5)
  | _ => none

/-- Reads an escape of up to three octal digits whose value stays below 256. -/
def octalEscape : List Char → Nat × Nat
  | a :: b :: c :: _ =>
    let x := a.toNat - 48
    let y := b.toNat - 48
    let z := c.toNat - 48
    if isOctalDigit b then
      if a ≤ '3' && isOctalDigit c then ((x * 8 + y) * 8 + z, 3) else (x * 8 + y, 2)
    else (x, 1)
  | [a, b] => if isOctalDigit b then ((a.toNat - 48) * 8 + (b.toNat - 48), 2) else (a.toNat - 48, 1)
  | [a] => (a.toNat - 48, 1)
  | [] => (0, 0)

/-- Reads one escape, from the character behind the backslash on: the code it stands for, if any,
and how many characters it takes.  Octal escapes are read only where `octal` allows them. -/
def escape? (octal : Bool) (text : List Char) : Option (Option Nat × Nat) :=
  match text with
  | [] => none
  | '\r' :: '\n' :: _ => some (none, 2)
  | 'u' :: _ => (codeEscape? text).map fun (value, taken) => (some value, taken)
  | 'x' :: a :: b :: _ => do
    let a ← hexValue? a
    let b ← hexValue? b
    return (some (a * 16 + b), 3)
  | 'x' :: _ => none
  | c :: rest =>
    if isLineEnd c then some (none, 1)
    else if c = 'n' then some (some 10, 1)
    else if c = 't' then some (some 9, 1)
    else if c = 'r' then some (some 13, 1)
    else if c = 'b' then some (some 8, 1)
    else if c = 'f' then some (some 12, 1)
    else if c = 'v' then some (some 11, 1)
    else if c.isDigit then
      if c = '0' && (rest.head?.map Char.isDigit) != some true then some (some 0, 1)
      else if octal then
        if isOctalDigit c then
          let (value, taken) := octalEscape text
          some (some value, taken)
        else some (some c.toNat, 1)
      else none
    else some (some c.toNat, 1)

/-- Reads the text between the quotes, from a position on, as code units and code points, or finds
the position of the first malformed escape.  The steps are bounded by the length of the text. -/
def codes (octal : Bool) : (steps position : Nat) → List Char → Except Nat (List Nat)
  | _, _, [] => .ok []
  | 0, position, _ => .error position
  | steps + 1, position, '\\' :: rest =>
    match escape? octal rest with
    | none => .error position
    | some (code, taken) => do
      let codes ← codes octal steps (position + taken + 1) (rest.drop taken)
      return code.toList ++ codes
  | steps + 1, position, c :: rest => do
    let codes ← codes octal steps (position + 1) rest
    return c.toNat :: codes

/-- Joins each pair of surrogates to the character it encodes; a surrogate that stands alone
becomes the replacement character. -/
def joinSurrogates : List Nat → List Char
  | [] => []
  | high :: low :: rest =>
    if 0xD800 ≤ high ∧ high < 0xDC00 ∧ 0xDC00 ≤ low ∧ low < 0xE000 then
      Char.ofNat (0x10000 + (high - 0xD800) * 0x400 + (low - 0xDC00)) :: joinSurrogates rest
    else single high :: joinSurrogates (low :: rest)
  | [code] => [single code]
where
  single (code : Nat) : Char :=
    if 0xD800 ≤ code ∧ code < 0xE000 then Char.ofNat 0xFFFD else Char.ofNat code

/-- What the text between the quotes of a string stands for; the text begins at a position, and an
error is the position of a malformed escape. -/
def value (position : Nat) (inner : List Char) : Except Nat String := do
  let codes ← codes true inner.length position inner
  return String.ofList (joinSurrogates codes)

/-- Whether the escapes of a template chunk are well formed. -/
def validChunk (inner : List Char) : Bool :=
  (codes false inner.length 0 inner).toOption.isSome

/-! ## Extents -/

/-- How many characters stand before the quote that closes a string; `none` where the line or the
text ends first. -/
def stringExtent? (quote : Char) : List Char → Option Nat
  | [] => none
  | '\\' :: '\r' :: '\n' :: rest => (stringExtent? quote rest).map (· + 3)
  | '\\' :: _ :: rest => (stringExtent? quote rest).map (· + 2)
  | c :: rest =>
    if c = quote then some 0
    else if c = '\n' ∨ c = '\r' then none
    else (stringExtent? quote rest).map (· + 1)

/-- How many characters of a template stand before its end or its next substitution, and which of
the two it is (`true` for the end). -/
def chunkExtent? : List Char → Option (Nat × Bool)
  | [] => none
  | '`' :: _ => some (0, true)
  | '$' :: '{' :: _ => some (0, false)
  | '\\' :: _ :: rest => (chunkExtent? rest).map fun (n, last) => (n + 2, last)
  | _ :: rest => (chunkExtent? rest).map fun (n, last) => (n + 1, last)

/-- How many characters of a regular expression stand before the slash that closes it. -/
def regexExtent? : (inClass : Bool) → List Char → Option Nat
  | _, [] => none
  | inClass, '\\' :: c :: rest =>
    if isLineEnd c then none else (regexExtent? inClass rest).map (· + 2)
  | inClass, c :: rest =>
    if isLineEnd c then none
    else if c = '/' ∧ !inClass then some 0
    else
      let inClass := if c = '[' then true else if c = ']' then false else inClass
      (regexExtent? inClass rest).map (· + 1)

/-- The letters that may follow a regular expression, each at most once; two of them exclude each
other. -/
def validFlags (flags : List Char) : Bool :=
  flags.all (['d', 'g', 'i', 'm', 's', 'u', 'v', 'y'].contains ·) && decide flags.Nodup &&
    !(flags.contains 'u' && flags.contains 'v')

/-! ## Numbers -/

/-- Where a run of digits stands: at its start, behind a digit, or behind a separator. -/
inductive DigitRun
  | start
  | digit
  | separator
  deriving DecidableEq

/-- How many characters a run of digits takes, single separators between digits included; `none`
where a separator is misplaced. -/
def digitExtent? (isDigit : Char → Bool) : DigitRun → List Char → Option Nat
  | run, [] => if run = .separator then none else some 0
  | run, c :: rest =>
    if isDigit c then (digitExtent? isDigit .digit rest).map (· + 1)
    else if c = '_' then
      if run = .digit then (digitExtent? isDigit .separator rest).map (· + 1) else none
    else if run = .separator then none
    else some 0

/-- How many characters an exponent takes, nought where there is none. -/
def exponentExtent? (text : List Char) : Option Nat :=
  match text with
  | e :: rest =>
    if e = 'e' ∨ e = 'E' then
      let sign := match rest with
        | '+' :: _ => 1
        | '-' :: _ => 1
        | _ => 0
      match digitExtent? Char.isDigit .start (rest.drop sign) with
      | none => none
      | some 0 => none
      | some n => some (n + sign + 1)
    else some 0
  | [] => some 0

/-- How many characters the fraction and the exponent of a number take. -/
def fractionExtent? (text : List Char) : Option Nat := do
  let fraction ← match text with
    | '.' :: rest =>
      match rest.head? with
      | some '_' => some 1
      | _ => (digitExtent? Char.isDigit .start rest).map (· + 1)
    | _ => some 0
  let exponent ← exponentExtent? (text.drop fraction)
  return fraction + exponent

/-- How many characters a number in another base takes behind its two leading characters. -/
def basedExtent? (isDigit : Char → Bool) (text : List Char) : Option Nat :=
  match digitExtent? isDigit .start text with
  | none => none
  | some 0 => none
  | some n => some (if (text.drop n).head? = some 'n' then n + 1 else n)

/-- How many characters the number takes that a text begins with, before what follows is looked
at. -/
def numberCore? (text : List Char) : Option Nat :=
  match text with
  | '0' :: x :: rest =>
    if x = 'x' ∨ x = 'X' then (basedExtent? (fun c => (hexValue? c).isSome) rest).map (· + 2)
    else if x = 'o' ∨ x = 'O' then (basedExtent? isOctalDigit rest).map (· + 2)
    else if x = 'b' ∨ x = 'B' then (basedExtent? (fun c => c = '0' ∨ c = '1') rest).map (· + 2)
    else if x.isDigit then
      let run := (x :: rest).takeWhile Char.isDigit
      if run.all isOctalDigit then some (run.length + 1)
      else (fractionExtent? (rest.drop (run.length - 1))).map (· + (run.length + 1))
    else if x = '_' then none
    else if x = 'n' then some 2
    else (fractionExtent? (x :: rest)).map (· + 1)
  | _ => do
    let whole ← digitExtent? Char.isDigit .start text
    if (text.drop whole).head? = some 'n' then return whole + 1
    let fraction ← fractionExtent? (text.drop whole)
    return whole + fraction

/-- How many characters the number takes that a text begins with; no name, digit or escape may
follow directly. -/
def numberExtent? (text : List Char) : Option Nat := do
  let extent ← numberCore? text
  match (text.drop extent).head? with
  | none => return extent
  | some c => if isNameStart c || c.isDigit || c = '\\' then none else return extent

end ModuleBundler.Script.Literal

/-
# ModuleBundler.Script.Character — the character classes of a script.

Blanks, line ends, digits and the letters of names, as the lexical grammar of scripts names them.
A blank of a script is not a blank of plain text: the byte order mark is one here, and line ends
are a class of their own.
-/
import ModuleBundler.Text.IdentifierTable

namespace ModuleBundler.Script

/-- Line feed, carriage return and the two Unicode separators end a line. -/
def isLineEnd (c : Char) : Bool :=
  c == '\n' || c == '\r' || c.toNat == 0x2028 || c.toNat == 0x2029

/-- The characters, line ends apart, that only separate tokens. -/
def isSpace (c : Char) : Bool :=
  let n := c.toNat
  n == 0x20 || n == 0x9 || n == 0xB || n == 0xC || n == 0xA0 || n == 0xFEFF || n == 0x85 ||
    n == 0x1680 || (0x2000 ≤ n && n ≤ 0x200B) || n == 0x202F || n == 0x205F || n == 0x3000

/-- The ASCII letters, the dollar sign and the underscore. -/
def isPlainNameStart (c : Char) : Bool :=
  c.isAlpha || c == '$' || c == '_'

/-- The ASCII characters that may continue a name. -/
def isPlainNamePart (c : Char) : Bool :=
  isPlainNameStart c || c.isDigit

/-- Whether a name may begin with this character. -/
def isNameStart (c : Char) : Bool :=
  if c.toNat < 128 then isPlainNameStart c else Text.inRanges Text.startRanges c.toNat

/-- Whether a name may go on with this character; the two zero-width joiners may stand here. -/
def isNamePart (c : Char) : Bool :=
  if c.toNat < 128 then isPlainNamePart c
  else Text.inRanges Text.startRanges c.toNat || Text.inRanges Text.continueRanges c.toNat ||
    c.toNat == 0x200C || c.toNat == 0x200D

/-- The value of a hexadecimal digit. -/
def hexValue? (c : Char) : Option Nat :=
  if '0' ≤ c ∧ c ≤ '9' then some (c.toNat - 48)
  else if 'a' ≤ c ∧ c ≤ 'f' then some (c.toNat - 87)
  else if 'A' ≤ c ∧ c ≤ 'F' then some (c.toNat - 55)
  else none

def isOctalDigit (c : Char) : Bool :=
  '0' ≤ c && c ≤ '7'

/-- A property name that may follow a point: ASCII letters, digits, dollar signs and underscores,
not led by a digit. -/
def isPlainName (name : String) : Bool :=
  match name.toList with
  | [] => false
  | c :: cs => isPlainNameStart c && cs.all isPlainNamePart

end ModuleBundler.Script

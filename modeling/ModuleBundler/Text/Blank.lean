/-
# ModuleBundler.Text.Blank — blank characters and trimming.

`isBlank` is the Unicode property White_Space.  `trimmed` removes blanks at both ends and nothing
else, so it leaves every text alone that neither begins nor ends with one.
-/

namespace ModuleBundler.Text

/-- The Unicode property White_Space. -/
def isBlank (c : Char) : Bool :=
  let n := c.toNat
  (0x9 ≤ n && n ≤ 0xD) || n == 0x20 || n == 0x85 || n == 0xA0 || n == 0x1680 ||
    (0x2000 ≤ n && n ≤ 0x200A) || n == 0x2028 || n == 0x2029 || n == 0x202F || n == 0x205F ||
    n == 0x3000

/-- The characters without the blanks they end with. -/
def trimmedEnd (cs : List Char) : List Char :=
  (cs.reverse.dropWhile isBlank).reverse

/-- The characters without the blanks they begin and end with. -/
def trimmedChars (cs : List Char) : List Char :=
  trimmedEnd (cs.dropWhile isBlank)

/-- The text without the blanks it begins and ends with. -/
def trimmed (s : String) : String :=
  String.ofList (trimmedChars s.toList)

end ModuleBundler.Text

/-
# ModuleBundler.Conversion.Edit — replacing ranges of a text.

An edit replaces a range by other characters.  Edits made with `Edit.replacing` end in as many line
feeds as the range held, so the lines behind it keep their numbers.  `splice` makes all edits that
do not lie behind the start of an earlier one's end, and copies everything else once and in order.
-/
import ModuleBundler.Script.Token

namespace ModuleBundler.Conversion

open Script (Span)

/-- A range and the characters that take its place. -/
structure Edit where
  span : Span
  replacement : List Char
  deriving DecidableEq, Repr

namespace Edit

/-- The edit that puts a text into the place of a range and keeps the number of line feeds. -/
def replacing (text : List Char) (span : Span) (replacement : String) : Edit :=
  ⟨span, replacement.toList ++ List.replicate ((span.slice text).count '\n') '\n'⟩

/-- Puts an edit before the edits that begin behind it. -/
def insert (edit : Edit) : List Edit → List Edit
  | [] => [edit]
  | first :: edits =>
    if edit.span.start ≤ first.span.start then edit :: first :: edits
    else first :: insert edit edits

/-- Edits by the position where they begin; those that begin together keep their order. -/
def sorted (edits : List Edit) : List Edit :=
  edits.foldr insert []

end Edit

/-- Makes sorted edits in the part of a text that begins at a position. -/
def spliceFrom (position : Nat) (text : List Char) : List Edit → List Char
  | [] => text
  | edit :: edits =>
    if edit.span.start < position then spliceFrom position text edits
    else
      text.take (edit.span.start - position) ++ edit.replacement ++
        spliceFrom edit.span.stop (text.drop (edit.span.stop - position)) edits

/-- Makes edits in a text. -/
def splice (text : List Char) (edits : List Edit) : List Char :=
  spliceFrom 0 text (Edit.sorted edits)

/-- Without edits a text stays as it is. -/
theorem splice_nil (text : List Char) : splice text [] = text := rfl

end ModuleBundler.Conversion

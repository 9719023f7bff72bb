/-
# ModuleBundler.Text.Json — values of a data file, and how they are written.

The values that a manifest is made of.  Objects keep the order of their keys.  `pretty` writes a
value over several lines, two blanks deeper for each level; empty lists and objects stay on one
line.
-/
import ModuleBundler.Text.Quoted

namespace ModuleBundler.Text

/-- A value of a data file. -/
inductive Json
  | number (value : Nat)
  | text (value : String)
  | list (items : List Json)
  | object (fields : List (String × Json))
  deriving Repr

namespace Json

/-- A new line at a depth. -/
def newline (depth : Nat) : List Char :=
  '\n' :: List.replicate (2 * depth) ' '

mutual

/-- A value written over several lines, from a depth on. -/
def prettyChars (depth : Nat) : Json → List Char
  | .number value => (toString value).toList
  | .text value => quotedChars value
  | .list [] => ['[', ']']
  | .list items => '[' :: prettyItems (depth + 1) items ++ newline depth ++ [']']
  | .object [] => ['{', '}']
  | .object fields => '{' :: prettyFields (depth + 1) fields ++ newline depth ++ ['}']

/-- The items of a list, each on its own line. -/
def prettyItems (depth : Nat) : List Json → List Char
  | [] => []
  | [item] => newline depth ++ prettyChars depth item
  | item :: items => newline depth ++ prettyChars depth item ++ ',' :: prettyItems depth items

/-- The fields of an object, each on its own line. -/
def prettyFields (depth : Nat) : List (String × Json) → List Char
  | [] => []
  | [(key, value)] => newline depth ++ quotedChars key ++ ':' :: ' ' :: prettyChars depth value
  | (key, value) :: fields =>
    newline depth ++ quotedChars key ++ ':' :: ' ' :: prettyChars depth value ++
      ',' :: prettyFields depth fields

end

/-- A value written over several lines. -/
def pretty (value : Json) : String :=
  String.ofList (prettyChars 0 value)

end Json

end ModuleBundler.Text

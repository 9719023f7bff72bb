/-
# ModuleBundler.Compiler — from the text of a file to a module.

A compiler turns the path and the text of a file into a module.  The standard one takes data files
as they are, and converts everything else.  Another one reads plain lists of modules.
-/
import ModuleBundler.Error
import ModuleBundler.Conversion.Script
import ModuleBundler.Text.Blank

namespace ModuleBundler

/-- Turns the text of a file into a module. -/
abbrev Compiler := Path → String → Except BuildError CompiledModule

namespace Compiler

/-- The line of a position in a text, counted from one. -/
def lineOf (text : List Char) (position : Nat) : Nat :=
  (text.take position).count '\n' + 1

/-- Whether a path names a file of typed scripts, in which exports may repeat as far as reading
goes. -/
def isTyped (path : Path) : Bool :=
  match path.extension? with
  | some ext => ["ts", "mts", "cts", "tsx"].contains ext
  | none => false

/-- A data file: its text is the value of the module. -/
def data (source : String) : CompiledModule :=
  ⟨[], "module.exports = " ++ Text.trimmed source ++ ";"⟩

/-- The built-in compiler. -/
def standard : Compiler := fun path source =>
  if path.extension? == some "json" then .ok (data source)
  else
    let text := source.toList
    match Conversion.convert (isTyped path) text with
    | .ok compiled => .ok compiled
    | .error (.malformed error) =>
      .error (.parse path (lineOf text error.position) (.script error.fault))
    | .error (.repeatedExport name position) =>
      .error (.parse path (lineOf text position) (.repeatedExport name))

/-! ## Lists of modules -/

/-- The lines of a text, without their ends; a line end at the end of the text begins no line. -/
def linesOf : List Char → List (List Char)
  | [] => []
  | '\n' :: rest => [] :: linesOf rest
  | '\r' :: '\n' :: rest => [] :: linesOf rest
  | c :: rest => joinFirst c (linesOf rest)
where
  /-- Puts a character before the first line. -/
  joinFirst (c : Char) : List (List Char) → List (List Char)
    | [] => [[c]]
    | line :: lines => (c :: line) :: lines

/-- Reads lines that name modules, counted from a number on. -/
def listed (path : Path) : (number : Nat) → List (List Char) → Except BuildError (List String)
  | _, [] => .ok []
  | number, line :: lines =>
    if "syntax error".toList.isPrefixOf line then
      .error (.parse path number (.other "lines: bad line"))
    else do
      let others ← listed path (number + 1) lines
      return if "dep ".toList.isPrefixOf line
        then String.ofList (Text.trimmedChars (line.drop 4)) :: others
        else others

/-- A compiler of plain lists: every line `dep x` names the module `x`, and the text is the code. -/
def listing : Compiler := fun path source =>
  (listed path 1 (linesOf source.toList)).map fun specifiers => ⟨specifiers, source⟩

end Compiler

end ModuleBundler

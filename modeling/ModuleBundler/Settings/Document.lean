/-
# ModuleBundler.Settings.Document — the text of a settings file.

A settings file is a list of lines `key = value`.  Keys are bare or quoted; values are truth values
or lists of strings, which may stretch over several lines.  Strings are basic or literal, on one
line or on several, and a number sign begins a comment.  Settings have no other kinds of values and
no tables, so a text that holds any is refused here.
-/
import ModuleBundler.Script.Character

namespace ModuleBundler.Settings

/-- A value in a settings file. -/
inductive Value
  | flag (value : Bool)
  | texts (values : List String)
  deriving DecidableEq, Repr

namespace Document

/-- Blanks within a line. -/
def isInner (c : Char) : Bool :=
  c = ' ' || c = '\t'

/-- Control characters, which stand nowhere except as blanks and line ends. -/
def isControl (c : Char) : Bool :=
  (c.toNat < 32 && c != '\t') || c.toNat == 127

def skipInner (text : List Char) : List Char :=
  text.dropWhile isInner

/-- The end of a line at the front of a text: what stands behind it. -/
def lineEnd? : List Char → Option (List Char)
  | '\n' :: rest => some rest
  | '\r' :: '\n' :: rest => some rest
  | _ => none

/-- What stands behind a comment, if the text begins with a well-formed one or with none. -/
def skipComment : List Char → Option (List Char)
  | '#' :: rest =>
    let body := rest.takeWhile fun c => !isControl c
    some (rest.drop body.length)
  | text => some text

/-- Passes over blanks, comments and line ends; the steps are bounded by the length of the text. -/
def skipLines : (steps : Nat) → List Char → List Char
  | 0, text => text
  | steps + 1, text =>
    match skipInner text with
    | '#' :: rest => skipLines steps (rest.dropWhile fun c => !isControl c)
    | '\n' :: rest => skipLines steps rest
    | '\r' :: '\n' :: rest => skipLines steps rest
    | text => text

/-- The value of exactly so many hexadecimal digits. -/
def hex? : (count : Nat) → (value : Nat) → List Char → Option (Nat × List Char)
  | 0, value, text => some (value, text)
  | count + 1, value, c :: rest =>
    match Script.hexValue? c with
    | none => none
    | some digit => hex? count (value * 16 + digit) rest
  | _ + 1, _, [] => none

/-- The character of a code point, unless it is a surrogate or out of range. -/
def character? (code : Nat) : Option Char :=
  if code < 0xD800 ∨ (0xE000 ≤ code ∧ code < 0x110000) then some (Char.ofNat code) else none

/-- Reads an escape, behind the backslash. -/
def escape? : List Char → Option (Char × List Char)
  | 'b' :: rest => some (Char.ofNat 8, rest)
  | 't' :: rest => some ('\t', rest)
  | 'n' :: rest => some ('\n', rest)
  | 'f' :: rest => some (Char.ofNat 12, rest)
  | 'r' :: rest => some ('\r', rest)
  | 'e' :: rest => some (Char.ofNat 27, rest)
  | '"' :: rest => some ('"', rest)
  | '\\' :: rest => some ('\\', rest)
  | 'x' :: rest => coded 2 rest
  | 'u' :: rest => coded 4 rest
  | 'U' :: rest => coded 8 rest
  | _ => none
where
  coded (count : Nat) (text : List Char) : Option (Char × List Char) := do
    let (code, rest) ← hex? count 0 text
    let c ← character? code
    return (c, rest)

/-- Reads a basic string on one line, behind its opening quote. -/
def basic? : (steps : Nat) → List Char → Option (List Char × List Char)
  | 0, _ => none
  | _, [] => none
  | _, '"' :: rest => some ([], rest)
  | steps + 1, '\\' :: rest => do
    let (c, rest) ← escape? rest
    let (cs, rest) ← basic? steps rest
    return (c :: cs, rest)
  | steps + 1, c :: rest =>
    if isControl c then none
    else do
      let (cs, rest) ← basic? steps rest
      return (c :: cs, rest)

/-- Reads a literal string on one line, behind its opening quote. -/
def literal? : List Char → Option (List Char × List Char)
  | [] => none
  | '\'' :: rest => some ([], rest)
  | c :: rest =>
    if isControl c then none
    else do
      let (cs, rest) ← literal? rest
      return (c :: cs, rest)

/-- The end of a string on several lines, at the front of a text that begins with a quote: how many
quotes belong to the string, if it ends here. -/
def closing? (quote : Char) (text : List Char) : Option Nat :=
  let quotes := (text.takeWhile (· = quote)).length
  if quotes < 3 then none else some (min quotes 5 - 3)

/-- What stands behind blanks and line ends. -/
def skipGap : List Char → List Char
  | [] => []
  | '\n' :: rest => skipGap rest
  | '\r' :: '\n' :: rest => skipGap rest
  | c :: rest => if isInner c then skipGap rest else c :: rest

/-- What stands behind the blanks and line ends that a backslash at the end of a line passes
over. -/
def continued? (text : List Char) : Option (List Char) :=
  (lineEnd? (skipInner text)).map skipGap

/-- Reads a string on several lines, behind its opening quotes; only a basic one has escapes.  Its
line ends belong to it as they are. -/
def multiline? (quote : Char) : (steps : Nat) → List Char → Option (List Char × List Char)
  | 0, _ => none
  | _, [] => none
  | steps + 1, c :: rest =>
    if c = quote then
      match closing? quote (c :: rest) with
      | some inner => some (List.replicate inner quote, rest.drop (inner + 2))
      | none => do
        let (cs, rest) ← multiline? quote steps rest
        return (c :: cs, rest)
    else if c = '\\' ∧ quote = '"' then
      match continued? rest with
      | some rest => multiline? quote steps rest
      | none => do
        let (c, rest) ← escape? rest
        let (cs, rest) ← multiline? quote steps rest
        return (c :: cs, rest)
    else if isControl c ∧ (lineEnd? (c :: rest)).isNone then none
    else do
      let (cs, rest) ← multiline? quote steps rest
      return (c :: cs, rest)

/-- Text behind opening quotes, without a line end that follows them directly. -/
def afterQuotes (text : List Char) : List Char :=
  (lineEnd? text).getD text

/-- Reads a string. -/
def string? (text : List Char) : Option (String × List Char) :=
  let chars : Option (List Char × List Char) :=
    match text with
    | '"' :: '"' :: '"' :: rest => multiline? '"' text.length (afterQuotes rest)
    | '\'' :: '\'' :: '\'' :: rest => multiline? '\'' text.length (afterQuotes rest)
    | '"' :: rest => basic? text.length rest
    | '\'' :: rest => literal? rest
    | _ => none
  chars.map fun (cs, rest) => (String.ofList cs, rest)

/-- Characters of bare keys. -/
def isBare (c : Char) : Bool :=
  c.isAlphanum || c = '-' || c = '_'

/-- Reads a key; quoted keys stand on one line. -/
def key? (text : List Char) : Option (String × List Char) :=
  match text with
  | '"' :: rest => (basic? text.length rest).map fun (cs, rest) => (String.ofList cs, rest)
  | '\'' :: rest => (literal? rest).map fun (cs, rest) => (String.ofList cs, rest)
  | _ =>
    let bare := text.takeWhile isBare
    if bare.isEmpty then none else some (String.ofList bare, text.drop bare.length)

/-- Reads the strings of a list, behind its opening bracket. -/
def strings? : (steps : Nat) → List Char → Option (List String × List Char)
  | 0, _ => none
  | steps + 1, text =>
    match skipLines text.length text with
    | ']' :: rest => some ([], rest)
    | text => do
      let (first, rest) ← string? text
      match skipLines rest.length rest with
      | ']' :: rest => return ([first], rest)
      | ',' :: rest =>
        let (others, rest) ← strings? steps rest
        return (first :: others, rest)
      | _ => none

/-- Reads a value. -/
def value? (text : List Char) : Option (Value × List Char) :=
  match text with
  | 't' :: 'r' :: 'u' :: 'e' :: rest => some (.flag true, rest)
  | 'f' :: 'a' :: 'l' :: 's' :: 'e' :: rest => some (.flag false, rest)
  | '[' :: rest => (strings? text.length rest).map fun (items, rest) => (.texts items, rest)
  | _ => none

/-- Reads a key and its value up to the end of the line or the text. -/
def line? (text : List Char) : Option ((String × Value) × List Char) := do
  let (key, rest) ← key? text
  match skipInner rest with
  | '=' :: rest =>
    let (value, rest) ← value? (skipInner rest)
    let rest ← skipComment (skipInner rest)
    match rest with
    | [] => return ((key, value), [])
    | _ =>
      let rest ← lineEnd? rest
      return ((key, value), rest)
  | _ => none

/-- Reads all lines; the steps are bounded by the length of the text. -/
def lines? : (steps : Nat) → List Char → Option (List (String × Value))
  | 0, _ => none
  | steps + 1, text =>
    match skipLines text.length text with
    | [] => some []
    | text => do
      let (first, rest) ← line? text
      let others ← lines? steps rest
      return first :: others

/-- Reads a settings file, behind a byte order mark if there is one. -/
def read? (text : String) : Option (List (String × Value)) :=
  let text := text.toList
  let text := if text.head? = some (Char.ofNat 0xFEFF) then text.drop 1 else text
  lines? (text.length + 1) text

end Document

end ModuleBundler.Settings

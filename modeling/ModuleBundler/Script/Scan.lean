/-
# ModuleBundler.Script.Scan — one lexeme at a time.

The grammar asks for the next lexeme when it is ready for it, because what a slash or a closing
brace begins depends on what was read before.  `lexeme` reads a slash as a mark; where an operand
may stand, `regex` reads the same text again as a regular expression.  Likewise `chunk` goes on
with a template behind the brace that ends a substitution.

Every text begins with a lexeme: characters that are no token make a broken one, and what is wrong
with them is kept beside it.
-/
import ModuleBundler.Script.Literal
import ModuleBundler.Script.Token

namespace ModuleBundler.Script.Scan

/-- What is kept of comments: where the first one is, and where the first one begins that is in
the notation of pages. -/
structure Comments where
  first : Option Span
  page : Option Nat
  deriving DecidableEq, Repr

namespace Comments

def none : Comments :=
  ⟨.none, .none⟩

/-- Comments followed by others. -/
def append (comments others : Comments) : Comments :=
  ⟨comments.first <|> others.first, comments.page <|> others.page⟩

/-- Comments followed by one more. -/
def add (comments : Comments) (span : Span) (isPage : Bool) : Comments :=
  comments.append ⟨some span, if isPage then some span.start else .none⟩

end Comments

/-- A lexeme, with the text that it begins and the text behind it, and what was found on the way to
its end. -/
structure Scanned where
  lexeme : Lexeme
  here : List Char
  rest : List Char
  faults : List SyntaxError
  comments : Comments

/-- What stands between two tokens: plain blanks, a comment up to the end of the line, or a
comment between two marks, with the position where it began. -/
inductive Gap
  | blank
  | line (start : Nat) (isPage : Bool)
  | block (start : Nat)

/-- Where the text goes on behind blanks and comments; `unclosed` is the beginning of a comment that
does not end. -/
structure Passed where
  newline : Bool
  text : List Char
  position : Nat
  comments : Comments
  unclosed : Option Nat

/-- Passes over blanks and comments.  The arrows of old page comments begin a comment, the closing
one only at the start of a line. -/
def skip : (gap : Gap) → (comments : Comments) → (newline : Bool) → (text : List Char) →
    (position : Nat) → Passed
  | .blank, comments, newline, [], position => ⟨newline, [], position, comments, none⟩
  | .line start isPage, comments, newline, [], position =>
    ⟨newline, [], position, comments.add ⟨start, position⟩ isPage, none⟩
  | .block start, comments, newline, [], position => ⟨newline, [], position, comments, some start⟩
  | .line start isPage, comments, newline, c :: rest, position =>
    if isLineEnd c then
      skip .blank (comments.add ⟨start, position⟩ isPage) true rest (position + 1)
    else skip (.line start isPage) comments newline rest (position + 1)
  | .block start, comments, newline, '*' :: '/' :: rest, position =>
    skip .blank (comments.add ⟨start, position + 2⟩ false) newline rest (position + 2)
  | .block start, comments, newline, c :: rest, position =>
    skip (.block start) comments (newline || isLineEnd c) rest (position + 1)
  | .blank, comments, newline, '/' :: '/' :: rest, position =>
    skip (.line position false) comments newline rest (position + 2)
  | .blank, comments, newline, '/' :: '*' :: rest, position =>
    skip (.block position) comments newline rest (position + 2)
  | .blank, comments, newline, '<' :: '!' :: '-' :: '-' :: rest, position =>
    skip (.line position true) comments newline rest (position + 4)
  | .blank, comments, newline, '-' :: '-' :: '>' :: rest, position =>
    if newline then skip (.line position true) comments newline rest (position + 3)
    else ⟨newline, '-' :: '-' :: '>' :: rest, position, comments, none⟩
  | .blank, comments, newline, c :: rest, position =>
    if isLineEnd c then skip .blank comments true rest (position + 1)
    else if isSpace c then skip .blank comments newline rest (position + 1)
    else ⟨newline, c :: rest, position, comments, none⟩

/-- A word: its characters after escapes, whether there were any, and how many characters of the
text it takes. -/
structure Word where
  letters : List Char
  escaped : Bool
  extent : Nat

/-- Goes on with a word that has an escape in it; `first` where no letter has been read yet.  The
steps are bounded by the length of the text. -/
def escapedWord : (steps : Nat) → (first : Bool) → (text : List Char) → (position : Nat) →
    Except SyntaxError Word
  | 0, _, _, _ => .ok ⟨[], true, 0⟩
  | steps + 1, first, text, position =>
    let fits := if first then isNameStart else isNamePart
    match text with
    | [] => .ok ⟨[], true, 0⟩
    | '\\' :: rest =>
      match Literal.codeEscape? rest with
      | none => .error ⟨position, .invalidEscape⟩
      | some (code, taken) =>
        let c := Char.ofNat code
        if fits c then do
          let word ← escapedWord steps false (rest.drop taken) (position + taken + 1)
          return { word with letters := c :: word.letters, extent := word.extent + taken + 1 }
        else .error ⟨position, .invalidEscape⟩
    | c :: rest =>
      if fits c then do
        let word ← escapedWord steps false rest (position + 1)
        return { word with letters := c :: word.letters, extent := word.extent + 1 }
      else .ok ⟨[], true, 0⟩

/-- Reads the word that a text begins with, if its first character may begin one. -/
def word? (text : List Char) (position : Nat) : Option (Except SyntaxError Word) :=
  match text with
  | [] => none
  | c :: _ =>
    if c = '\\' then some (escapedWord text.length true text position)
    else if isNameStart c then
      let plain := text.takeWhile isNamePart
      let rest := text.drop plain.length
      if rest.head? = some '\\' then some do
        let word ← escapedWord rest.length false rest (position + plain.length)
        return { word with
          letters := plain ++ word.letters, extent := word.extent + plain.length }
      else some (.ok ⟨plain, false, plain.length⟩)
    else none

/-- The lexeme that takes the first `extent` characters of a text. -/
def taken (token : Token) (extent : Nat) (text : List Char) (position : Nat) (newline : Bool) :
    Scanned :=
  { lexeme := ⟨token, ⟨position, position + extent⟩, newline⟩
    here := text
    rest := text.drop extent
    faults := []
    comments := Comments.none }

/-- The same with something wrong in it. -/
def Scanned.blame (scanned : Scanned) (position : Nat) (fault : SyntaxFault) : Scanned :=
  { scanned with faults := [⟨position, fault⟩] }

/-- A broken lexeme that takes all that is left of a text. -/
def broken (fault : SyntaxError) (text : List Char) (position : Nat) (newline : Bool) : Scanned :=
  (taken .broken text.length text position newline).blame fault.position fault.fault

/-- Reads a string whose opening quote a text begins with. -/
def string (quote : Char) (inner text : List Char) (position : Nat) (newline : Bool) : Scanned :=
  match Literal.stringExtent? quote inner with
  | none => broken ⟨position, .unterminatedString⟩ text position newline
  | some extent =>
    match Literal.value (position + 1) (inner.take extent) with
    | .error escape =>
      (taken (.string "") (extent + 2) text position newline).blame escape .invalidEscape
    | .ok value => taken (.string value) (extent + 2) text position newline

/-- Reads a chunk of a template, from the backquote or the closing brace that a text begins with
up to the end of the template or the next substitution. -/
def chunk (text : List Char) (position : Nat) (newline : Bool) : Scanned :=
  let inner := text.drop 1
  match Literal.chunkExtent? inner with
  | none => broken ⟨position, .unterminatedTemplate⟩ text position newline
  | some (extent, last) =>
    taken (.chunk last (Literal.validChunk (inner.take extent)))
      (extent + if last then 2 else 3) text position newline

/-- Reads a regular expression, from the slash that a text begins with. -/
def regex (text : List Char) (position : Nat) (newline : Bool) : Scanned :=
  let inner := text.drop 1
  match Literal.regexExtent? false inner with
  | none =>
    (taken .regex text.length text position newline).blame position .unterminatedRegex
  | some extent =>
    let flags := (inner.drop (extent + 1)).takeWhile isPlainNamePart
    let scanned := taken .regex (extent + 2 + flags.length) text position newline
    if Literal.validFlags flags then scanned else scanned.blame position .invalidRegexFlags

/-- Reads the token that a text begins with. -/
def token (text : List Char) (position : Nat) (newline : Bool) : Scanned :=
  match text with
  | [] => taken .done 0 text position newline
  | c :: rest =>
    match word? text position with
    | some (.error fault) => broken fault text position newline
    | some (.ok word) =>
      taken (.word (String.ofList word.letters) word.escaped) word.extent text position newline
    | none =>
      if c = '"' ∨ c = '\'' then string c rest text position newline
      else if c = '`' then chunk text position newline
      else if c.isDigit ∨ (c = '.' ∧ (rest.head?.map Char.isDigit) = some true) then
        match Literal.numberExtent? text with
        | none => broken ⟨position, .invalidNumber⟩ text position newline
        | some extent => taken .number extent text position newline
      else if c = '#' then
        match word? rest (position + 1) with
        | none => broken ⟨position, .invalidCharacter⟩ text position newline
        | some (.error fault) => broken fault text position newline
        | some (.ok word) =>
          taken (.privateName (String.ofList word.letters)) (word.extent + 1) text position newline
      else
        match Mark.read? text with
        | none => broken ⟨position, .invalidCharacter⟩ text position newline
        | some (mark, extent) => taken (.mark mark) extent text position newline

/-- Reads the next lexeme of a text that stands at a position; `newline` where a line has ended
before it. -/
def lexeme (text : List Char) (position : Nat) (newline : Bool) : Scanned :=
  let passed := skip .blank Comments.none newline text position
  let scanned :=
    match passed.unclosed with
    | some start =>
      (taken .broken 0 [] start passed.newline).blame start .unterminatedComment
    | none => token passed.text passed.position passed.newline
  { scanned with comments := passed.comments }

end ModuleBundler.Script.Scan

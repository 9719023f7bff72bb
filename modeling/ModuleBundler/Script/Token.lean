/-
# ModuleBundler.Script.Token — the tokens of a script.

Every token is a word, a literal, a chunk of a template or a mark of punctuation.  Keywords are
words: whether a word is one depends on where it stands, which the grammar decides.  A `Lexeme` is
a token together with the range of the text it was read from.
-/

namespace ModuleBundler.Script

/-- A range of character positions: from `start` up to, and not with, `stop`. -/
structure Span where
  start : Nat
  stop : Nat
  deriving DecidableEq, Repr

namespace Span

/-- The piece of a text that lies in the range. -/
def slice (span : Span) (text : List Char) : List Char :=
  (text.drop span.start).take (span.stop - span.start)

end Span

/-- The marks of punctuation. -/
inductive Mark
  | openBrace | closeBrace | openParen | closeParen | openBracket | closeBracket
  | dot | ellipsis | semicolon | comma | question | optionalDot | colon | arrow | at
  | less | greater | lessEqual | greaterEqual
  | equal | notEqual | strictEqual | strictNotEqual
  | plus | minus | star | slash | percent | power | increment | decrement
  | shiftLeft | shiftRight | shiftRightUnsigned
  | bitAnd | bitOr | bitXor | bitNot | not | and | or | coalesce
  | assign | plusAssign | minusAssign | starAssign | slashAssign | percentAssign | powerAssign
  | shiftLeftAssign | shiftRightAssign | shiftRightUnsignedAssign
  | bitAndAssign | bitOrAssign | bitXorAssign | andAssign | orAssign | coalesceAssign
  deriving DecidableEq, Repr

namespace Mark

/-- The marks with their spellings; a mark stands before every other that its spelling begins
with, so the first that fits is the longest. -/
def table : List (List Char × Mark) :=
  [ (['>', '>', '>', '='], shiftRightUnsignedAssign),
    (['.', '.', '.'], ellipsis), (['=', '=', '='], strictEqual),
    (['!', '=', '='], strictNotEqual), (['*', '*', '='], powerAssign),
    (['<', '<', '='], shiftLeftAssign), (['>', '>', '='], shiftRightAssign),
    (['>', '>', '>'], shiftRightUnsigned), (['&', '&', '='], andAssign),
    (['|', '|', '='], orAssign), (['?', '?', '='], coalesceAssign),
    (['=', '>'], arrow), (['=', '='], equal), (['!', '='], notEqual), (['<', '='], lessEqual),
    (['>', '='], greaterEqual), (['*', '*'], power), (['+', '+'], increment),
    (['-', '-'], decrement), (['<', '<'], shiftLeft), (['>', '>'], shiftRight),
    (['&', '&'], and), (['|', '|'], or), (['?', '?'], coalesce), (['?', '.'], optionalDot),
    (['+', '='], plusAssign), (['-', '='], minusAssign), (['*', '='], starAssign),
    (['/', '='], slashAssign), (['%', '='], percentAssign), (['&', '='], bitAndAssign),
    (['|', '='], bitOrAssign), (['^', '='], bitXorAssign),
    (['('], openParen), ([')'], closeParen), (['.'], dot), ([','], comma), ([';'], semicolon),
    (['{'], openBrace), (['}'], closeBrace), (['['], openBracket), ([']'], closeBracket),
    (['='], assign), ([':'], colon), (['?'], question), (['<'], less), (['>'], greater),
    (['+'], plus), (['-'], minus), (['*'], star), (['/'], slash), (['%'], percent),
    (['&'], bitAnd), (['|'], bitOr), (['^'], bitXor), (['!'], not), (['~'], bitNot),
    (['@'], Mark.at) ]

/-- The longest mark that a text begins with, and how many characters it takes.  A question mark
and a point are two marks where a digit follows, so that a fraction may. -/
def read? (text : List Char) : Option (Mark × Nat) :=
  match table.find? fun entry => entry.1.isPrefixOf text with
  | none => none
  | some (spelling, mark) =>
    if mark = optionalDot ∧ ((text.drop 2).head?.map Char.isDigit) = some true then
      some (question, 1)
    else some (mark, spelling.length)

/-- How a mark is written. -/
def text (mark : Mark) : String :=
  match table.find? fun entry => entry.2 == mark with
  | none => ""
  | some (spelling, _) => String.ofList spelling

/-- The marks that assign, alone or together with an operation. -/
def isAssignment : Mark → Bool
  | assign | plusAssign | minusAssign | starAssign | slashAssign | percentAssign | powerAssign
  | shiftLeftAssign | shiftRightAssign | shiftRightUnsignedAssign | bitAndAssign | bitOrAssign
  | bitXorAssign | andAssign | orAssign | coalesceAssign => true
  | _ => false

/-- How tightly an operator between two operands binds. -/
def precedence? : Mark → Option Nat
  | coalesce => some 1
  | or => some 2
  | and => some 3
  | bitOr => some 4
  | bitXor => some 5
  | bitAnd => some 6
  | equal | notEqual | strictEqual | strictNotEqual => some 7
  | less | greater | lessEqual | greaterEqual => some 8
  | shiftLeft | shiftRight | shiftRightUnsigned => some 9
  | plus | minus => some 10
  | star | slash | percent => some 11
  | power => some 12
  | _ => none

end Mark

/-- A token of a script. -/
inductive Token
  /-- the end of the text -/
  | done
  /-- characters that are no token -/
  | broken
  /-- a name or keyword, after its escapes are read; `escaped` when there were any -/
  | word (text : String) (escaped : Bool)
  /-- a name behind a number sign -/
  | privateName (text : String)
  | mark (mark : Mark)
  | number
  /-- a string literal, by the text it stands for -/
  | string (value : String)
  | regex
  /-- a chunk of a template: `last` when it ends the template, `valid` when its escapes are -/
  | chunk (last valid : Bool)
  deriving DecidableEq, Repr

/-- A token, where it stands, and whether a line ends between it and the token before. -/
structure Lexeme where
  token : Token
  span : Span
  newlineBefore : Bool
  deriving DecidableEq, Repr

/-- Why a text is no script. -/
inductive SyntaxFault
  | unexpectedToken
  | invalidCharacter
  | invalidEscape
  | invalidNumber
  | invalidRegexFlags
  | unterminatedString
  | unterminatedComment
  | unterminatedTemplate
  | unterminatedRegex
  | escapedKeyword
  | missingSemicolon
  | missingInitializer
  | missingSpecifier
  | missingCatch
  | missingBody
  | missingArrow
  | invalidTarget
  | invalidMember
  | mixedCoalesce
  | unaryBeforePower
  | optionalChain
  | lineEnd
  | misplacedDeclaration
  | misplacedDecorator
  | misplacedModifier
  | misplacedRest
  | misplacedWord
  | argumentCount
  | parameterCount
  | severalParents
  | repeatedOption
  | duplicateExport
  | strayDefault
  | pageComment
  | annotated
  | tooDeep
  deriving DecidableEq, Repr

namespace SyntaxFault

/-- The wording of a fault. -/
def message : SyntaxFault → String
  | unexpectedToken => "Unexpected token"
  | invalidCharacter => "Invalid character"
  | invalidEscape => "Invalid escape sequence"
  | invalidNumber => "Invalid number"
  | invalidRegexFlags => "Invalid regular expression flags"
  | unterminatedString => "Unterminated string"
  | unterminatedComment => "Unterminated multiline comment"
  | unterminatedTemplate => "Unterminated template"
  | unterminatedRegex => "Unterminated regular expression"
  | escapedKeyword => "Keywords cannot contain escape characters"
  | missingSemicolon => "Expected a semicolon or a line end"
  | missingInitializer => "Missing initializer in declaration"
  | missingSpecifier => "A dynamic import requires a specifier"
  | missingCatch => "Missing catch or finally clause"
  | missingBody => "Expected a function body"
  | missingArrow => "Parentheses without an expression"
  | invalidTarget => "Cannot assign to this expression"
  | invalidMember => "A class cannot have this member"
  | mixedCoalesce => "Logical operators and coalescing need parentheses to be mixed"
  | unaryBeforePower => "A unary expression needs parentheses before a power"
  | optionalChain => "An optional chain cannot stand here"
  | lineEnd => "A line cannot end here"
  | misplacedDeclaration => "A declaration cannot stand here"
  | misplacedDecorator => "Decorators cannot stand here"
  | misplacedModifier => "This modifier cannot stand here"
  | misplacedRest => "A rest element must be last and plain"
  | misplacedWord => "This word cannot stand here"
  | argumentCount => "A dynamic import takes a specifier and options"
  | parameterCount => "Wrong number of parameters of an accessor"
  | severalParents => "A class can only extend one other"
  | repeatedOption => "Duplicated import option"
  | duplicateExport => "Duplicated export"
  | strayDefault => "A default value needs a pattern"
  | pageComment => "Modules have no comments in the notation of pages"
  | annotated => "Type annotations need to be removed first"
  | tooDeep => "Nested too deeply"

end SyntaxFault

/-- A fault and the position it is reported at. -/
structure SyntaxError where
  position : Nat
  fault : SyntaxFault
  deriving DecidableEq, Repr

end ModuleBundler.Script

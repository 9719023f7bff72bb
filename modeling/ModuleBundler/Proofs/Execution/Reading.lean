/-
# ModuleBundler.Proofs.Execution.Reading — the text of a bundle as a script.

A bundle is a text, and running it begins with reading it: the linking function in parentheses, and
behind it, in parentheses too, the registry as an object that is written out (`scriptOf?`).  Tokens
are those of the project's own scanner, so keys and numbers mean what the scanner says they mean.  Of
a factory only its parameters are read; where its body ends is for a reader of function bodies to
say, and that is a parameter here.

What is read of the bundle of a graph is the script of the graph, whatever specifiers its modules
have and whatever their files are called (`scriptOf?_bundle`), as long as the code of every module is
the body of a function (`Delimits`).
-/
import ModuleBundler.Proofs.Execution.Loading
import ModuleBundler.Proofs.Script.Literals

namespace ModuleBundler.Execution

open Script

/-! ## Tokens -/

/-- A token, the characters that it is written with, and the text behind it. -/
structure Piece where
  token : Token
  written : List Char
  rest : List Char

/-- The first token of a text, if nothing is wrong with it. -/
def next? (text : List Char) : Option Piece :=
  let scanned := Scan.lexeme text 0 false
  let span := scanned.lexeme.span
  if scanned.faults.isEmpty then
    some ⟨scanned.lexeme.token, scanned.here.take (span.stop - span.start), scanned.rest⟩
  else none

/-- Passes over tokens, one after the other. -/
def expect? : List Token → List Char → Option (List Char)
  | [], text => some text
  | token :: tokens, text => do
    let piece ← next? text
    if piece.token = token then expect? tokens piece.rest else none

/-! ## Literals -/

/-- Reads items between commas up to the mark that closes their list, in so many steps at most. -/
def items? {α : Type} (close : Mark) (item : List Char → Option (α × List Char)) :
    (steps : Nat) → List Char → Option (List α × List Char)
  | 0, _ => none
  | steps + 1, text =>
    match item text with
    | none => do return ([], ← expect? [.mark close] text)
    | some (found, behind) => do
      let piece ← next? behind
      if piece.token = .mark .comma then
        let (others, behind) ← items? close item steps piece.rest
        return (found :: others, behind)
      else if piece.token = .mark close then return ([found], piece.rest)
      else none

/-- The number that a token is written as. -/
def Piece.number? (piece : Piece) : Option Nat :=
  plainNumber? (String.ofList piece.written)

/-- The key that a token is. -/
def Piece.key? (piece : Piece) : Option String :=
  match piece.token with
  | .number => piece.number?.map Nat.repr
  | .string value => some value
  | .word name false => some name
  | _ => none

/-- Reads a key with its value. -/
def field? (value : List Char → Option (Term × List Char)) (text : List Char) :
    Option ((String × Term) × List Char) := do
  let piece ← next? text
  let key ← piece.key?
  let (value, behind) ← value (← expect? [.mark .colon] piece.rest)
  return ((key, value), behind)

/-- What stands between the word that begins a factory and its body. -/
def factoryHead : List Token :=
  [.mark .openParen, .word "require" false, .mark .comma, .word "module" false, .mark .comma,
    .word "exports" false, .mark .closeParen, .mark .openBrace]

/-- Reads a factory behind the word that begins it; `body` says how many characters its body takes
up to the brace that closes it. -/
def factory? (body : List Char → Option Nat) (text : List Char) : Option (Term × List Char) := do
  let inside ← expect? factoryHead text
  let extent ← body inside
  let behind ← expect? [.mark .closeBrace] (inside.drop extent)
  return (.script (String.ofList (inside.take extent)), behind)

/-- Reads what is written out: numbers, strings, factories, and lists and objects of these, one in
another to a depth. -/
def literal? (body : List Char → Option Nat) :
    (depth : Nat) → List Char → Option (Term × List Char)
  | 0, _ => none
  | depth + 1, text => do
    let piece ← next? text
    match piece.token with
    | .number => return (.number (← piece.number?), piece.rest)
    | .string value => return (.text value, piece.rest)
    | .word "function" false => factory? body piece.rest
    | .mark .openBracket =>
      let (terms, behind) ← items? .closeBracket (literal? body depth) text.length piece.rest
      return (.array (.ofList terms), behind)
    | .mark .openBrace =>
      let (fields, behind) ← items? .closeBrace (field? (literal? body depth)) text.length piece.rest
      return (.object (.ofList fields), behind)
    | _ => none

/-! ## Scripts -/

/-- How many characters a group takes up to the parenthesis that closes it, inside of so many
parentheses and perhaps of a string.  Behind a slash, a backquote or a backslash parentheses may
mean something else; no group with one of them is read. -/
def groupExtent? : (depth : Nat) → (quote : Option Char) → List Char → Option Nat
  | _, _, [] => none
  | depth, quote, c :: rest =>
    if c = '/' ∨ c = '`' ∨ c = '\\' then none
    else
      match quote with
      | some quote =>
        (groupExtent? depth (if c = quote then none else some quote) rest).map (· + 1)
      | none =>
        if c = ')' ∧ depth = 1 then some 1
        else if c = ')' then (groupExtent? (depth - 1) none rest).map (· + 1)
        else if c = '(' then (groupExtent? (depth + 1) none rest).map (· + 1)
        else (groupExtent? depth (if c = '"' ∨ c = '\'' then some c else none) rest).map (· + 1)

/-- The script that a text stands for: a function in parentheses, applied to what is written out
behind it. -/
def scriptOf? (body : List Char → Option Nat) (text : List Char) : Option Term := do
  let extent ← groupExtent? 0 none text
  let function ← ofScript? (text.take extent)
  let inside ← expect? [.mark .openParen] (text.drop extent)
  let (argument, behind) ← literal? body inside.length inside
  let _ ← expect? [.mark .closeParen, .mark .semicolon, .done] behind
  return .call function (.ofList [argument])

/-- A text is the body of a function: it reaches up to the brace behind it, whatever follows. -/
def Delimits (body : List Char → Option Nat) (inside : String) : Prop :=
  ∀ behind, body (inside.toList ++ '}' :: behind) = some inside.length

/-! ## What only separates tokens -/

/-- Characters that make no difference to what is read behind them. -/
def Separates (gap : List Char) : Prop :=
  ∀ comments newline rest position, ∃ others newline' position',
    Scan.skip .blank comments newline (gap ++ rest) position =
      Scan.skip .blank others newline' rest position'

theorem Separates.nil : Separates [] :=
  fun comments newline _ position => ⟨comments, newline, position, rfl⟩

theorem Separates.append {gap more : List Char} (first : Separates gap) (second : Separates more) :
    Separates (gap ++ more) := by
  intro comments newline rest position
  rw [List.append_assoc]
  obtain ⟨comments, newline, position, skipped⟩ := first comments newline (more ++ rest) position
  rw [skipped]
  exact second comments newline rest position

theorem separates_space : Separates [' '] :=
  fun comments newline _ position => ⟨comments, newline, position + 1, rfl⟩

theorem separates_newline : Separates ['\n'] :=
  fun comments _ _ position => ⟨comments, true, position + 1, rfl⟩

/-- A comment goes on unless it is closed. -/
theorem skip_block_cons {c : Char} {rest : List Char} (goes : ¬ (c = '*' ∧ rest.head? = some '/'))
    (start : Nat) (comments : Scan.Comments) (newline : Bool) (position : Nat) :
    Scan.skip (.block start) comments newline (c :: rest) position =
      Scan.skip (.block start) comments (newline || isLineEnd c) rest (position + 1) := by
  rw [Scan.skip]
  rintro behind rfl rfl
  exact goes ⟨rfl, rfl⟩

/-- What is made safe begins with a slash only if it has before. -/
theorem head?_commentSafe {cs rest : List Char}
    (slash : (Registry.commentSafe cs ++ ' ' :: rest).head? = some '/') : cs.head? = some '/' := by
  fun_cases Registry.commentSafe cs with
  | case1 => simp [Registry.commentSafe] at slash
  | case2 => simp [Registry.commentSafe] at slash
  | case3 c cs apart => 
    rw [Registry.commentSafe] at slash
    · exact slash
    · exact apart

/-- Nothing in it closes a comment. -/
theorem skip_commentSafe (cs rest : List Char) (start : Nat) (comments : Scan.Comments)
    (newline : Bool) (position : Nat) : ∃ newline' position',
    Scan.skip (.block start) comments newline (Registry.commentSafe cs ++ ' ' :: rest) position =
      Scan.skip (.block start) comments newline' rest position' := by
  fun_induction Registry.commentSafe cs generalizing newline position with
  | case1 =>
    exact ⟨_, _, skip_block_cons (by simp) start comments newline position⟩
  | case2 cs ih =>
    -- the backslash stands between the two characters that would close the comment
    rw [List.cons_append, List.cons_append, List.cons_append, skip_block_cons (by simp),
      skip_block_cons (by simp), skip_block_cons (by simp)]
    exact ih _ _
  | case3 c cs apart ih =>
    have goes : ¬ (c = '*' ∧ (Registry.commentSafe cs ++ ' ' :: rest).head? = some '/') := by
      rintro ⟨star, slash⟩
      obtain ⟨behind, rfl⟩ := List.head?_eq_some_iff.mp (head?_commentSafe slash)
      exact apart behind star rfl
    rw [List.cons_append, skip_block_cons goes]
    exact ih _ _

theorem separates_comment (base : Option Path) (record : ModuleRecord) :
    Separates (Registry.comment base record).toList := by
  intro comments newline rest position
  have written : (Registry.comment base record).toList ++ rest =
      '/' :: '*' :: ' ' :: (Registry.commentSafe
        ((base.bind record.path.relativeTo?).getD record.path).text.toList ++
          ' ' :: '*' :: '/' :: '\n' :: rest) := by
    simp [Registry.comment]
  have opens (text : List Char) : Scan.skip .blank comments newline ('/' :: '*' :: ' ' :: text)
      position = Scan.skip (.block position) comments newline (' ' :: text) (position + 2) := rfl
  rw [written, opens, skip_block_cons (by simp)]
  obtain ⟨newline, behind, skipped⟩ := skip_commentSafe
    ((base.bind record.path.relativeTo?).getD record.path).text.toList ('*' :: '/' :: '\n' :: rest)
    position comments (newline || isLineEnd ' ') (position + 2 + 1)
  rw [skipped]
  exact ⟨_, _, _, rfl⟩

/-! ## What a text begins with -/

/-- A text begins with a token, behind anything that only separates tokens. -/
def Begins (text : List Char) (token : Token) (written rest : List Char) : Prop :=
  ∀ gap, Separates gap → next? (gap ++ text) = some ⟨token, written, rest⟩

/-- A character that is no part of what separates tokens. -/
def Solid (c : Char) : Prop :=
  isLineEnd c = false ∧ isSpace c = false ∧ c ≠ '/' ∧ c ≠ '<' ∧ c ≠ '-'

instance (c : Char) : Decidable (Solid c) :=
  inferInstanceAs (Decidable (isLineEnd c = false ∧ isSpace c = false ∧ c ≠ '/' ∧ c ≠ '<' ∧ c ≠ '-'))

theorem skip_solid {c : Char} (solid : Solid c) (comments : Scan.Comments) (newline : Bool)
    (rest : List Char) (position : Nat) :
    Scan.skip .blank comments newline (c :: rest) position =
      ⟨newline, c :: rest, position, comments, none⟩ := by
  obtain ⟨line, space, slash, less, minus⟩ := solid
  simp [Scan.skip, line, space, slash, less, minus]

theorem begins_of_token (letters : List Char) {c : Char} (solid : Solid c) {token : Token}
    {rest : List Char}
    (read : ∀ position newline, Scan.token (c :: (letters ++ rest)) position newline =
      Scan.taken token (c :: letters).length (c :: (letters ++ rest)) position newline) :
    Begins (c :: (letters ++ rest)) token (c :: letters) rest := by
  intro gap separates
  obtain ⟨comments, newline, position, skipped⟩ :=
    separates Scan.Comments.none false (c :: (letters ++ rest)) 0
  rw [skip_solid solid] at skipped
  have lexeme : Scan.lexeme (gap ++ c :: (letters ++ rest)) 0 false =
      { Scan.taken token (c :: letters).length (c :: (letters ++ rest)) position newline with
        comments := comments } := by
    rw [Scan.lexeme, skipped]
    show { Scan.token (c :: (letters ++ rest)) position newline with comments := comments } = _
    rw [read]
  simp [next?, lexeme, Scan.taken]

/-- The marks that lists, objects and groups are written with. -/
def marks : List (Char × Mark) :=
  [('(', .openParen), (')', .closeParen), ('{', .openBrace), ('}', .closeBrace),
    ('[', .openBracket), (']', .closeBracket), (',', .comma), (':', .colon), (';', .semicolon)]

theorem begins_mark (c : Char) (mark : Mark) (mem : (c, mark) ∈ marks) (rest : List Char) :
    Begins (c :: rest) (.mark mark) [c] rest := by
  simp only [marks, List.mem_cons, List.not_mem_nil, or_false, Prod.mk.injEq] at mem
  rcases mem with ⟨rfl, rfl⟩ | ⟨rfl, rfl⟩ | ⟨rfl, rfl⟩ | ⟨rfl, rfl⟩ | ⟨rfl, rfl⟩ | ⟨rfl, rfl⟩ |
    ⟨rfl, rfl⟩ | ⟨rfl, rfl⟩ | ⟨rfl, rfl⟩
  all_goals exact begins_of_token [] (by decide) fun _ _ => rfl

theorem begins_quoted (name : String) (rest : List Char) :
    Begins (Text.quotedChars name ++ rest) (.string name) (Text.quotedChars name) rest :=
  begins_of_token (c := '"') _ (by decide) (Scan.token_quoted name rest)

theorem begins_printed (n : Nat) {c : Char} (closing : Literal.Closing c) (rest : List Char) :
    Begins (Nat.toDigits 10 n ++ c :: rest) .number (Nat.toDigits 10 n) (c :: rest) := by
  have read := Scan.token_printed n closing rest
  obtain ⟨d, digits, split⟩ :=
    List.exists_cons_of_ne_nil (Nat.toDigits_ne_nil (n := n) (b := 10))
  have digit : d.isDigit = true :=
    Nat.isDigit_of_mem_toDigits (by decide) (by decide) (split ▸ List.mem_cons_self)
  have solid : Solid d := by
    apply Scan.of_isDigit _ digit
    decide
  rw [split] at read ⊢
  exact begins_of_token digits solid read

/-- A word is read up to a character that is no part of it. -/
theorem begins_word (letters : List Char) {first : Char}
    (isWord : Solid first ∧ isNameStart first = true ∧ first ≠ '\\' ∧
      (first :: letters).all isNamePart = true)
    {c : Char} (ends : isNamePart c = false ∧ c ≠ '\\') (rest : List Char) :
    Begins (first :: (letters ++ c :: rest)) (.word (String.ofList (first :: letters)) false)
      (first :: letters) (c :: rest) := by
  obtain ⟨solid, start, backslash, parts⟩ := isWord
  exact begins_of_token letters solid (Scan.token_word start backslash parts ends rest)

theorem expect?_of_begins {text written rest gap : List Char} {token : Token}
    (begins : Begins text token written rest) (separates : Separates gap) (tokens : List Token) :
    expect? (token :: tokens) (gap ++ text) = expect? tokens rest := by
  rw [expect?, begins gap separates]
  simp

/-! ## What is written is read -/

/-- A reader reads a value from what is written, behind anything that separates tokens, if what
follows fits. -/
def Reads {α : Type} (read : List Char → Option (α × List Char)) (fits : List Char → Prop)
    (written : List Char) (value : α) : Prop :=
  ∀ gap rest, Separates gap → fits rest → read (gap ++ (written ++ rest)) = some (value, rest)

/-- What follows a number in a list or an object. -/
def Closed (rest : List Char) : Prop :=
  ∃ c more, rest = c :: more ∧ Literal.Closing c

section

variable {α : Type} {read : List Char → Option (α × List Char)} {fits : List Char → Prop}
variable {written : List Char} {value : α}

theorem Reads.behind (reads : Reads read fits written value) {gap : List Char}
    (separates : Separates gap) : Reads read fits (gap ++ written) value := by
  intro before rest first fit
  rw [List.append_assoc, ← List.append_assoc]
  exact reads _ _ (first.append separates) fit

/-- Items between commas are read one after the other. -/
theorem items?_joined {close : Mark} {c : Char} (isClose : (c, close) ∈ marks)
    (notComma : close ≠ .comma) {between tail : List Char} (apart : Separates between)
    (last : Separates tail) (comma : ∀ rest, fits (',' :: rest))
    (closing : ∀ rest, fits (tail ++ c :: rest))
    (empty : ∀ rest gap, Separates gap → read (gap ++ c :: rest) = none)
    {items : List (List Char × α)} (reads : ∀ item ∈ items, Reads read fits item.1 item.2)
    {steps : Nat} (enough : items.length ≤ steps) (pos : 0 < steps) {gap : List Char}
    (before : Separates gap) (rest : List Char) :
    items? close read steps
        (gap ++ ((',' :: between).intercalate (items.map (·.1)) ++ (tail ++ c :: rest))) =
      some (items.map (·.2), rest) := by
  obtain ⟨steps, rfl⟩ := Nat.exists_eq_add_one_of_ne_zero (Nat.ne_of_gt pos)
  have ends (gap : List Char) (separates : Separates gap) :
      next? (gap ++ (tail ++ c :: rest)) = some ⟨.mark close, [c], rest⟩ := by
    rw [← List.append_assoc]
    exact begins_mark c close isClose rest _ (separates.append last)
  induction items generalizing steps gap with
  | nil =>
    have nothing := empty rest _ (before.append last)
    rw [List.append_assoc] at nothing
    show items? close read (steps + 1) (gap ++ (tail ++ c :: rest)) = _
    rw [items?, nothing]
    simp [expect?, ends gap before]
  | cons item items ih =>
    obtain ⟨first, others⟩ := List.forall_mem_cons.mp reads
    cases items with
    | nil =>
      have found := first gap _ before (closing rest)
      have closed := ends [] .nil
      rw [List.nil_append] at closed
      rw [List.map_singleton, List.intercalate_singleton, items?, found]
      simp [closed, notComma]
    | cons second items =>
      -- the text behind the comma is where the other items begin
      obtain ⟨behind, is⟩ : ∃ behind, between ++
        ((',' :: between).intercalate ((second :: items).map (·.1)) ++ (tail ++ c :: rest)) =
          behind := ⟨_, rfl⟩
      have found := first gap _ before (comma behind)
      have goes : next? (',' :: behind) = some ⟨.mark .comma, [','], behind⟩ :=
        begins_mark ',' .comma (by decide) behind [] .nil
      have shorter : (second :: items).length ≤ steps := Nat.le_of_succ_le_succ enough
      obtain ⟨fewer, rfl⟩ : ∃ fewer, steps = fewer + 1 :=
        Nat.exists_eq_add_one_of_ne_zero (Nat.ne_of_gt (Nat.lt_of_lt_of_le (Nat.succ_pos _) shorter))
      have continued := ih others apart fewer shorter (Nat.succ_pos _)
      have split : gap ++ ((',' :: between).intercalate ((item :: second :: items).map (·.1)) ++
          (tail ++ c :: rest)) = gap ++ (item.1 ++ ',' :: behind) := by
        rw [← is, List.map_cons, List.map_cons, List.intercalate_cons_cons]
        simp
      rw [is] at continued
      rw [split, items?, found]
      simp [goes, continued]

end

theorem plainNumber?_printed (n : Nat) :
    plainNumber? (String.ofList (Nat.toDigits 10 n)) = some n := by
  rw [plainNumber?, String.toList_ofList, Nat.ofDigitChars_toDigits (by decide) (by decide)]
  exact if_pos rfl

theorem reads_field (token : Token) {key : List Char} (name : String)
    (begins : ∀ rest, Begins (key ++ ':' :: rest) token key (':' :: rest))
    (named : ∀ rest, Piece.key? ⟨token, key, rest⟩ = some name)
    {value : List Char → Option (Term × List Char)} {fits : List Char → Prop} {written : List Char}
    {term : Term} (reads : Reads value fits written term) :
    Reads (field? value) fits (key ++ ':' :: ' ' :: written) (name, term) := by
  intro gap rest separates fit
  have first := begins (' ' :: (written ++ rest)) gap separates
  have colon : expect? [.mark .colon] (':' :: ' ' :: (written ++ rest)) =
      some (' ' :: (written ++ rest)) :=
    expect?_of_begins (begins_mark ':' .colon (by decide) _) .nil []
  have found := reads [' '] rest separates_space fit
  have split : gap ++ (key ++ ':' :: ' ' :: written ++ rest) =
      gap ++ (key ++ ':' :: ' ' :: (written ++ rest)) := by
    simp
  rw [split, field?, first]
  simp only [Option.bind_eq_bind, Option.bind_some, named, colon]
  rw [← List.singleton_append, found]
  rfl

section

variable (body : List Char → Option Nat)

theorem reads_number (depth n : Nat) :
    Reads (literal? body (depth + 1)) Closed (Nat.toDigits 10 n) (.number n) := by
  rintro gap rest separates ⟨c, more, rfl, closing⟩
  rw [literal?, begins_printed n closing more gap separates]
  simp [Piece.number?, plainNumber?_printed]

section

variable {depth : Nat} {fits : List Char → Prop} {opening between tail : List Char}

/-- Items between marks are read, if each of them is. -/
theorem reads_enclosed {α : Type} {read : List Char → Option (α × List Char)} (make : List α → Term)
    {o c : Char} {opener closer : Mark} (isOpen : (o, opener) ∈ marks) (isClose : (c, closer) ∈ marks)
    (notComma : closer ≠ .comma)
    (step : ∀ text written rest, next? text = some ⟨.mark opener, written, rest⟩ →
      literal? body (depth + 1) text = do
        let (values, behind) ← items? closer read text.length rest
        return (make values, behind))
    (empty : ∀ rest gap, Separates gap → read (gap ++ c :: rest) = none)
    (opens : Separates opening) (apart : Separates between) (last : Separates tail)
    (comma : ∀ rest, fits (',' :: rest)) (closing : ∀ rest, fits (tail ++ c :: rest))
    {items : List (List Char × α)} (reads : ∀ item ∈ items, Reads read fits item.1 item.2) :
    Reads (literal? body (depth + 1)) (fun _ => True)
      (o :: (opening ++ ((',' :: between).intercalate (items.map (·.1)) ++ (tail ++ [c]))))
      (make (items.map (·.2))) := by
  intro gap rest separates _
  obtain ⟨inside, is⟩ : ∃ inside, opening ++ ((',' :: between).intercalate (items.map (·.1)) ++
    (tail ++ c :: rest)) = inside := ⟨_, rfl⟩
  have split : gap ++ (o :: (opening ++ ((',' :: between).intercalate (items.map (·.1)) ++
      (tail ++ [c]))) ++ rest) = gap ++ o :: inside := by
    rw [← is]
    simp
  have enough : items.length ≤ (gap ++ o :: inside).length := by
    have few := Literal.length_le_intercalate (',' :: between) (Nat.succ_pos _) (items.map (·.1))
    rw [← is]
    simp only [List.length_append, List.length_cons, List.length_map] at few ⊢
    omega
  have found := items?_joined isClose notComma apart last comma closing empty reads enough
    (by rw [List.length_append, List.length_cons]; omega) opens rest
  rw [is] at found
  rw [split, step _ _ _ (begins_mark o opener isOpen inside gap separates), found]
  rfl

variable (fits) (opens : Separates opening) (apart : Separates between) (last : Separates tail)
variable (comma : ∀ rest, fits (',' :: rest))

include opens apart last comma

/-- Fields between braces are an object. -/
theorem reads_object (closing : ∀ rest, fits (tail ++ '}' :: rest))
    {items : List (List Char × String × Term)}
    (reads : ∀ item ∈ items, Reads (field? (literal? body depth)) fits item.1 item.2) :
    Reads (literal? body (depth + 1)) (fun _ => True)
      ('{' :: (opening ++ ((',' :: between).intercalate (items.map (·.1)) ++ (tail ++ ['}']))))
      (.object (.ofList (items.map (·.2)))) := by
  have step (text written rest : List Char)
      (begins : next? text = some ⟨.mark .openBrace, written, rest⟩) :
      literal? body (depth + 1) text = do
        let (fields, behind) ← items? .closeBrace (field? (literal? body depth)) text.length rest
        return (.object (.ofList fields), behind) := by
    rw [literal?, begins]
    rfl
  have empty (rest gap : List Char) (separates : Separates gap) :
      field? (literal? body depth) (gap ++ '}' :: rest) = none := by
    rw [field?, begins_mark '}' .closeBrace (by decide) rest gap separates]
    rfl
  exact reads_enclosed body (fun fields => .object (.ofList fields)) (by decide) (by decide)
    (by decide) step empty opens apart last comma closing reads

/-- Items between brackets are an array. -/
theorem reads_array (closing : ∀ rest, fits (tail ++ ']' :: rest))
    {items : List (List Char × Term)}
    (reads : ∀ item ∈ items, Reads (literal? body depth) fits item.1 item.2) :
    Reads (literal? body (depth + 1)) (fun _ => True)
      ('[' :: (opening ++ ((',' :: between).intercalate (items.map (·.1)) ++ (tail ++ [']']))))
      (.array (.ofList (items.map (·.2)))) := by
  have step (text written rest : List Char)
      (begins : next? text = some ⟨.mark .openBracket, written, rest⟩) :
      literal? body (depth + 1) text = do
        let (terms, behind) ← items? .closeBracket (literal? body depth) text.length rest
        return (.array (.ofList terms), behind) := by
    rw [literal?, begins]
    rfl
  have empty (rest gap : List Char) (separates : Separates gap) :
      literal? body depth (gap ++ ']' :: rest) = none := by
    cases depth with
    | zero => rfl
    | succ depth =>
      rw [literal?, begins_mark ']' .closeBracket (by decide) rest gap separates]
      rfl
  exact reads_enclosed body (fun terms => .array (.ofList terms)) (by decide) (by decide)
    (by decide) step empty opens apart last comma closing reads

end

theorem expect?_factoryHead (rest : List Char) :
    expect? factoryHead (" (require, module, exports) \x7b".toList ++ rest) = some rest := by
  have word (first : Char) (letters : List Char) (isWord : Solid first ∧ isNameStart first = true ∧
      first ≠ '\\' ∧ (first :: letters).all isNamePart = true) {c : Char}
      (ends : isNamePart c = false ∧ c ≠ '\\') {gap : List Char} (separates : Separates gap)
      (tokens : List Token) (rest : List Char) :=
    expect?_of_begins (begins_word letters isWord ends rest) separates tokens
  have mark (c : Char) (mark : Mark) (mem : (c, mark) ∈ marks) {gap : List Char}
      (separates : Separates gap) (tokens : List Token) (rest : List Char) :=
    expect?_of_begins (begins_mark c mark mem rest) separates tokens
  calc expect? factoryHead (" (require, module, exports) \x7b".toList ++ rest)
    _ = expect? (.word "require" false :: _) ("require, module, exports) \x7b".toList ++ rest) :=
      mark '(' .openParen (by decide) separates_space _ _
    _ = expect? (.mark .comma :: _) (", module, exports) \x7b".toList ++ rest) :=
      word 'r' ['e', 'q', 'u', 'i', 'r', 'e'] (by decide) (by decide) .nil _ _
    _ = expect? (.word "module" false :: _) (" module, exports) \x7b".toList ++ rest) :=
      mark ',' .comma (by decide) .nil _ _
    _ = expect? (.mark .comma :: _) (", exports) \x7b".toList ++ rest) :=
      word 'm' ['o', 'd', 'u', 'l', 'e'] (by decide) (by decide) separates_space _ _
    _ = expect? (.word "exports" false :: _) (" exports) \x7b".toList ++ rest) :=
      mark ',' .comma (by decide) .nil _ _
    _ = expect? (.mark .closeParen :: _) (") \x7b".toList ++ rest) :=
      word 'e' ['x', 'p', 'o', 'r', 't', 's'] (by decide) (by decide) separates_space _ _
    _ = expect? [.mark .openBrace] (" \x7b".toList ++ rest) :=
      mark ')' .closeParen (by decide) .nil _ _
    _ = some rest := mark '{' .openBrace (by decide) separates_space _ _

/-- A factory is read where its body is delimited. -/
theorem reads_factory (depth : Nat) {inside : String} (delimits : Delimits body inside) :
    Reads (literal? body (depth + 1)) (fun _ => True)
      ("function (require, module, exports) \x7b".toList ++ inside.toList ++ ['}'])
      (.script inside) := by
  intro gap rest separates _
  obtain ⟨inner, is⟩ : ∃ inner, inside.toList ++ '}' :: rest = inner := ⟨_, rfl⟩
  have begins : next? (gap ++ ("function".toList ++
      (" (require, module, exports) \x7b".toList ++ inner))) =
        some ⟨.word "function" false, "function".toList,
          " (require, module, exports) \x7b".toList ++ inner⟩ :=
    begins_word ['u', 'n', 'c', 't', 'i', 'o', 'n'] (by decide) (by decide) _ gap
      separates
  have close : expect? [.mark .closeBrace] ('}' :: rest) = some rest :=
    expect?_of_begins (begins_mark '}' .closeBrace (by decide) rest) .nil []
  have split : gap ++ ("function (require, module, exports) \x7b".toList ++ inside.toList ++
      ['}'] ++ rest) =
      gap ++ ("function".toList ++ (" (require, module, exports) \x7b".toList ++ inner)) := by
    rw [← is]
    simp
  have extent := delimits rest
  rw [is] at extent
  have drop : inner.drop inside.length = '}' :: rest := by
    rw [← is, ← String.length_toList, List.drop_left]
  have take : inner.take inside.length = inside.toList := by
    rw [← is, ← String.length_toList, List.take_left]
  have read : factory? body (" (require, module, exports) \x7b".toList ++ inner) =
      some (.script inside, rest) := by
    rw [factory?, expect?_factoryHead]
    simp only [Option.bind_eq_bind, Option.bind_some, extent, drop, take, close,
      String.ofList_toList]
    rfl
  rw [split, literal?, begins]
  simp only [Option.bind_eq_bind, Option.bind_some, read]

theorem closed_cons {c : Char} (closing : Literal.Closing c) (rest : List Char) :
    Closed (c :: rest) :=
  ⟨c, rest, rfl, closing⟩

/-- A mapping is read whatever its specifiers are. -/
theorem reads_mapping (depth : Nat) (record : ModuleRecord) :
    Reads (literal? body (depth + 2)) (fun _ => True) (Registry.mapping record).toList
      (mappingTerm record) := by
  let items : List (List Char × String × Term) := record.mapping.map fun entry =>
    (Text.quotedChars entry.1 ++ ':' :: ' ' :: Nat.toDigits 10 entry.2, entry.1, .number entry.2)
  have written : (Registry.mapping record).toList =
      '{' :: ([] ++ ((',' :: [' ']).intercalate (items.map (·.1)) ++ ([] ++ ['}']))) := by
    simp [Registry.mapping, items, String.toList_intercalate, Text.quoted, Function.comp_def]
  have term : mappingTerm record = .object (.ofList (items.map (·.2))) := by
    simp [mappingTerm, items, Function.comp_def]
  rw [written, term]
  apply reads_object body Closed .nil separates_space .nil
  · exact fun rest => closed_cons (by decide) rest
  · exact fun rest => closed_cons (by decide) rest
  · intro item mem
    obtain ⟨entry, -, rfl⟩ := List.mem_map.mp mem
    exact reads_field _ _ (fun rest => begins_quoted entry.1 (':' :: rest)) (fun _ => rfl)
      (reads_number body depth entry.2)

/-- The identity of a module is read with its factory and its mapping. -/
theorem reads_record (depth : Nat) {record : ModuleRecord}
    (delimits : Delimits body (factoryBody record)) :
    Reads (field? (literal? body (depth + 3))) (fun _ => True) (Registry.factory record).toList
      (registryField record) := by
  let items : List (List Char × Term) :=
    [("function (require, module, exports) \x7b".toList ++ (factoryBody record).toList ++ ['}'],
        .script (factoryBody record)),
      ((Registry.mapping record).toList, mappingTerm record)]
  have written : (Registry.factory record).toList = Nat.toDigits 10 record.id ++ ':' :: ' ' ::
      ('[' :: ([] ++ ((',' :: [' ']).intercalate (items.map (·.1)) ++ ([] ++ [']'])))) := by
    simp [Registry.factory, items, factoryBody, List.intercalate_cons_cons]
  have pair : Reads (literal? body (depth + 3)) (fun _ => True)
      ('[' :: ([] ++ ((',' :: [' ']).intercalate (items.map (·.1)) ++ ([] ++ [']']))))
      (.array (.ofList (items.map (·.2)))) := by
    apply reads_array body (fun _ => True) .nil separates_space .nil
    · simp
    · simp
    · simp only [items, List.forall_mem_cons]
      exact ⟨reads_factory body (depth + 1) delimits, reads_mapping body depth record, nofun⟩
  rw [written]
  refine reads_field .number record.id.repr ?_ ?_ pair
  · exact fun rest => begins_printed record.id (by decide) rest
  · intro rest
    simp [Piece.key?, Piece.number?, plainNumber?_printed]

/-- The registry of a graph is read as what it is. -/
theorem reads_registry (depth : Nat) {graph : ModuleGraph} (options : RuntimeOptions)
    (delimits : ∀ record ∈ graph.modules, Delimits body (factoryBody record)) :
    Reads (literal? body (depth + 4)) (fun _ => True) (Registry.text options graph).toList
      (registryTerm graph) := by
  let base := graph.entryModule?.bind fun record => record.path.parent?
  let items : List (List Char × String × Term) := graph.modules.map fun record =>
    ((Registry.entry options base record).toList, registryField record)
  have written : (Registry.text options graph).toList =
      '{' :: (['\n'] ++ ((',' :: ['\n']).intercalate (items.map (·.1)) ++ (['\n'] ++ ['}']))) := by
    simp [Registry.text, items, base, String.toList_intercalate, Function.comp_def]
  have term : registryTerm graph = .object (.ofList (items.map (·.2))) := by
    simp [registryTerm, items, Function.comp_def]
  rw [written, term]
  apply reads_object body (fun _ => True) separates_newline separates_newline separates_newline
  · simp
  · simp
  · intro item mem
    obtain ⟨record, isModule, rfl⟩ := List.mem_map.mp mem
    have reads := reads_record body depth (delimits record isModule)
    show Reads _ _ (Registry.entry options base record).toList _
    rw [Registry.entry]
    split
    · rw [String.toList_append]
      exact reads.behind (separates_comment base record)
    · exact reads

end

/-! ## Bundles -/

/-- A group that is closed is not changed by what follows. -/
theorem groupExtent?_append {depth : Nat} {quote : Option Char} {text : List Char} {extent : Nat}
    (is : groupExtent? depth quote text = some extent) (more : List Char) :
    groupExtent? depth quote (text ++ more) = some extent := by
  induction text generalizing depth quote extent with
  | nil => exact absurd is nofun
  | cons c text ih =>
    have goes {depth quote} (is : (groupExtent? depth quote text).map (· + 1) = some extent) :
        (groupExtent? depth quote (text ++ more)).map (· + 1) = some extent := by
      obtain ⟨fewer, found, rfl⟩ := Option.map_eq_some_iff.mp is
      rw [ih found]
      rfl
    rw [List.cons_append]
    unfold groupExtent? at is ⊢
    split at is
    · exact absurd is nofun
    · rename_i plain
      rw [if_neg plain]
      cases quote with
      | some quote => exact goes is
      | none =>
        by_cases last : c = ')' ∧ depth = 1
        · simp only [if_pos last] at is ⊢
          exact is
        by_cases closes : c = ')'
        · simp only [if_neg last, if_pos closes] at is ⊢
          exact goes is
        by_cases opens : c = '('
        · simp only [if_neg last, if_neg closes, if_pos opens] at is ⊢
          exact goes is
        · simp only [if_neg last, if_neg closes, if_neg opens] at is ⊢
          exact goes is

theorem groupExtent?_runtime (options : RuntimeOptions) :
    groupExtent? 0 none (Registry.runtime options).toList =
      some (Registry.runtime options).toList.length := by
  unfold Registry.runtime Registry.cachingRuntime Registry.reinvokingRuntime
  split
  all_goals
    rw [String.toList_intercalate]
    simp only [Registry.linkLines, Registry.runLines, List.cons_append, List.nil_append,
      List.map_cons, List.map_nil]
    repeat rw [String.toList_ofList]
    decide +kernel

/-- What is read of the bundle of a graph is the script of the graph. -/
theorem scriptOf?_bundle {body : List Char → Option Nat} {graph : ModuleGraph}
    (options : RuntimeOptions)
    (delimits : ∀ record ∈ graph.modules, Delimits body (factoryBody record)) :
    scriptOf? body (graph.bundle options).toList = script? options graph := by
  obtain ⟨runtime, isRuntime⟩ : ∃ runtime, (Registry.runtime options).toList = runtime := ⟨_, rfl⟩
  obtain ⟨registry, isRegistry⟩ : ∃ registry, (Registry.text options graph).toList = registry :=
    ⟨_, rfl⟩
  have written : (graph.bundle options).toList =
      runtime ++ '(' :: (registry ++ [')', ';', '\n']) := by
    simp [ModuleGraph.bundle, isRuntime, isRegistry]
  have group := groupExtent?_append (groupExtent?_runtime options) ('(' :: (registry ++ [')', ';', '\n']))
  rw [isRuntime] at group
  have opens : expect? [.mark .openParen] ('(' :: (registry ++ [')', ';', '\n'])) =
      some (registry ++ [')', ';', '\n']) :=
    expect?_of_begins (begins_mark '(' .openParen (by decide) _) .nil []
  have read : literal? body (registry ++ [')', ';', '\n']).length (registry ++ [')', ';', '\n']) =
      some (registryTerm graph, [')', ';', '\n']) := by
    have long : 4 ≤ (registry ++ [')', ';', '\n']).length := by
      simp [← isRegistry, Registry.text]
    obtain ⟨depth, isDepth⟩ : ∃ depth, (registry ++ [')', ';', '\n']).length = depth + 4 :=
      Nat.exists_eq_add_of_le' long
    rw [isDepth, ← isRegistry]
    exact reads_registry body depth options delimits [] _ .nil trivial
  have ends : expect? [.mark .closeParen, .mark .semicolon, .done] [')', ';', '\n'] = some [] := by
    decide +kernel
  rw [written, scriptOf?, group]
  simp only [Option.bind_eq_bind, Option.bind_some, List.take_left, List.drop_left, opens, read,
    ends]
  rw [script?, isRuntime]
  cases ofScript? runtime <;> rfl

end ModuleBundler.Execution

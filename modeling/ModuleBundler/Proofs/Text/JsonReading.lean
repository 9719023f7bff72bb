/-
# ModuleBundler.Proofs.Text.JsonReading — data files are read back.

A reader of JSON, as the format is defined: four kinds of blanks, strings with all their escapes,
numbers with fractions and exponents, lists, objects and three words.  It keeps the fields of an
object in their order.  What `Json.pretty` writes is read as the value that was written, whatever
characters its strings have (`read?_pretty`).
-/
import Mathlib.Data.List.Basic
import Mathlib.Data.List.TakeWhile
import ModuleBundler.Proofs.Script.Literals
import ModuleBundler.Text.Json

namespace ModuleBundler.Text

open Script (hexValue?)
open Script.Literal (shortEscapes spelling_quotedChar hexDigit_digit head?_toDigits
  length_le_quoted length_le_intercalate)

/-- A number as it is written. -/
structure Numeral where
  negative : Bool
  whole : Nat
  /-- the digits behind the point -/
  fraction : List Char
  exponent : Int
  deriving DecidableEq, Repr

/-- A natural number. -/
def Numeral.ofNat (n : Nat) : Numeral :=
  ⟨false, n, [], 0⟩

/-- A value of JSON; the fields of an object are in the order of the text. -/
inductive Datum
  | null
  | boolean (value : Bool)
  | number (numeral : Numeral)
  | text (value : String)
  | list (items : List Datum)
  | object (fields : List (String × Datum))
  deriving Repr

/-- What a written value means. -/
def Json.datum : Json → Datum
  | .number value => .number (.ofNat value)
  | .text value => .text value
  | .list items => .list (items.map Json.datum)
  | .object fields => .object (fields.map fun field => (field.1, field.2.datum))
decreasing_by
  · have := List.sizeOf_lt_of_mem ‹_ ∈ items›
    simp
    omega
  · have := List.sizeOf_lt_of_mem ‹_ ∈ fields›
    obtain ⟨key, value⟩ := field
    simp at this ⊢
    omega

namespace JsonReader

/-! ## Blanks -/

def isBlank (c : Char) : Bool :=
  c = ' ' || c = '\t' || c = '\n' || c = '\r'

/-- A text from the first character on that is no blank. -/
def fromToken (text : List Char) : List Char :=
  text.dropWhile isBlank

/-! ## Strings -/

/-- The letters of short escapes and the characters that they stand for. -/
def escapes : List (Char × Char) :=
  [('"', '"'), ('\\', '\\'), ('/', '/'), ('b', '\x08'), ('f', '\x0c'), ('n', '\n'), ('r', '\r'),
    ('t', '\t')]

/-- Reads four hexadecimal digits. -/
def codeUnit? : List Char → Option (Nat × List Char)
  | a :: b :: c :: d :: rest => do
    let a ← hexValue? a
    let b ← hexValue? b
    let c ← hexValue? c
    let d ← hexValue? d
    return (((a * 16 + b) * 16 + c) * 16 + d, rest)
  | _ => none

/-- Reads the code of a character; above the basic plane it takes a second escape, and one half of
such a pair means nothing. -/
def code? (text : List Char) : Option (Char × List Char) := do
  let (unit, rest) ← codeUnit? text
  if 0xD800 ≤ unit ∧ unit < 0xDC00 then
    match rest with
    | '\\' :: 'u' :: rest => do
      let (low, rest) ← codeUnit? rest
      if 0xDC00 ≤ low ∧ low < 0xE000 then
        some (Char.ofNat (0x10000 + (unit - 0xD800) * 0x400 + (low - 0xDC00)), rest)
      else none
    | _ => none
  else if 0xDC00 ≤ unit ∧ unit < 0xE000 then none
  else some (Char.ofNat unit, rest)

/-- Reads one character of a string. -/
def character? : List Char → Option (Char × List Char)
  | '\\' :: 'u' :: rest => code? rest
  | '\\' :: letter :: rest => (escapes.lookup letter).map (·, rest)
  | c :: rest => if c = '"' ∨ c = '\\' ∨ c.toNat < 32 then none else some (c, rest)
  | [] => none

/-- Reads a string behind the quote that opens it, in so many steps at most. -/
def characters? : (steps : Nat) → List Char → Option (List Char × List Char)
  | 0, _ => none
  | _ + 1, '"' :: rest => some ([], rest)
  | steps + 1, text => do
    let (c, rest) ← character? text
    let (cs, rest) ← characters? steps rest
    return (c :: cs, rest)

/-- Reads a string behind the quote that opens it. -/
def string? (text : List Char) : Option (String × List Char) :=
  (characters? text.length text).map fun (cs, rest) => (String.ofList cs, rest)

/-! ## Numbers -/

/-- Reads at least one digit. -/
def digits? (text : List Char) : Option (List Char × List Char) :=
  match text.takeWhile Char.isDigit with
  | [] => none
  | digits => some (digits, text.dropWhile Char.isDigit)

/-- Reads a number without its sign and what follows its point; it does not begin with a nought
that could be left out. -/
def whole? (text : List Char) : Option (Nat × List Char) := do
  let (digits, rest) ← digits? text
  if digits.head? = some '0' ∧ digits ≠ ['0'] then none
  else some (Nat.ofDigitChars 10 digits 0, rest)

/-- Reads what follows a point. -/
def fraction? : List Char → Option (List Char × List Char)
  | '.' :: rest => digits? rest
  | text => some ([], text)

/-- Reads an exponent behind the letter that begins it. -/
def signed? : List Char → Option (Int × List Char)
  | '-' :: rest =>
    (digits? rest).map fun (digits, rest) => (-(Nat.ofDigitChars 10 digits 0 : Int), rest)
  | '+' :: rest =>
    (digits? rest).map fun (digits, rest) => ((Nat.ofDigitChars 10 digits 0 : Int), rest)
  | text => (digits? text).map fun (digits, rest) => ((Nat.ofDigitChars 10 digits 0 : Int), rest)

def exponent? : List Char → Option (Int × List Char)
  | 'e' :: rest => signed? rest
  | 'E' :: rest => signed? rest
  | text => some (0, text)

/-- Reads a number without its sign. -/
def unsigned? (negative : Bool) (text : List Char) : Option (Numeral × List Char) := do
  let (whole, rest) ← whole? text
  let (fraction, rest) ← fraction? rest
  let (exponent, rest) ← exponent? rest
  return (⟨negative, whole, fraction, exponent⟩, rest)

/-- Reads a number. -/
def numeral? : List Char → Option (Numeral × List Char)
  | '-' :: rest => unsigned? true rest
  | text => unsigned? false text

/-! ## Values -/

section

variable {α : Type} (item : List Char → Option (α × List Char)) (close : Char)

/-- Reads items between commas up to the character that closes their list, in so many steps at
most. -/
def separated? : (steps : Nat) → List Char → Option (List α × List Char)
  | 0, _ => none
  | steps + 1, text => do
    let (first, rest) ← item text
    match fromToken rest with
    | [] => none
    | c :: rest =>
      if c = ',' then do
        let (others, rest) ← separated? steps rest
        return (first :: others, rest)
      else if c = close then some ([first], rest)
      else none

/-- Reads a list behind the character that opens it. -/
def enclosed? (text : List Char) : Option (List α × List Char) :=
  if (fromToken text).head? = some close then some ([], (fromToken text).tail)
  else separated? item close text.length text

end

/-- Reads a key with its value. -/
def field? {α : Type} (value : List Char → Option (α × List Char)) (text : List Char) :
    Option ((String × α) × List Char) :=
  match fromToken text with
  | '"' :: rest => do
    let (key, rest) ← string? rest
    match fromToken rest with
    | ':' :: rest => do
      let (value, rest) ← value rest
      return ((key, value), rest)
    | _ => none
  | _ => none

/-- Reads a value; values stand in one another to a depth. -/
def value? : (depth : Nat) → List Char → Option (Datum × List Char)
  | 0, _ => none
  | depth + 1, text =>
    match fromToken text with
    | '"' :: rest => (string? rest).map fun (value, rest) => (.text value, rest)
    | '[' :: rest =>
      (enclosed? (value? depth) ']' rest).map fun (items, rest) => (.list items, rest)
    | '{' :: rest =>
      (enclosed? (field? (value? depth)) '}' rest).map fun (fields, rest) => (.object fields, rest)
    | 't' :: 'r' :: 'u' :: 'e' :: rest => some (.boolean true, rest)
    | 'f' :: 'a' :: 'l' :: 's' :: 'e' :: rest => some (.boolean false, rest)
    | 'n' :: 'u' :: 'l' :: 'l' :: rest => some (.null, rest)
    | text => (numeral? text).map fun (numeral, rest) => (.number numeral, rest)

/-- The value that a whole text stands for. -/
def read? (text : String) : Option Datum := do
  let (value, rest) ← value? text.length text.toList
  if fromToken rest = [] then some value else none

/-! ## What is written is read -/

/-- Blanks. -/
def Blank (gap : List Char) : Prop :=
  ∀ c ∈ gap, isBlank c = true

/-- What may stand behind a value: it does not go on with a number. -/
def Apart (rest : List Char) : Prop :=
  ∀ c ∈ rest.head?, c.isDigit = false ∧ c ≠ '.' ∧ c ≠ 'e' ∧ c ≠ 'E'

/-- A reader reads a value from what is written, behind any blanks, if what follows stands apart. -/
def Reads {α : Type} (read : List Char → Option (α × List Char)) (written : List Char)
    (value : α) : Prop :=
  ∀ gap rest, Blank gap → Apart rest → read (gap ++ (written ++ rest)) = some (value, rest)

theorem fromToken_cons {gap : List Char} (blank : Blank gap) {c : Char} (solid : isBlank c = false)
    (rest : List Char) : fromToken (gap ++ c :: rest) = c :: rest := by
  rw [fromToken, List.dropWhile_append_of_pos blank, List.dropWhile_cons_of_neg (by simp [solid])]

theorem blank_nil : Blank [] :=
  nofun

theorem blank_space : Blank [' '] :=
  List.forall_mem_singleton.mpr rfl

theorem Blank.append {gap more : List Char} (first : Blank gap) (second : Blank more) :
    Blank (gap ++ more) :=
  List.forall_mem_append.mpr ⟨first, second⟩

/-! ### Strings -/

theorem lookup_escapes {c letter : Char} (mem : (letter, c.toNat) ∈ shortEscapes) :
    escapes.lookup letter = some c := by
  have same {d : Char} (is : c.toNat = d.toNat) : d = c :=
    Char.ext (UInt32.toNat_inj.mp is.symm)
  simp only [shortEscapes, List.mem_cons, List.not_mem_nil, or_false, Prod.mk.injEq] at mem
  rcases mem with ⟨rfl, is⟩ | ⟨rfl, is⟩ | ⟨rfl, is⟩ | ⟨rfl, is⟩ | ⟨rfl, is⟩ | ⟨rfl, is⟩ | ⟨rfl, is⟩
  · exact congrArg some (same (d := '"') is)
  · exact congrArg some (same (d := '\\') is)
  · exact congrArg some (same (d := '\n') is)
  · exact congrArg some (same (d := '\r') is)
  · exact congrArg some (same (d := '\t') is)
  · exact congrArg some (same (d := '\x08') is)
  · exact congrArg some (same (d := '\x0c') is)

/-- The code of a control character is read. -/
theorem code?_control {c : Char} (low : c.toNat < 32) (rest : List Char) :
    code? ('0' :: '0' :: hexDigit (c.toNat / 16) :: hexDigit (c.toNat % 16) :: rest) =
      some (c, rest) := by
  have high := (hexDigit_digit (c.toNat / 16) (by omega)).1
  have digit := (hexDigit_digit (c.toNat % 16) (by omega)).1
  have zero : hexValue? '0' = some 0 := rfl
  have value : c.toNat / 16 * 16 + c.toNat % 16 = c.toNat := by omega
  have unit : codeUnit? ('0' :: '0' :: hexDigit (c.toNat / 16) :: hexDigit (c.toNat % 16) :: rest) =
      some (c.toNat, rest) := by
    simp [codeUnit?, high, digit, zero, value]
  have notHigh : ¬ (0xD800 ≤ c.toNat ∧ c.toNat < 0xDC00) := by omega
  have notLow : ¬ (0xDC00 ≤ c.toNat ∧ c.toNat < 0xE000) := by omega
  simp [code?, unit, notHigh, notLow]

/-- Only a visible character is written as itself. -/
theorem visible_of_quotedChar {c : Char} (plain : quotedChar c = [c]) : ¬ c.toNat < 32 := by
  unfold quotedChar at plain
  split at plain
  · simp at plain
  split at plain
  · simp at plain
  split at plain
  · simp at plain
  split at plain
  · simp at plain
  split at plain
  · simp at plain
  split at plain
  · simp at plain
  split at plain
  · simp at plain
  split at plain
  · simp at plain
  · assumption

/-- Every character is read as itself. -/
theorem character?_quotedChar (c : Char) (rest : List Char) :
    character? (quotedChar c ++ rest) = some (c, rest) := by
  obtain ⟨letters, is⟩ : ∃ letters, quotedChar c = letters := ⟨_, rfl⟩
  have spelling := spelling_quotedChar c
  rw [is] at spelling ⊢
  cases spelling with
  | short mem =>
    have found := lookup_escapes mem
    rw [List.cons_append, List.cons_append, character?, found]
    · rfl
    · rintro rfl
      exact absurd found nofun
  | control low => exact code?_control low rest
  | plain quote backslash feed carriage =>
    have visible := visible_of_quotedChar is
    simp [character?, quote, backslash, visible]

/-- A string is read up to the quote that was written behind it. -/
theorem characters?_quoted (cs : List Char) {steps : Nat} (enough : cs.length < steps)
    (rest : List Char) :
    characters? steps (cs.flatMap quotedChar ++ '"' :: rest) = some (cs, rest) := by
  induction cs generalizing steps with
  | nil =>
    obtain ⟨steps, rfl⟩ := Nat.exists_eq_add_one_of_ne_zero (Nat.ne_of_gt enough)
    rfl
  | cons c cs ih =>
    obtain ⟨steps, rfl⟩ :=
      Nat.exists_eq_add_one_of_ne_zero (Nat.ne_of_gt (Nat.zero_lt_of_lt enough))
    have first := character?_quotedChar c (cs.flatMap quotedChar ++ '"' :: rest)
    have others := ih (Nat.lt_of_succ_lt_succ enough)
    rw [List.flatMap_cons, List.append_assoc, characters?, first]
    · simp [others]
    · intro rest' opens
      rw [opens] at first
      exact absurd first (by simp [character?])

theorem string?_quoted (s : String) (rest : List Char) :
    string? (s.toList.flatMap quotedChar ++ '"' :: rest) = some (s, rest) := by
  have enough : s.toList.length < (s.toList.flatMap quotedChar ++ '"' :: rest).length := by
    have few := length_le_quoted s.toList
    rw [List.length_append, List.length_cons]
    omega
  rw [string?, characters?_quoted _ enough]
  simp

/-! ### Numbers -/

theorem digits?_printed (n : Nat) {rest : List Char} (apart : Apart rest) :
    digits? (Nat.toDigits 10 n ++ rest) = some (Nat.toDigits 10 n, rest) := by
  have isDigit : ∀ d ∈ Nat.toDigits 10 n, d.isDigit = true := fun d mem =>
    Nat.isDigit_of_mem_toDigits (by decide) (by decide) mem
  have ends : rest.takeWhile Char.isDigit = [] ∧ rest.dropWhile Char.isDigit = rest := by
    cases rest with
    | nil => exact ⟨rfl, rfl⟩
    | cons c rest => simp [(apart c rfl).1]
  obtain ⟨d, digits, split⟩ := List.exists_cons_of_ne_nil (Nat.toDigits_ne_nil (n := n) (b := 10))
  rw [digits?, List.takeWhile_append_of_pos isDigit, List.dropWhile_append_of_pos isDigit, ends.1,
    ends.2, List.append_nil, split]

theorem whole?_printed (n : Nat) {rest : List Char} (apart : Apart rest) :
    whole? (Nat.toDigits 10 n ++ rest) = some (n, rest) := by
  have leading : ¬ ((Nat.toDigits 10 n).head? = some '0' ∧ Nat.toDigits 10 n ≠ ['0']) := by
    rintro ⟨nought, more⟩
    rcases Nat.eq_zero_or_pos n with rfl | pos
    · exact more rfl
    · exact head?_toDigits pos nought
  rw [whole?, digits?_printed n apart]
  simp only [Option.bind_eq_bind, Option.bind_some, if_neg leading,
    Nat.ofDigitChars_toDigits (by decide : 1 < 10) (by decide : 10 ≤ 10)]

theorem numeral?_printed (n : Nat) {rest : List Char} (apart : Apart rest) :
    numeral? (Nat.toDigits 10 n ++ rest) = some (.ofNat n, rest) := by
  have fraction : fraction? rest = some ([], rest) := by
    unfold fraction?
    split
    · exact absurd rfl (apart _ rfl).2.1
    · rfl
  have exponent : exponent? rest = some (0, rest) := by
    unfold exponent?
    split
    · exact absurd rfl (apart _ rfl).2.2.1
    · exact absurd rfl (apart _ rfl).2.2.2
    · rfl
  have unsigned : unsigned? false (Nat.toDigits 10 n ++ rest) = some (.ofNat n, rest) := by
    rw [unsigned?, whole?_printed n apart]
    simp [fraction, exponent, Numeral.ofNat]
  rw [numeral?]
  · exact unsigned
  · intro rest' negative
    rw [negative] at unsigned
    exact absurd unsigned (by simp [unsigned?, whole?, digits?])

/-! ### Values -/

attribute [local simp] value?

theorem reads_text (depth : Nat) (s : String) :
    Reads (value? (depth + 1)) (quotedChars s) (.text s) := by
  intro gap rest blank _
  have split : quotedChars s ++ rest = '"' :: (s.toList.flatMap quotedChar ++ '"' :: rest) := by
    simp [quotedChars]
  rw [split]
  simp [fromToken_cons blank (c := '"') (by decide), string?_quoted]

theorem reads_number (depth n : Nat) :
    Reads (value? (depth + 1)) (Nat.toDigits 10 n) (.number (.ofNat n)) := by
  intro gap rest blank apart
  have numeral := numeral?_printed n apart
  obtain ⟨d, digits, split⟩ := List.exists_cons_of_ne_nil (Nat.toDigits_ne_nil (n := n) (b := 10))
  have digit : d.isDigit = true :=
    Nat.isDigit_of_mem_toDigits (by decide) (by decide) (split ▸ List.mem_cons_self)
  have solid : isBlank d = false :=
    Script.Scan.of_isDigit (P := (isBlank · = false)) (by decide) digit
  have begins : ∀ d : Char, d.isDigit = true → d ∉ ['"', '[', '{', 't', 'f', 'n'] :=
    fun d => Script.Scan.of_isDigit (P := (· ∉ ['"', '[', '{', 't', 'f', 'n'])) (by decide)
  have other := begins d digit
  simp only [List.mem_cons, List.not_mem_nil, or_false, not_or] at other
  rw [split] at numeral ⊢
  rw [List.cons_append] at numeral ⊢
  simp [fromToken_cons blank solid, numeral, other]

/-- A field is read, if its value is. -/
theorem reads_field {α : Type} {read : List Char → Option (α × List Char)} {written : List Char}
    {value : α} (reads : Reads read written value) (key : String) :
    Reads (field? read) (quotedChars key ++ ':' :: ' ' :: written) (key, value) := by
  intro gap rest blank apart
  have found := reads [' '] rest blank_space apart
  have split : quotedChars key ++ ':' :: ' ' :: written ++ rest =
      '"' :: (key.toList.flatMap quotedChar ++ '"' :: ':' :: ([' '] ++ (written ++ rest))) := by
    simp [quotedChars]
  have colon : fromToken (':' :: ([' '] ++ (written ++ rest))) =
      ':' :: ([' '] ++ (written ++ rest)) :=
    fromToken_cons blank_nil (by decide) _
  rw [split, field?, fromToken_cons blank (by decide)]
  simp only [string?_quoted, Option.bind_eq_bind, Option.bind_some, colon, found]
  rfl

theorem apart_cons {c : Char} (isMark : c ∈ [',', ']', '}', ' ', '\n']) (rest : List Char) :
    Apart (c :: rest) := by
  intro d is
  obtain rfl : c = d := Option.some_inj.mp is
  simp only [List.mem_cons, List.not_mem_nil, or_false] at isMark
  rcases isMark with rfl | rfl | rfl | rfl | rfl <;> decide

section

variable {α : Type} {read : List Char → Option (α × List Char)} {close : Char}
variable {between tail : List Char} {items : List (List Char × α)}

/-- Items between commas are read one after the other. -/
theorem separated?_joined (isClose : close ∈ [']', '}']) (within : Blank between)
    (last : Blank tail) (closing : ∀ rest, Apart (tail ++ close :: rest))
    (reads : ∀ item ∈ items, Reads read item.1 item.2) (some_item : items ≠ []) {steps : Nat}
    (enough : items.length ≤ steps) {gap : List Char} (blank : Blank gap) (rest : List Char) :
    separated? read close steps (gap ++ ((',' :: between).intercalate (items.map (·.1)) ++
        (tail ++ close :: rest))) = some (items.map (·.2), rest) := by
  obtain ⟨solid, notComma⟩ : isBlank close = false ∧ close ≠ ',' := by
    rcases List.mem_pair.mp isClose with rfl | rfl <;> decide
  induction items generalizing steps gap with
  | nil => exact absurd rfl some_item
  | cons item items ih =>
    obtain ⟨first, others⟩ := List.forall_mem_cons.mp reads
    obtain ⟨steps, rfl⟩ := Nat.exists_eq_add_one_of_ne_zero
      (Nat.ne_of_gt (Nat.lt_of_lt_of_le (Nat.succ_pos _) enough))
    cases items with
    | nil =>
      have found := first gap _ blank (closing rest)
      have ends := fromToken_cons last solid rest
      rw [List.map_singleton, List.intercalate_singleton, separated?, found]
      simp [ends, notComma]
    | cons second items =>
      -- the text behind the comma is where the other items begin
      obtain ⟨behind, is⟩ : ∃ behind, between ++
        ((',' :: between).intercalate ((second :: items).map (·.1)) ++ (tail ++ close :: rest)) =
          behind := ⟨_, rfl⟩
      have found := first gap _ blank (apart_cons (c := ',') (by decide) behind)
      have comma : fromToken (',' :: behind) = ',' :: behind :=
        fromToken_cons blank_nil (by decide) behind
      have continued := ih others nofun (Nat.le_of_succ_le_succ enough) within
      have split : gap ++ ((',' :: between).intercalate ((item :: second :: items).map (·.1)) ++
          (tail ++ close :: rest)) = gap ++ (item.1 ++ ',' :: behind) := by
        rw [← is, List.map_cons, List.map_cons, List.intercalate_cons_cons]
        simp
      rw [is] at continued
      rw [split, separated?, found]
      simp [comma, continued]

/-- Where a list is read that has an item, it is not closed at once. -/
theorem head?_fromToken_ne (empty : ∀ gap rest, Blank gap → read (gap ++ close :: rest) = none)
    {steps : Nat} {text : List Char} {found : List α × List Char}
    (separated : separated? read close steps text = some found) :
    (fromToken text).head? ≠ some close := by
  intro closes
  obtain ⟨behind, split⟩ := List.head?_eq_some_iff.mp closes
  have whole : text.takeWhile isBlank ++ close :: behind = text := by
    rw [← split]
    exact List.takeWhile_append_dropWhile
  have nothing : read text = none := by
    rw [← whole]
    exact empty _ _ fun c mem => List.mem_takeWhile_imp mem
  cases steps with
  | zero => exact absurd separated nofun
  | succ steps =>
    rw [separated?, nothing] at separated
    exact absurd separated nofun

/-- A list is read up to the character that closes it, if each of its items is and no item can begin
with that character. -/
theorem enclosed?_joined (isClose : close ∈ [']', '}'])
    (empty : ∀ gap rest, Blank gap → read (gap ++ close :: rest) = none) (within : Blank between)
    (last : Blank tail) (closing : ∀ rest, Apart (tail ++ close :: rest))
    (reads : ∀ item ∈ items, Reads read item.1 item.2) {opening : List Char}
    (opens : Blank opening) (rest : List Char) :
    enclosed? read close (opening ++ ((',' :: between).intercalate (items.map (·.1)) ++
        (tail ++ close :: rest))) = some (items.map (·.2), rest) := by
  cases items with
  | nil =>
    have solid : isBlank close = false := by
      rcases List.mem_pair.mp isClose with rfl | rfl <;> decide
    have ends : fromToken (opening ++ ([] ++ (tail ++ close :: rest))) = close :: rest := by
      rw [List.nil_append, ← List.append_assoc]
      exact fromToken_cons (opens.append last) solid rest
    rw [List.map_nil, List.intercalate_nil, enclosed?, ends]
    exact if_pos rfl
  | cons item items =>
    obtain ⟨text, is⟩ : ∃ text, opening ++ ((',' :: between).intercalate
      ((item :: items).map (·.1)) ++ (tail ++ close :: rest)) = text := ⟨_, rfl⟩
    have enough : (item :: items).length ≤ text.length := by
      have few := length_le_intercalate (',' :: between) (Nat.succ_pos _)
        ((item :: items).map (·.1))
      rw [← is]
      simp only [List.length_append, List.length_cons, List.length_map] at few ⊢
      omega
    have found := separated?_joined isClose within last closing reads nofun enough opens rest
    rw [is] at found ⊢
    rw [enclosed?, if_neg (head?_fromToken_ne empty found)]
    exact found

end

/-- A value is not read where a list or an object is closed. -/
theorem value?_closed {close : Char} (isClose : close ∈ [']', '}']) (depth : Nat) {gap : List Char}
    (rest : List Char) (blank : Blank gap) : value? depth (gap ++ close :: rest) = none := by
  simp only [List.mem_cons, List.not_mem_nil, or_false] at isClose
  cases depth with
  | zero => rfl
  | succ depth =>
    rcases isClose with rfl | rfl
    · rw [value?, fromToken_cons blank (by decide)]
      rfl
    · rw [value?, fromToken_cons blank (by decide)]
      rfl

theorem field?_closed {α : Type} (read : List Char → Option (α × List Char)) {gap : List Char}
    (rest : List Char) (blank : Blank gap) : field? read (gap ++ '}' :: rest) = none := by
  rw [field?, fromToken_cons blank (by decide)]
  rfl

section

variable {depth : Nat} {opening between tail : List Char} (opens : Blank opening)
variable (within : Blank between) (last : Blank tail)

include opens within last

theorem reads_list (closing : ∀ rest, Apart (tail ++ ']' :: rest))
    {items : List (List Char × Datum)}
    (reads : ∀ item ∈ items, Reads (value? depth) item.1 item.2) :
    Reads (value? (depth + 1))
      ('[' :: (opening ++ ((',' :: between).intercalate (items.map (·.1)) ++ (tail ++ [']']))))
      (.list (items.map (·.2))) := by
  intro gap rest blank _
  have found := enclosed?_joined (by decide) (fun _ rest => value?_closed (by decide) depth rest)
    within last closing reads opens rest
  have split : '[' :: (opening ++ ((',' :: between).intercalate (items.map (·.1)) ++
      (tail ++ [']']))) ++ rest = '[' :: (opening ++ ((',' :: between).intercalate
        (items.map (·.1)) ++ (tail ++ ']' :: rest))) := by
    simp
  rw [split, value?, fromToken_cons blank (by decide)]
  simp only [found]
  rfl

theorem reads_object (closing : ∀ rest, Apart (tail ++ '}' :: rest))
    {items : List (List Char × String × Datum)}
    (reads : ∀ item ∈ items, Reads (field? (value? depth)) item.1 item.2) :
    Reads (value? (depth + 1))
      ('{' :: (opening ++ ((',' :: between).intercalate (items.map (·.1)) ++ (tail ++ ['}']))))
      (.object (items.map (·.2))) := by
  intro gap rest blank _
  have found := enclosed?_joined (by decide) (fun _ rest => field?_closed (value? depth) rest)
    within last closing reads opens rest
  have split : '{' :: (opening ++ ((',' :: between).intercalate (items.map (·.1)) ++
      (tail ++ ['}']))) ++ rest = '{' :: (opening ++ ((',' :: between).intercalate
        (items.map (·.1)) ++ (tail ++ '}' :: rest))) := by
    simp
  rw [split, value?, fromToken_cons blank (by decide)]
  simp only [found]
  rfl

end

/-! ### Texts over several lines -/

attribute [local simp] Json.prettyChars Json.prettyItems Json.prettyFields

theorem blank_newline (depth : Nat) : Blank (Json.newline depth) := by
  intro c mem
  rcases List.mem_cons.mp mem with rfl | space
  · rfl
  · rw [List.eq_of_mem_replicate space]
    rfl

theorem apart_newline (indent : Nat) {close : Char} (rest : List Char) :
    Apart (Json.newline indent ++ close :: rest) :=
  apart_cons (c := '\n') (by decide) _

/-- A field of an object as it is written. -/
def prettyField (depth : Nat) (field : String × Json) : List Char :=
  quotedChars field.1 ++ ':' :: ' ' :: Json.prettyChars depth field.2

theorem prettyItems_eq (depth : Nat) {items : List Json} (some_item : items ≠ []) :
    Json.prettyItems depth items = Json.newline depth ++
      (',' :: Json.newline depth).intercalate (items.map (Json.prettyChars depth)) := by
  induction items with
  | nil => exact absurd rfl some_item
  | cons item items ih =>
    cases items with
    | nil => simp
    | cons second items =>
      rw [List.map_cons, List.map_cons, List.intercalate_cons_cons, Json.prettyItems, ih nofun]
      · simp
      · simp

theorem prettyFields_eq (depth : Nat) {fields : List (String × Json)} (some_field : fields ≠ []) :
    Json.prettyFields depth fields = Json.newline depth ++
      (',' :: Json.newline depth).intercalate (fields.map (prettyField depth)) := by
  induction fields with
  | nil => exact absurd rfl some_field
  | cons field fields ih =>
    cases fields with
    | nil => simp [prettyField]
    | cons second fields =>
      rw [List.map_cons, List.map_cons, List.intercalate_cons_cons, Json.prettyFields, ih nofun]
      · simp [prettyField]
      · simp

/-- How a list is written that has items. -/
theorem prettyChars_list (indent : Nat) {items : List Json} (some_item : items ≠ []) :
    Json.prettyChars indent (.list items) = '[' :: (Json.newline (indent + 1) ++
      ((',' :: Json.newline (indent + 1)).intercalate (items.map (Json.prettyChars (indent + 1))) ++
        (Json.newline indent ++ [']']))) := by
  rw [Json.prettyChars, prettyItems_eq (indent + 1) some_item]
  · simp
  · exact some_item

/-- How an object is written that has fields. -/
theorem prettyChars_object (indent : Nat) {fields : List (String × Json)}
    (some_field : fields ≠ []) :
    Json.prettyChars indent (.object fields) = '\x7b' :: (Json.newline (indent + 1) ++
      ((',' :: Json.newline (indent + 1)).intercalate (fields.map (prettyField (indent + 1))) ++
        (Json.newline indent ++ ['\x7d']))) := by
  rw [Json.prettyChars, prettyFields_eq (indent + 1) some_field]
  · simp
  · exact some_field

/-- To read a value takes a step. -/
theorem exists_succ {value : Json} {indent depth : Nat}
    (enough : (Json.prettyChars indent value).length ≤ depth) : ∃ fewer, depth = fewer + 1 := by
  have written : Json.prettyChars indent value ≠ [] := by
    cases value with
    | number n => simp [Nat.toDigits_ne_nil]
    | text s => simp [quotedChars]
    | list items => cases items <;> simp
    | object fields => cases fields <;> simp
  have pos := List.length_pos_iff.mpr written
  exact Nat.exists_eq_add_one_of_ne_zero (by omega)

/-- No part of a text is longer than the text. -/
theorem length_le_of_mem (separator : List Char) {part : List Char} {parts : List (List Char)}
    (mem : part ∈ parts) : part.length ≤ (separator.intercalate parts).length := by
  induction parts with
  | nil => exact absurd mem List.not_mem_nil
  | cons first parts ih =>
    cases parts with
    | nil =>
      rw [List.mem_singleton.mp mem, List.intercalate_singleton]
    | cons second parts =>
      rw [List.intercalate_cons_cons, List.length_append, List.length_append]
      rcases List.mem_cons.mp mem with rfl | later
      · omega
      · have := ih later
        omega

/-- What holds of a list if it holds of its items, and likewise of objects, holds of every value. -/
@[elab_as_elim]
theorem json_induction {motive : Json → Prop} (number : ∀ n, motive (.number n))
    (text : ∀ s, motive (.text s))
    (list : ∀ items, (∀ item ∈ items, motive item) → motive (.list items))
    (object : ∀ fields, (∀ field ∈ fields, motive field.2) → motive (.object fields)) :
    ∀ value, motive value
  | .number n => number n
  | .text s => text s
  | .list items => list items fun item _ => json_induction number text list object item
  | .object fields => object fields fun field _ => json_induction number text list object field.2
decreasing_by
  · have := List.sizeOf_lt_of_mem ‹item ∈ items›
    simp
    omega
  · have := List.sizeOf_lt_of_mem ‹field ∈ fields›
    obtain ⟨key, value⟩ := field
    simp at this ⊢
    omega

theorem reads_prettyList (indent depth : Nat) {items : List Json}
    (enough : (Json.prettyChars indent (.list items)).length ≤ depth + 1)
    (reads : ∀ item ∈ items, (Json.prettyChars (indent + 1) item).length ≤ depth →
      Reads (value? depth) (Json.prettyChars (indent + 1) item) item.datum) :
    Reads (value? (depth + 1)) (Json.prettyChars indent (.list items))
      (.list (items.map Json.datum)) := by
  rcases eq_or_ne items [] with rfl | some_item
  · have none : ∀ part ∈ ([] : List (List Char × Datum)), Reads (value? depth) part.1 part.2 := nofun
    exact reads_list blank_nil blank_nil blank_nil (apart_cons (by decide)) none
  · rw [prettyChars_list indent some_item] at enough ⊢
    simp only [List.length_cons, List.length_append] at enough
    let parts := items.map fun item => (Json.prettyChars (indent + 1) item, item.datum)
    have each : ∀ part ∈ parts, Reads (value? depth) part.1 part.2 := by
      intro part isPart
      obtain ⟨item, mem, rfl⟩ := List.mem_map.mp isPart
      have short := length_le_of_mem (',' :: Json.newline (indent + 1))
        (List.mem_map_of_mem (f := Json.prettyChars (indent + 1)) mem)
      exact reads item mem (by omega)
    have list := reads_list (blank_newline (indent + 1)) (blank_newline (indent + 1))
      (blank_newline indent) (apart_newline indent) each
    simpa [parts, Function.comp_def] using list

theorem reads_prettyObject (indent depth : Nat) {fields : List (String × Json)}
    (enough : (Json.prettyChars indent (.object fields)).length ≤ depth + 1)
    (reads : ∀ field ∈ fields, (Json.prettyChars (indent + 1) field.2).length ≤ depth →
      Reads (value? depth) (Json.prettyChars (indent + 1) field.2) field.2.datum) :
    Reads (value? (depth + 1)) (Json.prettyChars indent (.object fields))
      (.object (fields.map fun field => (field.1, field.2.datum))) := by
  rcases eq_or_ne fields [] with rfl | some_field
  · have none : ∀ part ∈ ([] : List (List Char × String × Datum)),
        Reads (field? (value? depth)) part.1 part.2 := nofun
    exact reads_object blank_nil blank_nil blank_nil (apart_cons (by decide)) none
  · rw [prettyChars_object indent some_field] at enough ⊢
    simp only [List.length_cons, List.length_append] at enough
    let parts := fields.map fun field => (prettyField (indent + 1) field, field.1, field.2.datum)
    have each : ∀ part ∈ parts, Reads (field? (value? depth)) part.1 part.2 := by
      intro part isPart
      obtain ⟨field, mem, rfl⟩ := List.mem_map.mp isPart
      have short := length_le_of_mem (',' :: Json.newline (indent + 1))
        (List.mem_map_of_mem (f := prettyField (indent + 1)) mem)
      have shorter : (Json.prettyChars (indent + 1) field.2).length ≤
          (prettyField (indent + 1) field).length := by
        simp [prettyField]
        omega
      exact reads_field (reads field mem (by omega)) field.1
    have object := reads_object (blank_newline (indent + 1)) (blank_newline (indent + 1))
      (blank_newline indent) (apart_newline indent) each
    simpa [parts, Function.comp_def] using object

/-- What is written over several lines is read, whatever follows it apart. -/
theorem reads_pretty (value : Json) {indent depth : Nat}
    (enough : (Json.prettyChars indent value).length ≤ depth) :
    Reads (value? depth) (Json.prettyChars indent value) value.datum := by
  obtain ⟨depth, rfl⟩ := exists_succ enough
  induction value using json_induction generalizing indent depth with
  | number n =>
    have written : Json.prettyChars indent (.number n) = Nat.toDigits 10 n := by
      simp
    rw [written, Json.datum]
    exact reads_number depth n
  | text s =>
    rw [Json.prettyChars, Json.datum]
    exact reads_text depth s
  | list items ih =>
    rw [Json.datum]
    refine reads_prettyList indent depth enough fun item mem shorter => ?_
    obtain ⟨depth, rfl⟩ := exists_succ shorter
    exact ih item mem depth shorter
  | object fields ih =>
    rw [Json.datum]
    refine reads_prettyObject indent depth enough fun field mem shorter => ?_
    obtain ⟨depth, rfl⟩ := exists_succ shorter
    exact ih field mem depth shorter

/-- A whole text is read, if its value is and nothing stands behind it. -/
theorem read?_of_reads {text : String} {value : Datum}
    (reads : Reads (value? text.length) text.toList value) : read? text = some value := by
  have found := reads [] [] blank_nil nofun
  rw [List.nil_append, List.append_nil] at found
  rw [read?, found]
  rfl

end JsonReader

/-- What is written over several lines means the value that was written. -/
theorem Json.read?_pretty (value : Json) : JsonReader.read? value.pretty = some value.datum := by
  apply JsonReader.read?_of_reads
  rw [pretty, String.toList_ofList]
  exact JsonReader.reads_pretty value (Nat.le_of_eq (String.length_ofList ..).symm)

example : JsonReader.read? "[-1.50E+2, \"\\ud83d\\ude00\\/\", null]" =
    some (.list [.number ⟨true, 1, ['5', '0'], 2⟩, .text "😀/", .null]) := by
  rfl

/-- No number begins with an idle nought, and half of a pair is no character. -/
example : JsonReader.read? "[01]" = none ∧ JsonReader.read? "\"\\ud83d\"" = none :=
  ⟨rfl, rfl⟩

end ModuleBundler.Text

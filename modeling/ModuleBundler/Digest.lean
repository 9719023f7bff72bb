/-
# ModuleBundler.Digest — fingerprints of texts.

SHA-256: the bytes are padded to whole blocks of 64, and every block is compressed into a state of
eight words.  The fingerprint is the last state in lower-case hexadecimal digits.
-/
import ModuleBundler.Text.Quoted

namespace ModuleBundler.Digest

/-- The eight words that are carried from block to block. -/
structure State where
  a : UInt32
  b : UInt32
  c : UInt32
  d : UInt32
  e : UInt32
  f : UInt32
  g : UInt32
  h : UInt32
  deriving DecidableEq, Repr

/-- The words that the first block begins with. -/
def State.initial : State :=
  { a := 0x6a09e667, b := 0xbb67ae85, c := 0x3c6ef372, d := 0xa54ff53a
    e := 0x510e527f, f := 0x9b05688c, g := 0x1f83d9ab, h := 0x5be0cd19 }

/-- One constant for each of the 64 rounds. -/
def roundConstants : List UInt32 :=
  [ 0x428a2f98, 0x71374491, 0xb5c0fbcf, 0xe9b5dba5, 0x3956c25b, 0x59f111f1, 0x923f82a4, 0xab1c5ed5,
    0xd807aa98, 0x12835b01, 0x243185be, 0x550c7dc3, 0x72be5d74, 0x80deb1fe, 0x9bdc06a7, 0xc19bf174,
    0xe49b69c1, 0xefbe4786, 0x0fc19dc6, 0x240ca1cc, 0x2de92c6f, 0x4a7484aa, 0x5cb0a9dc, 0x76f988da,
    0x983e5152, 0xa831c66d, 0xb00327c8, 0xbf597fc7, 0xc6e00bf3, 0xd5a79147, 0x06ca6351, 0x14292967,
    0x27b70a85, 0x2e1b2138, 0x4d2c6dfc, 0x53380d13, 0x650a7354, 0x766a0abb, 0x81c2c92e, 0x92722c85,
    0xa2bfe8a1, 0xa81a664b, 0xc24b8b70, 0xc76c51a3, 0xd192e819, 0xd6990624, 0xf40e3585, 0x106aa070,
    0x19a4c116, 0x1e376c08, 0x2748774c, 0x34b0bcb5, 0x391c0cb3, 0x4ed8aa4a, 0x5b9cca4f, 0x682e6ff3,
    0x748f82ee, 0x78a5636f, 0x84c87814, 0x8cc70208, 0x90befffa, 0xa4506ceb, 0xbef9a3f7, 0xc67178f2 ]

/-- Turns the bits of a word to the right. -/
def rotated (word : UInt32) (by_ : UInt32) : UInt32 :=
  (word >>> by_) ||| (word <<< (32 - by_))

/-- The words of the rounds, from a window of the next sixteen of them. -/
def schedule : (rounds : Nat) → (window : List UInt32) → List UInt32
  | 0, _ => []
  | _, [] => []
  | rounds + 1, first :: rest =>
    let early := rest.getD 0 0
    let middle := rest.getD 8 0
    let late := rest.getD 13 0
    let next := first + (rotated early 7 ^^^ rotated early 18 ^^^ (early >>> 3)) + middle +
      (rotated late 17 ^^^ rotated late 19 ^^^ (late >>> 10))
    first :: schedule rounds (rest ++ [next])

/-- One round: mixes a word and its constant into the state. -/
def State.round (s : State) (word constant : UInt32) : State :=
  let t1 := s.h + (rotated s.e 6 ^^^ rotated s.e 11 ^^^ rotated s.e 25) +
    ((s.e &&& s.f) ^^^ ((~~~ s.e) &&& s.g)) + constant + word
  let t2 := (rotated s.a 2 ^^^ rotated s.a 13 ^^^ rotated s.a 22) +
    ((s.a &&& s.b) ^^^ (s.a &&& s.c) ^^^ (s.b &&& s.c))
  { a := t1 + t2, b := s.a, c := s.b, d := s.c, e := s.d + t1, f := s.e, g := s.f, h := s.g }

/-- Adds two states word by word. -/
def State.add (s t : State) : State :=
  { a := s.a + t.a, b := s.b + t.b, c := s.c + t.c, d := s.d + t.d
    e := s.e + t.e, f := s.f + t.f, g := s.g + t.g, h := s.h + t.h }

/-- Compresses a block of sixteen words into the state. -/
def State.compress (s : State) (block : List UInt32) : State :=
  let words := schedule 64 block
  s.add ((words.zip roundConstants).foldl (fun t pair => t.round pair.1 pair.2) s)

/-- Bytes taken four at a time, the first the highest. -/
def wordsOf : List UInt8 → List UInt32
  | a :: b :: c :: d :: rest =>
    ((a.toUInt32 <<< 24) ||| (b.toUInt32 <<< 16) ||| (c.toUInt32 <<< 8) ||| d.toUInt32) ::
      wordsOf rest
  | _ => []

/-- The bytes of a number, a given count of them, the highest first. -/
def bytesOf (value : Nat) : (count : Nat) → List UInt8
  | 0 => []
  | count + 1 => UInt8.ofNat (value / 256 ^ count) :: bytesOf value count

/-- Bytes with a closing mark, as many zeros as fill up a block, and their count in bits. -/
def padded (bytes : List UInt8) : List UInt8 :=
  let zeros := (119 - bytes.length % 64) % 64
  bytes ++ 0x80 :: List.replicate zeros 0 ++ bytesOf (8 * bytes.length) 8

/-- Compresses blocks of words, up to a number of them. -/
def compressAll : (blocks : Nat) → State → List UInt32 → State
  | 0, state, _ => state
  | blocks + 1, state, words =>
    compressAll blocks (state.compress (words.take 16)) (words.drop 16)

/-- The lower-case hexadecimal digits of a word. -/
def hexDigits (word : UInt32) : List Char :=
  (bytesOf word.toNat 4).flatMap fun byte =>
    [Text.hexDigit (byte.toNat / 16), Text.hexDigit (byte.toNat % 16)]

/-- The fingerprint of some bytes. -/
def ofBytes (bytes : List UInt8) : String :=
  let bytes := padded bytes
  let s := compressAll (bytes.length / 64) State.initial (wordsOf bytes)
  String.ofList ([s.a, s.b, s.c, s.d, s.e, s.f, s.g, s.h].flatMap hexDigits)

/-- The fingerprint of a text. -/
def ofText (text : String) : String :=
  ofBytes text.toUTF8.toList

end ModuleBundler.Digest

import HtmlTemplate.Text.Character

/-!
# Digests and stamps

The key under which output is generated is a digest, and stored output is stamped with it.
-/

namespace HtmlTemplate

/-!
## Digests

The digest SHA-256 of a sequence of bytes: the bytes are filled up to blocks of sixty-four, and each block
is mixed into eight words in sixty-four rounds.
-/

namespace Digest

/-- The constants of the rounds: the first bits of the fractions of the cube roots of the first primes. -/
def roundConstants : List UInt32 :=
  [0x428A2F98, 0x71374491, 0xB5C0FBCF, 0xE9B5DBA5, 0x3956C25B, 0x59F111F1, 0x923F82A4, 0xAB1C5ED5,
   0xD807AA98, 0x12835B01, 0x243185BE, 0x550C7DC3, 0x72BE5D74, 0x80DEB1FE, 0x9BDC06A7, 0xC19BF174,
   0xE49B69C1, 0xEFBE4786, 0x0FC19DC6, 0x240CA1CC, 0x2DE92C6F, 0x4A7484AA, 0x5CB0A9DC, 0x76F988DA,
   0x983E5152, 0xA831C66D, 0xB00327C8, 0xBF597FC7, 0xC6E00BF3, 0xD5A79147, 0x06CA6351, 0x14292967,
   0x27B70A85, 0x2E1B2138, 0x4D2C6DFC, 0x53380D13, 0x650A7354, 0x766A0ABB, 0x81C2C92E, 0x92722C85,
   0xA2BFE8A1, 0xA81A664B, 0xC24B8B70, 0xC76C51A3, 0xD192E819, 0xD6990624, 0xF40E3585, 0x106AA070,
   0x19A4C116, 0x1E376C08, 0x2748774C, 0x34B0BCB5, 0x391C0CB3, 0x4ED8AA4A, 0x5B9CCA4F, 0x682E6FF3,
   0x748F82EE, 0x78A5636F, 0x84C87814, 0x8CC70208, 0x90BEFFFA, 0xA4506CEB, 0xBEF9A3F7, 0xC67178F2]

/-- The eight words that blocks are mixed into. -/
structure Words where
  a : UInt32
  b : UInt32
  c : UInt32
  d : UInt32
  e : UInt32
  f : UInt32
  g : UInt32
  h : UInt32
  deriving DecidableEq, Repr

namespace Words

/-- The words at the start: the first bits of the fractions of the square roots of the first primes. -/
def start : Words :=
  { a := 0x6A09E667, b := 0xBB67AE85, c := 0x3C6EF372, d := 0xA54FF53A
    e := 0x510E527F, f := 0x9B05688C, g := 0x1F83D9AB, h := 0x5BE0CD19 }

/-- The sums of two eights of words. -/
def add (left right : Words) : Words :=
  { a := left.a + right.a, b := left.b + right.b, c := left.c + right.c, d := left.d + right.d
    e := left.e + right.e, f := left.f + right.f, g := left.g + right.g, h := left.h + right.h }

/-- The words in order. -/
def toList (words : Words) : List UInt32 :=
  [words.a, words.b, words.c, words.d, words.e, words.f, words.g, words.h]

end Words

/-- A word turned to the right. -/
def turn (word amount : UInt32) : UInt32 :=
  (word >>> amount) ||| (word <<< (32 - amount))

/-- A round of the mixing, for a word of the block and the constant of the round. -/
def mix (words : Words) (word constant : UInt32) : Words :=
  let choice := (words.e &&& words.f) ^^^ (~~~words.e &&& words.g)
  let majority := (words.a &&& words.b) ^^^ (words.a &&& words.c) ^^^ (words.b &&& words.c)
  let first := words.h + (turn words.e 6 ^^^ turn words.e 11 ^^^ turn words.e 25) + choice + constant + word
  let second := (turn words.a 2 ^^^ turn words.a 13 ^^^ turn words.a 22) + majority
  { a := first + second, b := words.a, c := words.b, d := words.c
    e := words.d + first, f := words.e, g := words.f, h := words.g }

/-- The word that follows sixteen others. -/
def nextWord (window : List UInt32) : UInt32 :=
  let early := window.getD 1 0
  let late := window.getD 14 0
  window.getD 0 0 + (turn early 7 ^^^ turn early 18 ^^^ (early >>> 3)) + window.getD 9 0 +
    (turn late 17 ^^^ turn late 19 ^^^ (late >>> 10))

/-- The rounds of the mixing, with the sixteen words that come next. -/
def mixAll : List UInt32 → Words → List UInt32 → Words
  | [], words, _ => words
  | constant :: constants, words, window =>
      mixAll constants (mix words (window.headD 0) constant) (window.drop 1 ++ [nextWord window])

/-- Bytes as words, four bytes each. -/
def wordsOf : List UInt8 → List UInt32
  | first :: second :: third :: fourth :: rest =>
      ((first.toUInt32 <<< 24) ||| (second.toUInt32 <<< 16) ||| (third.toUInt32 <<< 8) |||
        fourth.toUInt32) :: wordsOf rest
  | _ => []

/-- Mixes blocks of sixteen words into the words. The budget bounds the number of blocks. -/
def mixBlocks : Nat → Words → List UInt32 → Words
  | 0, words, _ => words
  | budget + 1, words, blocks =>
      if blocks.isEmpty then words
      else mixBlocks budget (words.add (mixAll roundConstants words (blocks.take 16))) (blocks.drop 16)

/-- A number as bytes, the last `count` of them. -/
def bytesOf (count number : Nat) : List UInt8 :=
  (List.range count).reverse.map fun place => UInt8.ofNat (number >>> (8 * place))

/-- Bytes filled up to whole blocks: a mark, zeros, and the number of bits. -/
def fill (bytes : List UInt8) : List UInt8 :=
  let zeros := (119 - bytes.length % 64) % 64
  bytes ++ [0x80] ++ List.replicate zeros 0 ++ bytesOf 8 (8 * bytes.length)

/-- The digest of bytes. -/
def sha256 (bytes : List UInt8) : List UInt8 :=
  let blocks := wordsOf (fill bytes)
  (mixBlocks blocks.length .start blocks).toList.flatMap fun word => bytesOf 4 word.toNat

/-- The digest of bytes, written in base sixteen. -/
def hexSha256 (bytes : List UInt8) : String :=
  String.ofList ((sha256 bytes).flatMap fun byte => Text.hexPadded 2 byte.toNat)

/-- The bytes of a text. -/
def textBytes (text : String) : List UInt8 :=
  text.toList.flatMap String.utf8EncodeChar

end Digest

/-!
## Stamps

Stored output starts with a line that holds the key under which it was generated. Output without this
line, or with another key, does not count.
-/

namespace Stamp

/-- What stands before the key. -/
def mark : String :=
  "// source-sha256: "

/-- Code as it is stored. -/
def write (key code : String) : String :=
  mark ++ key ++ "\n" ++ code

/-- The code of stored output, if it was generated under the key. -/
def read? (key stored : String) : Option String :=
  let text := stored.toList
  let line := text.takeWhile fun c => c != '\n'
  match text.drop line.length with
  | [] => none
  | _ :: code => if line == (mark ++ key).toList then some (String.ofList code) else none

end Stamp

/-- The path of the output of a template. -/
def outputPath (template suffix : String) : String :=
  template ++ suffix

end HtmlTemplate

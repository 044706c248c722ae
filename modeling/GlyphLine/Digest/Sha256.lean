import GlyphLine.Text.Utf8

/-!
# SHA-256

The hash function of FIPS 180-4 on sequences of bytes, and the fingerprint of a text:
the sixty-four hexadecimal digits of the hash of its UTF-8 bytes.

A message is padded to whole blocks of sixty-four bytes; each block is stretched to a
schedule of sixty-four words, which drive sixty-four rounds on a state of eight words.
-/

namespace GlyphLine
namespace Digest

/-- The first thirty-two bits of the fractional parts of the cube roots of the first
sixty-four primes. -/
def roundConstants : List UInt32 := [
  0x428a2f98, 0x71374491, 0xb5c0fbcf, 0xe9b5dba5, 0x3956c25b, 0x59f111f1, 0x923f82a4, 0xab1c5ed5,
  0xd807aa98, 0x12835b01, 0x243185be, 0x550c7dc3, 0x72be5d74, 0x80deb1fe, 0x9bdc06a7, 0xc19bf174,
  0xe49b69c1, 0xefbe4786, 0x0fc19dc6, 0x240ca1cc, 0x2de92c6f, 0x4a7484aa, 0x5cb0a9dc, 0x76f988da,
  0x983e5152, 0xa831c66d, 0xb00327c8, 0xbf597fc7, 0xc6e00bf3, 0xd5a79147, 0x06ca6351, 0x14292967,
  0x27b70a85, 0x2e1b2138, 0x4d2c6dfc, 0x53380d13, 0x650a7354, 0x766a0abb, 0x81c2c92e, 0x92722c85,
  0xa2bfe8a1, 0xa81a664b, 0xc24b8b70, 0xc76c51a3, 0xd192e819, 0xd6990624, 0xf40e3585, 0x106aa070,
  0x19a4c116, 0x1e376c08, 0x2748774c, 0x34b0bcb5, 0x391c0cb3, 0x4ed8aa4a, 0x5b9cca4f, 0x682e6ff3,
  0x748f82ee, 0x78a5636f, 0x84c87814, 0x8cc70208, 0x90befffa, 0xa4506ceb, 0xbef9a3f7, 0xc67178f2]

/-- The eight words of the chaining state. -/
structure State where
  a : UInt32
  b : UInt32
  c : UInt32
  d : UInt32
  e : UInt32
  f : UInt32
  g : UInt32
  h : UInt32
  deriving DecidableEq, Repr

/-- The state before the first block: the fractional parts of the square roots of the
first eight primes. -/
def State.initial : State :=
  ⟨0x6a09e667, 0xbb67ae85, 0x3c6ef372, 0xa54ff53a, 0x510e527f, 0x9b05688c, 0x1f83d9ab, 0x5be0cd19⟩

/-- Rotation of a word to the right. -/
def rotate (x : UInt32) (n : UInt32) : UInt32 := (x >>> n) ||| (x <<< (32 - n))

/-- One round with its constant and its word of the schedule. -/
def State.round (s : State) (k w : UInt32) : State :=
  let s1 := rotate s.e 6 ^^^ rotate s.e 11 ^^^ rotate s.e 25
  let choice := (s.e &&& s.f) ^^^ (~~~s.e &&& s.g)
  let t1 := s.h + s1 + choice + k + w
  let s0 := rotate s.a 2 ^^^ rotate s.a 13 ^^^ rotate s.a 22
  let majority := (s.a &&& s.b) ^^^ (s.a &&& s.c) ^^^ (s.b &&& s.c)
  ⟨t1 + (s0 + majority), s.a, s.b, s.c, s.d + t1, s.e, s.f, s.g⟩

/-- The sum of two states, word by word. -/
def State.add (s t : State) : State :=
  ⟨s.a + t.a, s.b + t.b, s.c + t.c, s.d + t.d, s.e + t.e, s.f + t.f, s.g + t.g, s.h + t.h⟩

/-- The next word of a schedule, from the words before it, the latest first. -/
def nextWord (latest : List UInt32) : UInt32 :=
  let w15 := latest.getD 14 0
  let w2 := latest.getD 1 0
  let s0 := rotate w15 7 ^^^ rotate w15 18 ^^^ (w15 >>> 3)
  let s1 := rotate w2 17 ^^^ rotate w2 19 ^^^ (w2 >>> 10)
  latest.getD 15 0 + s0 + latest.getD 6 0 + s1

/-- The schedule of a block: its sixteen words and `n` more. -/
def schedule (n : Nat) (latest : List UInt32) : List UInt32 :=
  match n with
  | 0 => latest.reverse
  | n + 1 => schedule n (nextWord latest :: latest)

/-- Four bytes as one word, the most significant byte first. -/
def words : List UInt8 → List UInt32
  | w :: x :: y :: z :: rest =>
    (w.toUInt32 <<< 24 ||| x.toUInt32 <<< 16 ||| y.toUInt32 <<< 8 ||| z.toUInt32) :: words rest
  | _ => []

/-- The state after one block. -/
def State.absorb (s : State) (block : List UInt8) : State :=
  let ws := schedule 48 (words block).reverse
  s.add ((roundConstants.zip ws).foldl (fun t kw => t.round kw.1 kw.2) s)

/-- The `n` low bytes of a number, the most significant first. -/
def bigEndian (n value : Nat) : List UInt8 :=
  (List.range n).map fun i => UInt8.ofNat (value >>> (8 * (n - 1 - i)))

/-- A message, a one bit, zeros, and the message's length in bits: whole blocks. -/
def pad (message : List UInt8) : List UInt8 :=
  let size := message.length
  message ++ 0x80 :: List.replicate ((119 - size % 64) % 64) 0 ++ bigEndian 8 (size * 8)

/-- The state after the first `n` blocks of `bytes`. -/
def State.absorbBlocks (s : State) (n : Nat) (bytes : List UInt8) : State :=
  match n with
  | 0 => s
  | n + 1 => (s.absorb (bytes.take 64)).absorbBlocks n (bytes.drop 64)

/-- The thirty-two bytes of the hash of a message. -/
def sha256 (message : List UInt8) : List UInt8 :=
  let padded := pad message
  let s := State.initial.absorbBlocks (padded.length / 64) padded
  [s.a, s.b, s.c, s.d, s.e, s.f, s.g, s.h].flatMap fun w => bigEndian 4 w.toNat

/-- A byte as two hexadecimal digits. -/
def hexByte (b : UInt8) : List Char :=
  [Nat.digitChar (b.toNat / 16), Nat.digitChar (b.toNat % 16)]

/-- The hexadecimal digits of the hash of a text. -/
def fingerprint (s : String) : String :=
  String.ofList ((sha256 (Text.encode s)).flatMap hexByte)

end Digest
end GlyphLine

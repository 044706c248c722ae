/-!
# UTF-8

Bytes are read as a sequence of *parts*: a part is a character, or a maximal run of
bytes that begins like a character and is none (one lead byte with the continuation
bytes that may still follow it, or one byte that cannot begin a character).

* `parts`: the parts of a sequence of bytes.
* `decodeLossy`: the text with U+FFFD for every part that is no character.
* `decode?`: the text, if every part is a character.
-/

namespace GlyphLine
namespace Text

/-- What a lead byte announces: how many continuation bytes follow, the range of the
first of them, and the bits of the character that the lead byte holds.  The narrower
ranges keep out overlong forms, surrogates and numbers above U+10FFFF. -/
def leadByte (b : UInt8) : Option (Nat × UInt8 × UInt8 × Nat) :=
  if b < 0x80 then some (0, 0, 0, b.toNat)
  else if b < 0xC2 then none
  else if b < 0xE0 then some (1, 0x80, 0xBF, b.toNat - 0xC0)
  else if b = 0xE0 then some (2, 0xA0, 0xBF, 0)
  else if b = 0xED then some (2, 0x80, 0x9F, 0xD)
  else if b < 0xF0 then some (2, 0x80, 0xBF, b.toNat - 0xE0)
  else if b = 0xF0 then some (3, 0x90, 0xBF, 0)
  else if b < 0xF4 then some (3, 0x80, 0xBF, b.toNat - 0xF0)
  else if b = 0xF4 then some (3, 0x80, 0x8F, 4)
  else none

/-- The continuation bytes of one character: the next one must lie between `low` and
`high`, later ones between `0x80` and `0xBF`.  The first byte that does not fit is
left over, and there is no character then. -/
def continuation (n : Nat) (low high : UInt8) (value : Nat) (bytes : List UInt8) :
    Option Char × List UInt8 :=
  match n, bytes with
  | 0, rest => (some (Char.ofNat value), rest)
  | _ + 1, [] => (none, [])
  | n + 1, b :: rest =>
    if low ≤ b && b ≤ high then continuation n 0x80 0xBF (value * 64 + b.toNat % 64) rest
    else (none, b :: rest)

/-- The part that begins with the byte `b`, and the bytes after it. -/
def headPart (b : UInt8) (rest : List UInt8) : Option Char × List UInt8 :=
  match leadByte b with
  | none => (none, rest)
  | some (n, low, high, value) => continuation n low high value rest

theorem continuation_length (n : Nat) (low high : UInt8) (value : Nat) (bytes : List UInt8) :
    (continuation n low high value bytes).2.length ≤ bytes.length := by
  induction n generalizing low high value bytes with
  | zero => simp [continuation]
  | succ n ih =>
    cases bytes with
    | nil => simp [continuation]
    | cons b rest =>
      rw [continuation]
      split
      · exact Nat.le_trans (ih ..) (Nat.le_succ _)
      · exact Nat.le_refl _

theorem headPart_length (b : UInt8) (rest : List UInt8) :
    (headPart b rest).2.length ≤ rest.length := by
  unfold headPart
  split
  · exact Nat.le_refl _
  · exact continuation_length ..

/-- The parts of `bytes`, behind the parts already read, which stand in reverse order. -/
def partsAfter (read : List (Option Char)) : List UInt8 → List (Option Char)
  | [] => read.reverse
  | b :: rest => partsAfter ((headPart b rest).1 :: read) (headPart b rest).2
termination_by bytes => bytes.length
decreasing_by
  have := headPart_length b rest
  simp only [List.length_cons]
  omega

/-- The parts of a sequence of bytes, in order. -/
def parts (bytes : List UInt8) : List (Option Char) := partsAfter [] bytes

/-- The text of the bytes, with one U+FFFD for every part that is no character. -/
def decodeLossy (bytes : List UInt8) : String :=
  String.ofList ((parts bytes).map fun p => p.getD '\uFFFD')

/-- The text of the bytes, if they are UTF-8. -/
def decode? (bytes : List UInt8) : Option String :=
  let ps := parts bytes
  if ps.all Option.isSome then some (String.ofList (ps.filterMap id)) else none

/-- The UTF-8 bytes of a text. -/
def encode (s : String) : List UInt8 := s.toUTF8.toList

end Text
end GlyphLine

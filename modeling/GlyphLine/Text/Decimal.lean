import GlyphLine.Width

/-!
# Decimal digits

* `digitsValue`: the number that digits stand for.
* `count?`: the number of a text, if it fits into sixty-four bits.
-/

namespace GlyphLine
namespace Text

/-- The value of a digit. -/
def digitValue (c : Char) : Nat := c.toNat - '0'.toNat

/-- The number that digits stand for. -/
def digitsValue (ds : List Char) : Nat := ds.foldl (fun n c => n * 10 + digitValue c) 0

/-- The number of at least one digit, if it fits into sixty-four bits. -/
def countOfDigits? (ds : List Char) : Option Nat :=
  if ds.isEmpty || !ds.all Char.isDigit || Width.size 64 ≤ digitsValue ds then none
  else some (digitsValue ds)

/-- The number of digits, which may have a plus sign in front of them. -/
def count? (s : String) : Option Nat :=
  match s.toList with
  | '+' :: ds => countOfDigits? ds
  | ds => countOfDigits? ds

end Text
end GlyphLine

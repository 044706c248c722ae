/-!
# Whole numbers of a width

Formats hold whole numbers in a fixed number of bits, with a sign or without.

* `Width.isSigned`, `Width.isUnsigned`: the numbers of a width.
* `Width.fits`: the numbers that have one of these forms.
-/

namespace GlyphLine
namespace Width

/-- How many numbers there are of a width. -/
def size (bits : Nat) : Nat := Nat.pow 2 bits

/-- Whether a number is a signed one: below half the size, and no less than its
opposite. -/
def isSigned (bits : Nat) (n : Int) : Bool :=
  -(size (bits - 1) : Int) ≤ n && n < (size (bits - 1) : Int)

/-- Whether a number is an unsigned one. -/
def isUnsigned (bits : Nat) (n : Int) : Bool := 0 ≤ n && n < (size bits : Int)

/-- Whether a number is a signed or an unsigned one. -/
def fits (bits : Nat) (n : Int) : Bool := isSigned bits n || isUnsigned bits n

/-- The greatest unsigned number. -/
def greatest (bits : Nat) : Nat := size bits - 1

end Width
end GlyphLine

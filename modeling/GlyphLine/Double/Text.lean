import GlyphLine.Double.Shortest

/-!
# Written forms of a double

There are two.  The *plain* form never has an exponent: a whole number is written with
all its digits and `.0`, any other number with its shortest digits.  The *compact* form
is the one of JSON texts: shortest digits, with an exponent when the point would stand
more than sixteen digits to the right or more than four zeros to the left.

* `plain`: the form of a scalar in a policy.
* `compact`: the form of a number in a JSON text.
-/

namespace GlyphLine
namespace Double

/-- The decimal digits of a natural number. -/
def digitsOf (n : Nat) : List Char := Nat.toDigits 10 n

/-- Digits with the point behind the first `point` of them, zeros filled in on either
side; at least one digit stands before the point, and `.0` ends a whole number. -/
def withPoint (digits : List Char) (point : Int) : List Char :=
  if point ≤ 0 then '0' :: '.' :: List.replicate (-point).toNat '0' ++ digits
  else
    let p := point.toNat
    if digits.length ≤ p then
      digits ++ List.replicate (p - digits.length) '0' ++ ['.', '0']
    else digits.take p ++ '.' :: digits.drop p

/-- A minus sign, if there is one. -/
def sign (negative : Bool) : List Char := if negative then ['-'] else []

/-- The plain form: all digits of a whole number, the shortest digits of another one,
and never an exponent. -/
def plain : Double → String
  | .nan => "nan"
  | .infinite negative => if negative then "-inf" else "inf"
  | .finite negative m e =>
    if isWhole (.finite negative m e) then
      let whole := if 0 ≤ e then m * Nat.pow 2 e.toNat else m / Nat.pow 2 (-e).toNat
      String.ofList (sign negative ++ digitsOf whole ++ ['.', '0'])
    else
      let (n, k) := shortest m e
      let digits := digitsOf n
      String.ofList (sign negative ++ withPoint digits (digits.length + k))

/-- Digits with the point behind the first one, and an exponent with its sign. -/
def withExponent (digits : List Char) (exponent : Int) : List Char :=
  let mantissa := match digits with
    | d :: e :: rest => d :: '.' :: e :: rest
    | ds => ds
  mantissa ++ 'e' :: (if exponent < 0 then '-' else '+') :: digitsOf exponent.natAbs

/-- The compact form.  A value that is no finite number is written `null`. -/
def compact : Double → String
  | .finite negative m e =>
    let (n, k) := shortest m e
    let digits := digitsOf n
    let point : Int := digits.length + k
    let body :=
      if m = 0 then ['0', '.', '0']
      else if -5 < point && point ≤ 16 then withPoint digits point
      else withExponent digits (point - 1)
    String.ofList (sign negative ++ body)
  | _ => "null"

end Double
end GlyphLine

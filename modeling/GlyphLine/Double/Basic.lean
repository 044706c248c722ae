/-!
# Double-precision numbers

A number of the binary format with fifty-three significant bits is a sign, a whole
mantissa and a power of two; beside these there are the two infinities and one value
for everything that is no number.  All arithmetic is done exactly on natural numbers
and then rounded once.

* `ofRatio`: the double nearest to a quotient of natural numbers, ties to the even
  mantissa.
* `ofNat`, `ofDecimal`: the same for a natural number and for digits with a power of
  ten.
* `mul`, `div`: the exact product and quotient, rounded.
-/

namespace GlyphLine

/-- A double-precision number.  `finite n m e` stands for `±m * 2 ^ e`, with the minus
sign if `n`; `m` is below `2 ^ 53` and `e` is at least `-1074`. -/
inductive Double where
  | nan
  | infinite (negative : Bool)
  | finite (negative : Bool) (mantissa : Nat) (exponent : Int)
  deriving DecidableEq, Repr, Inhabited

namespace Double

/-- The least exponent of a finite double. -/
def leastExponent : Int := -1074

/-- The greatest exponent of a finite double. -/
def greatestExponent : Int := 971

/-- Zero, with a sign. -/
def zero (negative : Bool) : Double := .finite negative 0 leastExponent

/-- The quotient `num / (den * 2 ^ e)` as a quotient of natural numbers. -/
def scaled (num den : Nat) (e : Int) : Nat × Nat :=
  if 0 ≤ e then (num, den * Nat.pow 2 e.toNat) else (num * Nat.pow 2 (-e).toNat, den)

/-- The exponent at which `num / den` has a mantissa of fifty-three bits, or the least
exponent if that one would be smaller. -/
def exponentOf (num den : Nat) : Int :=
  let guess : Int := (num.log2 : Int) - (den.log2 : Int) - 52
  let (n, d) := scaled num den guess
  max leastExponent (if n < d * Nat.pow 2 52 then guess - 1 else guess)

/-- The whole number nearest to `num / den`, and the even one of two that are equally
near. -/
def roundHalfEven (num den : Nat) : Nat :=
  let q := num / den
  let twice := 2 * (num % den)
  if twice < den then q else if den < twice then q + 1 else if q % 2 = 0 then q else q + 1

/-- The double nearest to `±num / den`; an infinity if it is out of range.  The
denominator is not zero. -/
def ofRatio (negative : Bool) (num den : Nat) : Double :=
  if num = 0 then zero negative
  else
    let e := exponentOf num den
    let (n, d) := scaled num den e
    let m := roundHalfEven n d
    let (m, e) := if m = Nat.pow 2 53 then (Nat.pow 2 52, e + 1) else (m, e)
    if greatestExponent < e then .infinite negative else .finite negative m e

/-- The double nearest to `±n`. -/
def ofNat (negative : Bool) (n : Nat) : Double := ofRatio negative n 1

/-- The double nearest to a whole number. -/
def ofInt (n : Int) : Double := ofNat (n < 0) n.natAbs

/-- The double nearest to `±digits * 10 ^ e`.  Numbers from `10 ^ 310` on are beyond
the range, numbers below `10 ^ -330` are zero. -/
def ofDecimal (negative : Bool) (digits : Nat) (e : Int) : Double :=
  if digits = 0 then zero negative
  else
    let size : Int := (Nat.toDigits 10 digits).length
    if 310 < size + e then .infinite negative
    else if size + e < -330 then zero negative
    else if 0 ≤ e then ofNat negative (digits * Nat.pow 10 e.toNat)
    else ofRatio negative digits (Nat.pow 10 (-e).toNat)

/-- Whether the number is finite. -/
def isFinite : Double → Bool
  | .finite .. => true
  | _ => false

/-- Whether the number is a zero of either sign. -/
def isZero : Double → Bool
  | .finite _ m _ => m == 0
  | _ => false

/-- Whether the number is finite and whole. -/
def isWhole : Double → Bool
  | .finite _ m e => 0 ≤ e || m % Nat.pow 2 (-e).toNat == 0
  | _ => false

/-- Whether the number is below a whole one. -/
def isBelow (n : Int) : Double → Bool
  | .nan => false
  | .infinite negative => negative
  | .finite negative m e =>
    let signed : Int := if negative then -m else m
    if 0 ≤ e then signed * Nat.pow 2 e.toNat < n else signed < n * Nat.pow 2 (-e).toNat

/-- The product, rounded.  Only products of finite numbers are used. -/
def mul : Double → Double → Double
  | .finite s m e, .finite t n f =>
    let (num, den) := scaled (m * n) 1 (-(e + f))
    ofRatio (s != t) num den
  | _, _ => .nan

/-- The quotient of a number by a positive one, rounded.  Only quotients of finite
numbers are used. -/
def div : Double → Double → Double
  | .finite s m e, .finite t n f =>
    let (num, den) := scaled m n (f - e)
    ofRatio (s != t) num den
  | _, _ => .nan

end Double
end GlyphLine

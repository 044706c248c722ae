import GlyphLine.Double.Basic

/-!
# The shortest decimal that reads back

The reals that round to a double form an interval around it, whose ends belong to it
if the mantissa is even.  Among the decimals in that interval the ones on the coarsest
decimal grid have the fewest digits, and of these the one nearest to the double is
taken.  Only the two neighbours of the double on each grid have to be tried, because
a grid that meets the interval at all does so at one of them.
-/

namespace GlyphLine
namespace Double

/-- An interval of reals, all given by their numerators over one denominator. -/
structure Interval where
  low : Nat
  value : Nat
  high : Nat
  denominator : Nat
  closed : Bool
  deriving Repr

/-- The interval of the reals that round to `m * 2 ^ e`.  Below a power of two the
next double is only half as far away. -/
def Interval.of (m : Nat) (e : Int) : Interval :=
  let below := if m = Nat.pow 2 52 && leastExponent < e then 1 else 2
  let (scale, den) := scaled 1 1 (2 - e)
  ⟨(4 * m - below) * scale, 4 * m * scale, (4 * m + 2) * scale, den, m % 2 == 0⟩

/-- Whether `n * 10 ^ k` lies in the interval. -/
def Interval.contains (i : Interval) (n : Nat) (k : Int) : Bool :=
  let point := n * Nat.pow 10 k.toNat * i.denominator
  let scale := Nat.pow 10 (-k).toNat
  if i.closed then i.low * scale ≤ point && point ≤ i.high * scale
  else i.low * scale < point && point < i.high * scale

/-- The neighbours of the value on the grid of the multiples of `10 ^ k`: the largest
`n` with `n * 10 ^ k` at most the value, and twice what is left over, as a part of
`10 ^ k`. -/
def Interval.neighbour (i : Interval) (k : Int) : Nat × Nat × Nat :=
  let num := i.value * Nat.pow 10 (-k).toNat
  let den := i.denominator * Nat.pow 10 k.toNat
  (num / den, 2 * (num % den), den)

/-- The best decimal on the first grid that meets the interval, looking at the grid
`10 ^ k` and `steps` finer ones. -/
def Interval.search (i : Interval) : (steps : Nat) → (k : Int) → Nat × Int
  | 0, k => ((i.neighbour k).1, k)
  | steps + 1, k =>
    let (n, twice, unit) := i.neighbour k
    match i.contains n k, i.contains (n + 1) k with
    | true, true => (if twice ≤ unit then n else n + 1, k)
    | true, false => (n, k)
    | false, true => (n + 1, k)
    | false, false => i.search steps (k - 1)

/-- How many digits `value` has before the point, or, as a negative number, how many
zeros it has behind the point.  No double is below `10 ^ -400`. -/
def Interval.order (i : Interval) : Int :=
  ((Nat.toDigits 10 (i.value * Nat.pow 10 400 / i.denominator)).length : Int) - 400

/-- The shortest decimal `n * 10 ^ k` that reads back as `m * 2 ^ e`, as `(n, k)`. -/
def shortest (m : Nat) (e : Int) : Nat × Int :=
  if m = 0 then (0, 0)
  else
    let i := Interval.of m e
    i.search 18 i.order

end Double
end GlyphLine

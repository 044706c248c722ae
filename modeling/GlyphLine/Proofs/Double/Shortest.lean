import GlyphLine.Double.Shortest
import GlyphLine.Proofs.Text.Decimal
import Mathlib.Algebra.Order.Field.Power
import Mathlib.Data.Nat.Cast.Order.Field
import Mathlib.Tactic.FieldSimp
import Mathlib.Tactic.Linarith
import Mathlib.Tactic.Positivity
import Mathlib.Tactic.Ring

/-!
# The shortest decimal of a double

The rationals nearer to a double than to the doubles on either side of it form an interval.  The
multiples of a power of ten are a grid, and the grid of a greater power is part of that of a
smaller one.  The decimal with the fewest digits is the one on the coarsest grid that meets the
interval.

## Why two neighbours are enough

The double lies inside its interval, between two neighbours on every grid.  A member of the
interval on one side of the double has the neighbour on this side between itself and the double,
so the neighbour is a member too.  If a grid meets the interval at all, it does so at one of the
two.

## Why the search ends

The first grid is so coarse that nothing coarser can meet the interval.  On the eighteenth grid
the step is shorter than the interval, which is as long as the way to the next double, or three
quarters of it where the one below is nearer; and an interval that is longer than a step has a
point of the grid in it.  For this the mantissa has to have at most fifty-three bits, as `2 ^ 53`
is less than `10 ^ 16`.

## Main statements

* `magnitude`, `RoundsTo`: a double without its sign, and what rounds to it.
* `IsShortest`: a decimal on the coarsest grid there is, and the nearest one on it.
* `isShortest_shortest`: **the search finds such a decimal**.
-/

namespace GlyphLine
namespace Double

/-! ## The interval of a double -/

/-- The double `m * 2 ^ e` as a rational. -/
def magnitude (m : Nat) (e : Int) : ℚ := m * 2 ^ e

/-- Half the way to the double below.  At a power of two it is half as long as elsewhere, unless
the exponent is the least one. -/
def halfBelow (m : Nat) (e : Int) : ℚ :=
  if m = 2 ^ 52 ∧ leastExponent < e then 2 ^ e / 4 else 2 ^ e / 2

/-- What is nearer to `m * 2 ^ e` than to the doubles around it.  What is as near to one of them
belongs to the even mantissa. -/
def RoundsTo (m : Nat) (e : Int) (x : ℚ) : Prop :=
  if m % 2 = 0 then magnitude m e - halfBelow m e ≤ x ∧ x ≤ magnitude m e + 2 ^ e / 2
  else magnitude m e - halfBelow m e < x ∧ x < magnitude m e + 2 ^ e / 2

/-- Of the decimals in a set, `n * 10 ^ k` is on the coarsest grid, and nothing on this grid is
nearer to the rational that is to be written. -/
structure IsShortest (near : ℚ → Prop) (x : ℚ) (n : Nat) (k : Int) : Prop where
  holds : near (n * 10 ^ k)
  coarsest (n' : Nat) (k' : Int) : k < k' → ¬ near (n' * 10 ^ k')
  nearest (n' : Nat) : near (n' * 10 ^ k) → |n * 10 ^ k - x| ≤ |n' * 10 ^ k - x|

/-- A power is a quotient of two powers with natural exponents. -/
theorem zpow_eq_div {b : ℚ} (hb : b ≠ 0) (k : ℤ) : b ^ k = b ^ k.toNat / b ^ (-k).toNat := by
  rw [← zpow_natCast, ← zpow_natCast, ← zpow_sub₀ hb]
  congr 1
  omega

/-- A quotient is scaled by a power of two. -/
theorem scaled_eq (num den : Nat) (e : Int) :
    ((scaled num den e).1 / (scaled num den e).2 : ℚ) = num / den / 2 ^ e := by
  rw [zpow_eq_div two_ne_zero e, scaled]
  split_ifs with he
  · have hneg : (-e).toNat = 0 := by omega
    rw [hneg, Nat.pow_eq]
    push_cast
    rw [pow_zero, div_one, div_div]
  · have hpos : e.toNat = 0 := by omega
    rw [hpos, Nat.pow_eq]
    push_cast
    rw [pow_zero, one_div, div_inv_eq_mul, div_mul_eq_mul_div]

theorem scaled_pos (num : Nat) {den : Nat} (hd : 0 < den) (e : Int) : 0 < (scaled num den e).2 := by
  rw [scaled]
  split_ifs
  · exact Nat.mul_pos hd (Nat.pow_pos two_pos)
  · exact hd

/-- A quotient is a whole number and a part of one.  What the division leaves over tells whether
the part is less or more than a half. -/
theorem exists_part (num : Nat) {den : Nat} (hden : 0 < den) :
    ∃ part : ℚ, 0 ≤ part ∧ part < 1 ∧ (num / den : ℚ) = (num / den : Nat) + part ∧
      (2 * (num % den) < den ↔ part < 1 / 2) ∧ (den < 2 * (num % den) ↔ 1 / 2 < part) := by
  have hq : (0 : ℚ) < den := Nat.cast_pos.2 hden
  refine ⟨(num % den : Nat) / den, by positivity, ?_, ?_, ?_, ?_⟩
  · rw [div_lt_one hq, Nat.cast_lt]
    exact Nat.mod_lt _ hden
  · rw [div_eq_iff hq.ne', add_mul, div_mul_cancel₀ _ hq.ne', mul_comm]
    exact_mod_cast (Nat.div_add_mod num den).symm
  · rw [div_lt_div_iff₀ hq two_pos, one_mul, mul_comm]
    exact_mod_cast Iff.rfl
  · rw [div_lt_div_iff₀ two_pos hq, one_mul, mul_comm]
    exact_mod_cast Iff.rfl

namespace Interval

/-- The double in the middle of the interval. -/
def center (i : Interval) : ℚ := i.value / i.denominator

/-- The lower end. -/
def lower (i : Interval) : ℚ := i.low / i.denominator

/-- The upper end. -/
def upper (i : Interval) : ℚ := i.high / i.denominator

/-- Whether a rational lies in the interval. -/
def Holds (i : Interval) (x : ℚ) : Prop :=
  if i.closed then i.lower ≤ x ∧ x ≤ i.upper else i.lower < x ∧ x < i.upper

/-- The double lies between the ends. -/
structure Proper (i : Interval) : Prop where
  denominator_pos : 0 < i.denominator
  lower_lt : i.lower < i.center
  lt_upper : i.center < i.upper

section Of

variable (m : Nat) (e : Int)

/-- The unit of the interval is a quarter of the distance to the next double. -/
theorem scaled_quarter : ((scaled 1 1 (2 - e)).1 / (scaled 1 1 (2 - e)).2 : ℚ) = 2 ^ e / 4 := by
  rw [scaled_eq, zpow_sub₀ two_ne_zero]
  norm_num

theorem denominator_of_pos : 0 < (of m e).denominator := scaled_pos 1 one_pos _

theorem center_of : (of m e).center = magnitude m e := by
  have hunit := scaled_quarter e
  rw [center, of, magnitude]
  dsimp only
  push_cast
  rw [mul_div_assoc, hunit]
  ring

theorem upper_of : (of m e).upper = magnitude m e + 2 ^ e / 2 := by
  have hunit := scaled_quarter e
  rw [upper, of, magnitude]
  dsimp only
  push_cast
  rw [mul_div_assoc, hunit]
  ring

theorem lower_of (hm : 0 < m) : (of m e).lower = magnitude m e - halfBelow m e := by
  have hunit := scaled_quarter e
  rw [lower, of, magnitude, halfBelow]
  dsimp only
  simp only [Nat.pow_eq, Bool.and_eq_true, decide_eq_true_eq]
  split_ifs
  · rw [Nat.cast_mul, Nat.cast_sub (by omega), mul_div_assoc, hunit]
    push_cast
    ring
  · rw [Nat.cast_mul, Nat.cast_sub (by omega), mul_div_assoc, hunit]
    push_cast
    ring

variable {m}

theorem proper_of (hm : 0 < m) : (of m e).Proper := by
  have htwo : (0 : ℚ) < 2 ^ e := by positivity
  refine ⟨denominator_of_pos m e, ?_, ?_⟩
  · rw [lower_of m e hm, center_of, halfBelow]
    split_ifs <;> linarith
  · rw [center_of, upper_of]
    linarith

theorem holds_of (hm : 0 < m) : (of m e).Holds = RoundsTo m e := by
  funext x
  rw [Holds, RoundsTo, lower_of m e hm, upper_of]
  simp only [of, beq_iff_eq]

end Of

/-! ## Neighbours on a grid -/

section Neighbours

variable {i : Interval}

/-- The comparison is one of natural numbers, both of them multiplied out. -/
theorem contains_iff (h : i.Proper) (n : Nat) (k : Int) :
    i.contains n k = true ↔ i.Holds (n * 10 ^ k) := by
  have hden : (0 : ℚ) < i.denominator := Nat.cast_pos.2 h.denominator_pos
  have hscale : (0 : ℚ) < 10 ^ (-k).toNat := by positivity
  -- An end `a / d` against `n * 10 ^ p / 10 ^ q`, in either order.
  have hpoint : (n * 10 ^ k : ℚ) = n * 10 ^ k.toNat / 10 ^ (-k).toNat := by
    rw [zpow_eq_div (by norm_num) k, mul_div_assoc]
  have hle (a : Nat) : (a / i.denominator : ℚ) ≤ n * 10 ^ k ↔
      a * Nat.pow 10 (-k).toNat ≤ n * Nat.pow 10 k.toNat * i.denominator := by
    rw [hpoint, div_le_div_iff₀ hden hscale, ← Nat.cast_le (α := ℚ), Nat.pow_eq, Nat.pow_eq]
    push_cast
    rfl
  have hge (a : Nat) : n * 10 ^ k ≤ (a / i.denominator : ℚ) ↔
      n * Nat.pow 10 k.toNat * i.denominator ≤ a * Nat.pow 10 (-k).toNat := by
    rw [hpoint, div_le_div_iff₀ hscale hden, ← Nat.cast_le (α := ℚ), Nat.pow_eq, Nat.pow_eq]
    push_cast
    rfl
  rw [contains, Holds, lower, upper]
  cases i.closed with
  | true =>
    rw [if_pos rfl, if_pos rfl, Bool.and_eq_true, decide_eq_true_eq, decide_eq_true_eq, hle, hge]
  | false =>
    rw [if_neg Bool.false_ne_true, if_neg Bool.false_ne_true, Bool.and_eq_true,
      decide_eq_true_eq, decide_eq_true_eq]
    exact and_congr (lt_iff_lt_of_le_iff_le (hge i.low).symm)
      (lt_iff_lt_of_le_iff_le (hle i.high).symm)

/-- The double is its lower neighbour and a part of the step of the grid. -/
theorem center_eq (h : 0 < i.denominator) (k : Int) :
    ∃ part : ℚ, 0 ≤ part ∧ part < 1 ∧ i.center = ((i.neighbour k).1 + part) * 10 ^ k ∧
      ((i.neighbour k).2.1 ≤ (i.neighbour k).2.2 ↔ part ≤ 1 / 2) := by
  set num := i.value * Nat.pow 10 (-k).toNat with hnum
  set den := i.denominator * Nat.pow 10 k.toNat with hden
  have hpos : 0 < den := Nat.mul_pos h (Nat.pow_pos (by norm_num))
  obtain ⟨part, hpart, hpart', hvalue, -, hmore⟩ := exists_part num hpos
  refine ⟨part, hpart, hpart', ?_, not_lt.symm.trans ((not_congr hmore).trans not_lt)⟩
  show i.center = ((num / den : Nat) + part) * 10 ^ k
  have hscale : (10 : ℚ) ^ (-k).toNat ≠ 0 := by positivity
  have hgrid : (10 : ℚ) ^ k.toNat ≠ 0 := by positivity
  have hden' : (i.denominator : ℚ) ≠ 0 := (Nat.cast_pos.2 h).ne'
  rw [← hvalue, hnum, hden, center, zpow_eq_div (by norm_num) k, Nat.pow_eq, Nat.pow_eq]
  push_cast
  field_simp

theorem Holds.up {x y : ℚ} (h : i.Proper) (hx : i.Holds x) (hxy : x ≤ y) (hy : y ≤ i.center) :
    i.Holds y := by
  have hupper := h.lt_upper
  rw [Holds] at hx ⊢
  split_ifs at hx ⊢
  · exact ⟨hx.1.trans hxy, hy.trans hupper.le⟩
  · exact ⟨hx.1.trans_le hxy, hy.trans_lt hupper⟩

theorem Holds.down {x y : ℚ} (h : i.Proper) (hx : i.Holds x) (hyx : y ≤ x) (hy : i.center ≤ y) :
    i.Holds y := by
  have hlower := h.lower_lt
  rw [Holds] at hx ⊢
  split_ifs at hx ⊢
  · exact ⟨hlower.le.trans hy, hyx.trans hx.2⟩
  · exact ⟨hlower.trans_le hy, hyx.trans_lt hx.2⟩

/-- A point of a grid is on one side of the double.  The neighbour on this side is nearer to the
double, and a member of the interval if the point is. -/
theorem neighbour_nearer (h : i.Proper) (k : Int) (n : Nat) :
    (|((i.neighbour k).1 * 10 ^ k : ℚ) - i.center| ≤ |n * 10 ^ k - i.center| ∧
      (i.Holds (n * 10 ^ k) → i.Holds ((i.neighbour k).1 * 10 ^ k))) ∨
    (|(((i.neighbour k).1 + 1 : Nat) * 10 ^ k : ℚ) - i.center| ≤ |n * 10 ^ k - i.center| ∧
      (i.Holds (n * 10 ^ k) → i.Holds (((i.neighbour k).1 + 1 : Nat) * 10 ^ k))) := by
  have hstep : (0 : ℚ) < 10 ^ k := by positivity
  obtain ⟨part, hpart, hpart', hcenter, -⟩ := center_eq h.denominator_pos k
  rcases Nat.lt_or_ge (i.neighbour k).1 n with hn | hn
  · have hle : (((i.neighbour k).1 + 1 : Nat) * 10 ^ k : ℚ) ≤ n * 10 ^ k :=
      mul_le_mul_of_nonneg_right (Nat.cast_le.2 hn) hstep.le
    have hover : i.center ≤ ((i.neighbour k).1 + 1 : Nat) * 10 ^ k := by
      rw [hcenter]
      refine mul_le_mul_of_nonneg_right ?_ hstep.le
      push_cast
      linarith
    refine .inr ⟨?_, fun hx => hx.down h hle hover⟩
    rw [abs_of_nonneg (sub_nonneg.2 hover), abs_of_nonneg (sub_nonneg.2 (hover.trans hle))]
    exact sub_le_sub_right hle _
  · have hle : (n * 10 ^ k : ℚ) ≤ (i.neighbour k).1 * 10 ^ k :=
      mul_le_mul_of_nonneg_right (Nat.cast_le.2 hn) hstep.le
    have hunder : ((i.neighbour k).1 * 10 ^ k : ℚ) ≤ i.center := by
      rw [hcenter]
      exact mul_le_mul_of_nonneg_right (by linarith) hstep.le
    refine .inl ⟨?_, fun hx => hx.up h hle hunder⟩
    rw [abs_of_nonpos (sub_nonpos.2 hunder), abs_of_nonpos (sub_nonpos.2 (hle.trans hunder))]
    exact neg_le_neg (sub_le_sub_right hle _)

/-- Which of the neighbours is nearer can be seen from what the division leaves over. -/
theorem neighbour_le_iff (h : i.Proper) (k : Int) :
    (i.neighbour k).2.1 ≤ (i.neighbour k).2.2 ↔
      |((i.neighbour k).1 * 10 ^ k : ℚ) - i.center| ≤
        |(((i.neighbour k).1 + 1 : Nat) * 10 ^ k : ℚ) - i.center| := by
  have hstep : (0 : ℚ) < 10 ^ k := by positivity
  obtain ⟨part, hpart, hpart', hcenter, htwice⟩ := center_eq h.denominator_pos k
  have hbelow : |((i.neighbour k).1 * 10 ^ k : ℚ) - i.center| = part * 10 ^ k := by
    rw [hcenter, abs_sub_comm, ← sub_mul, add_sub_cancel_left,
      abs_of_nonneg (mul_nonneg hpart hstep.le)]
  have hover : |(((i.neighbour k).1 + 1 : Nat) * 10 ^ k : ℚ) - i.center| =
      (1 - part) * 10 ^ k := by
    rw [hcenter, ← sub_mul, Nat.cast_add, Nat.cast_one, add_sub_add_left_eq_sub,
      abs_of_nonneg (mul_nonneg (by linarith) hstep.le)]
  rw [htwice, hbelow, hover, mul_le_mul_iff_of_pos_right hstep]
  constructor <;> intro <;> linarith

end Neighbours

/-! ## The search -/

section Search

variable {i : Interval}

/-- From a grid above which there is nothing, the search goes on to the first that meets the
interval. -/
theorem isShortest_search (h : i.Proper) (steps : Nat) (k : Int)
    (habove : ∀ (n : Nat) (k' : Int), k < k' → ¬ i.Holds (n * 10 ^ k'))
    (hmeets : ∃ j < steps, ∃ n : Nat, i.Holds (n * 10 ^ (k - (j : Int)))) :
    IsShortest i.Holds i.center (i.search steps k).1 (i.search steps k).2 := by
  induction steps generalizing k with
  | zero => exact absurd hmeets (by simp)
  | succ steps ih =>
    have hlow := contains_iff h (i.neighbour k).1 k
    have hhigh := contains_iff h ((i.neighbour k).1 + 1) k
    have hnearer := neighbour_nearer h k
    have hle := neighbour_le_iff h k
    rw [search]
    generalize i.neighbour k = p at hlow hhigh hnearer hle
    obtain ⟨n, twice, unit⟩ := p
    dsimp only at hlow hhigh hnearer hle ⊢
    split
    · -- Both neighbours are members, and the nearer one is taken.
      next htrue htrue' =>
      split_ifs with htwice
      · refine ⟨hlow.1 htrue, habove, fun n' _ => ?_⟩
        exact (hnearer n').elim And.left fun hn' => (hle.1 htwice).trans hn'.1
      · have hlt := lt_of_not_ge (mt hle.2 htwice)
        refine ⟨hhigh.1 htrue', habove, fun n' _ => ?_⟩
        exact (hnearer n').elim (fun hn' => hlt.le.trans hn'.1) And.left
    · next htrue hfalse =>
      refine ⟨hlow.1 htrue, habove, fun n' hn' => ?_⟩
      refine (hnearer n').elim And.left fun hn => ?_
      exact absurd (hhigh.2 (hn.2 hn')) (by rw [hfalse]; exact Bool.false_ne_true)
    · next hfalse htrue =>
      refine ⟨hhigh.1 htrue, habove, fun n' hn' => ?_⟩
      refine (hnearer n').elim (fun hn => ?_) And.left
      exact absurd (hlow.2 (hn.2 hn')) (by rw [hfalse]; exact Bool.false_ne_true)
    · -- Neither is a member, so nothing on this grid is.
      next hfalse hfalse' =>
      have hnone (n' : Nat) : ¬ i.Holds (n' * 10 ^ k) := fun hn' => by
        rcases hnearer n' with hn | hn
        · exact absurd (hlow.2 (hn.2 hn')) (by rw [hfalse]; exact Bool.false_ne_true)
        · exact absurd (hhigh.2 (hn.2 hn')) (by rw [hfalse']; exact Bool.false_ne_true)
      refine ih (k - 1) (fun n' k' hk' => ?_) ?_
      · rcases (show k = k' ∨ k < k' by omega) with rfl | hlt
        · exact hnone n'
        · exact habove n' k' hlt
      · obtain ⟨j, hj, n', hn'⟩ := hmeets
        cases j with
        | zero => exact absurd (by simpa using hn') (hnone n')
        | succ j =>
          refine ⟨j, by omega, n', ?_⟩
          rwa [Nat.cast_succ, ← sub_sub, sub_right_comm] at hn'

end Search

/-! ## From which grid to which -/

section Grids

variable {i : Interval}

/-- The digits of a quotient, moved by some places, tell between which powers of ten it is. -/
theorem quotient_bounds {num den : Nat} (places : Nat) (h : 0 < den)
    (hone : (1 : ℚ) ≤ num / den * 10 ^ places) :
    let length := (Nat.toDigits 10 (num * Nat.pow 10 places / den)).length
    (10 : ℚ) ^ ((length : Int) - places - 1) ≤ num / den ∧
      (num / den : ℚ) < 10 ^ ((length : Int) - places) := by
  intro length
  set moved := num * Nat.pow 10 places / den
  have hden : (0 : ℚ) < den := Nat.cast_pos.2 h
  have hten : (10 : ℚ) ≠ 0 := by norm_num
  have hfar : (0 : ℚ) < 10 ^ places := by positivity
  have hnum : (num / den * 10 ^ places : ℚ) = (num * Nat.pow 10 places : Nat) / den := by
    rw [Nat.pow_eq, Nat.cast_mul, Nat.cast_pow, Nat.cast_ofNat, div_mul_eq_mul_div]
  have hle : (moved : ℚ) ≤ num / den * 10 ^ places := hnum ▸ Nat.cast_div_le
  have hlt : (num / den * 10 ^ places : ℚ) < (moved + 1 : Nat) := by
    rw [hnum, div_lt_iff₀ hden, ← Nat.cast_mul, Nat.cast_lt]
    exact Nat.lt_mul_of_div_lt (Nat.lt_succ_self _) h
  have hmoved : 0 < moved := by
    have hlarge : (1 : ℚ) < (moved + 1 : Nat) := hone.trans_lt hlt
    exact Nat.pos_of_lt_add_left (Nat.one_lt_cast.1 hlarge)
  have hpos : 0 < length := List.length_pos_of_ne_nil Nat.toDigits_ne_nil
  obtain ⟨hlower, hupper⟩ : 10 ^ (length - 1) ≤ moved ∧ moved + 1 ≤ 10 ^ length :=
    Text.length_toDigits_bounds hmoved
  constructor
  · have hexp : (length : Int) - places - 1 = ((length - 1 : Nat) : Int) - (places : Nat) := by
      omega
    rw [hexp, zpow_sub₀ hten, zpow_natCast, zpow_natCast, div_le_iff₀ hfar]
    exact le_trans (by exact_mod_cast hlower) hle
  · rw [zpow_sub₀ hten, zpow_natCast, zpow_natCast, lt_div_iff₀ hfar]
    exact hlt.trans_le (by exact_mod_cast hupper)

/-- The first grid is the one of the power of ten above the double. -/
theorem order_bounds (h : 0 < i.denominator) (hone : 1 ≤ i.center * 10 ^ 400) :
    10 ^ (i.order - 1) ≤ i.center ∧ i.center < 10 ^ i.order := by
  -- A variable exponent, as the power itself is better not evaluated.
  obtain ⟨places, hplaces⟩ : ∃ places : Nat, places = 400 := ⟨400, rfl⟩
  have hcast : (400 : Int) = places := hplaces ▸ rfl
  rw [← hplaces, center] at hone
  rw [order, center, hcast, ← hplaces]
  exact quotient_bounds places h hone

/-- A step shorter than the interval cannot pass over it. -/
theorem exists_holds (h : i.Proper) {k : Int} (hstep : 10 ^ k < i.upper - i.lower) :
    ∃ n : Nat, i.Holds (n * 10 ^ k) := by
  have hpos : (0 : ℚ) < 10 ^ k := by positivity
  have hlower := h.lower_lt
  have hupper := h.lt_upper
  have inside {x : ℚ} (hl : i.lower < x) (hu : x < i.upper) : i.Holds x := by
    rw [Holds]
    split_ifs
    · exact ⟨hl.le, hu.le⟩
    · exact ⟨hl, hu⟩
  obtain ⟨part, hpart, hpart', hcenter, -⟩ := center_eq h.denominator_pos k
  have hpart_mul := mul_nonneg hpart hpos.le
  have hpart_lt := mul_lt_mul_of_pos_right hpart' hpos
  rw [add_mul] at hcenter
  by_cases hlow : i.lower < (i.neighbour k).1 * 10 ^ k
  · exact ⟨(i.neighbour k).1, inside hlow (by linarith)⟩
  · refine ⟨(i.neighbour k).1 + 1, ?_⟩
    rw [Nat.cast_succ, add_mul, one_mul]
    exact inside (by linarith) (by linarith)

end Grids
end Interval

section

variable {m : Nat} {e : Int}

/-- No double is so small that its digits would begin behind the four hundredth place. -/
theorem one_le_magnitude_mul (hm : 0 < m) (he : leastExponent ≤ e) :
    1 ≤ magnitude m e * 10 ^ 400 := by
  have hten : (2 : ℚ) ^ 1074 ≤ 10 ^ 400 :=
    calc (2 : ℚ) ^ 1074 ≤ 2 ^ (3 * 400) := pow_le_pow_right₀ (by norm_num) (by norm_num)
      _ = (2 ^ 3) ^ 400 := pow_mul 2 3 400
      _ ≤ 10 ^ 400 := pow_le_pow_left₀ (by norm_num) (by norm_num) 400
  have hleast : ((2 : ℚ) ^ 1074)⁻¹ ≤ 2 ^ e := by
    rw [← zpow_natCast, ← zpow_neg]
    exact zpow_le_zpow_right₀ (by norm_num) he
  calc (1 : ℚ) = (2 ^ 1074)⁻¹ * 2 ^ 1074 := (inv_mul_cancel₀ (by positivity)).symm
    _ ≤ 2 ^ e * 10 ^ 400 := mul_le_mul hleast hten (by positivity) (by positivity)
    _ ≤ magnitude m e * 10 ^ 400 := by
      refine mul_le_mul_of_nonneg_right ?_ (by positivity)
      exact le_mul_of_one_le_left (by positivity) (Nat.one_le_cast.2 hm)

theorem halfBelow_le (m : Nat) (e : Int) : halfBelow m e ≤ 2 ^ e / 2 := by
  have htwo : (0 : ℚ) < 2 ^ e := by positivity
  rw [halfBelow]
  split_ifs <;> linarith

theorem halfBelow_pos (m : Nat) (e : Int) : 0 < halfBelow m e := by
  rw [halfBelow]
  split_ifs <;> positivity

theorem roundsTo_magnitude (m : Nat) (e : Int) : RoundsTo m e (magnitude m e) := by
  have htwo : (0 : ℚ) < 2 ^ e := by positivity
  have hhalf := halfBelow_pos m e
  rw [RoundsTo]
  split_ifs
  · exact ⟨by linarith, by linarith⟩
  · exact ⟨by linarith, by linarith⟩

/-- What rounds to a double is not farther from it than half the way to the double above. -/
theorem RoundsTo.abs_sub_le {x : ℚ} (h : RoundsTo m e x) : |x - magnitude m e| ≤ 2 ^ e / 2 := by
  have hhalf := halfBelow_le m e
  rw [abs_le]
  rw [RoundsTo] at h
  split_ifs at h
  · exact ⟨by linarith [h.1], by linarith [h.2]⟩
  · exact ⟨by linarith [h.1], by linarith [h.2]⟩

/-- On a grid coarser than the double itself, nothing is near to the double: not zero, and no
multiple of ten times the double or more. -/
theorem not_roundsTo_of_coarse (hm : 0 < m) {k : Int} (hk : magnitude m e < 10 ^ k) (n : Nat)
    {k' : Int} (hk' : k < k') : ¬ RoundsTo m e (n * 10 ^ k') := by
  intro hn
  have htwo : (0 : ℚ) < 2 ^ e := by positivity
  have hvalue : (2 : ℚ) ^ e ≤ magnitude m e :=
    le_mul_of_one_le_left htwo.le (Nat.one_le_cast.2 hm)
  obtain ⟨hlower, hupper⟩ := abs_le.1 hn.abs_sub_le
  rcases Nat.eq_zero_or_pos n with rfl | hpos
  · rw [Nat.cast_zero, zero_mul] at hlower
    linarith
  · have hten : (10 : ℚ) ^ k * 10 ≤ 10 ^ k' := by
      rw [← zpow_add_one₀ (by norm_num)]
      exact zpow_le_zpow_right₀ (by norm_num) hk'
    have hmul : (10 : ℚ) ^ k' ≤ n * 10 ^ k' :=
      le_mul_of_one_le_left (by positivity) (Nat.one_le_cast.2 hpos)
    linarith

/-- Sixteen places below its first digit, the step of the grid is shorter than the interval of a
double with fifty-three bits. -/
theorem step_lt_interval (hm : m < 2 ^ 53) {k : Int}
    (hk : 10 ^ (k + 16) ≤ magnitude m e) : 10 ^ k < 2 ^ e / 2 + halfBelow m e := by
  have htwo : (0 : ℚ) < 2 ^ e := by positivity
  rw [zpow_add₀ (by norm_num), magnitude] at hk
  rw [halfBelow]
  split_ifs with hpower
  · rw [hpower.1] at hk
    norm_num at hk
    linarith
  · have hm53 : (m : ℚ) ≤ 2 ^ 53 := by exact_mod_cast hm.le
    have hbits := mul_le_mul_of_nonneg_right hm53 htwo.le
    norm_num at hk hbits
    linarith

/-- **What the search for a shortest decimal finds is one.** -/
theorem isShortest_shortest (hm : 0 < m) (hm' : m < 2 ^ 53) (he : leastExponent ≤ e) :
    IsShortest (RoundsTo m e) (magnitude m e) (shortest m e).1 (shortest m e).2 := by
  have hproper := Interval.proper_of e hm
  obtain ⟨horder, horder'⟩ := Interval.order_bounds hproper.denominator_pos
    ((Interval.center_of m e).symm ▸ one_le_magnitude_mul hm he)
  rw [Interval.center_of] at horder horder'
  rw [shortest, if_neg hm.ne', ← Interval.holds_of e hm, ← Interval.center_of m e]
  refine Interval.isShortest_search hproper 18 _ ?_ ⟨17, by norm_num, ?_⟩
  · rw [Interval.holds_of e hm]
    exact fun n k' hk' => not_roundsTo_of_coarse hm horder' n hk'
  · refine Interval.exists_holds hproper ?_
    rw [Interval.upper_of, Interval.lower_of m e hm, add_sub_sub_cancel]
    refine step_lt_interval hm' (le_of_eq_of_le ?_ horder)
    congr 1
    omega

end
end Double
end GlyphLine

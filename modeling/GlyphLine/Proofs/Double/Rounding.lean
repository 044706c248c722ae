import GlyphLine.Proofs.Double.Shortest

/-!
# Rounding to a double

A quotient is rounded in two steps: the exponent is chosen so that the mantissa has fifty-three
bits, or is the least one there is, and then the quotient of the scaled numbers is rounded to a
whole one.  A mantissa that is rounded up to the next power of two belongs to the next exponent.

The exponent is guessed from the binary lengths of the two numbers.  These tell the quotient up to
a factor of two on either side, so the guess is too great by one at most.

## Main statements

* `Normal`, `InRange`: a mantissa of fifty-three bits, and an exponent between the least and the
  greatest.
* `exponentOf_spec`: where the exponent puts a quotient.
* `ofRatio_spec`: **a quotient is rounded to a double in range that it is near to**.
* `inRange_ofDecimal`, `inRange_mul`, `inRange_div`: every result of the arithmetic is in range.
-/

namespace GlyphLine
namespace Double

/-- Mantissa and exponent as a double has them, apart from the greatest exponent: the mantissa has
all its bits unless the exponent is the least one. -/
structure Normal (m : Nat) (e : Int) : Prop where
  lt : m < 2 ^ 53
  least_le : leastExponent ≤ e
  full : leastExponent < e → 2 ^ 52 ≤ m

/-- Whether mantissa and exponent are those of a double. -/
def InRange : Double → Prop
  | .finite _ m e => Normal m e ∧ e ≤ greatestExponent
  | _ => True

/-! ## The exponent -/

section Exponent

variable {num den : Nat}

/-- The binary lengths of two numbers tell where their quotient is. -/
theorem log2_bounds (hnum : 0 < num) (hden : 0 < den) :
    (2 : ℚ) ^ ((num.log2 : Int) - den.log2 - 1) ≤ num / den ∧
      (num / den : ℚ) < 2 ^ ((num.log2 : Int) - den.log2 + 1) := by
  have hq : (0 : ℚ) < den := Nat.cast_pos.2 hden
  have hlow {n : Nat} (hn : 0 < n) : (2 : ℚ) ^ (n.log2 : Int) ≤ n := by
    exact_mod_cast Nat.log2_self_le hn.ne'
  have hhigh (n : Nat) : (n : ℚ) < 2 ^ ((n.log2 : Int) + 1) := by
    exact_mod_cast Nat.lt_log2_self (n := n)
  have htwo (a : Int) : (0 : ℚ) < 2 ^ a := by positivity
  constructor
  · rw [le_div_iff₀ hq]
    calc (2 : ℚ) ^ ((num.log2 : Int) - den.log2 - 1) * den
        ≤ 2 ^ ((num.log2 : Int) - den.log2 - 1) * 2 ^ ((den.log2 : Int) + 1) :=
          mul_le_mul_of_nonneg_left (hhigh den).le (htwo _).le
      _ = 2 ^ (num.log2 : Int) := by
          rw [← zpow_add₀ two_ne_zero]
          congr 1
          omega
      _ ≤ num := hlow hnum
  · rw [div_lt_iff₀ hq]
    calc (num : ℚ) < 2 ^ ((num.log2 : Int) + 1) := hhigh num
      _ = 2 ^ ((num.log2 : Int) - den.log2 + 1) * 2 ^ (den.log2 : Int) := by
          rw [← zpow_add₀ two_ne_zero]
          congr 1
          omega
      _ ≤ 2 ^ ((num.log2 : Int) - den.log2 + 1) * den :=
          mul_le_mul_of_nonneg_left (hlow hden) (htwo _).le

/-- At its exponent, a quotient has fifty-three bits; if the exponent is the least one, it may
have fewer. -/
theorem exponentOf_spec (hnum : 0 < num) (hden : 0 < den) :
    leastExponent ≤ exponentOf num den ∧
      (num / den : ℚ) < 2 ^ 53 * 2 ^ exponentOf num den ∧
      (leastExponent < exponentOf num den →
        2 ^ 52 * 2 ^ exponentOf num den ≤ (num / den : ℚ)) := by
  obtain ⟨hlow, hhigh⟩ := log2_bounds hnum hden
  set guess : Int := (num.log2 : Int) - den.log2 - 52 with hguess
  have htwo : (0 : ℚ) < 2 ^ guess := by positivity
  have hscaled : (scaled num den guess).1 < (scaled num den guess).2 * Nat.pow 2 52 ↔
      (num / den : ℚ) < 2 ^ 52 * 2 ^ guess := by
    have hpos : (0 : ℚ) < (scaled num den guess).2 := Nat.cast_pos.2 (scaled_pos num hden guess)
    rw [← div_lt_iff₀ htwo, ← scaled_eq, div_lt_iff₀ hpos, Nat.pow_eq, mul_comm]
    exact_mod_cast Iff.rfl
  -- The exponent before it is kept from falling below the least one.
  obtain ⟨e, he, hupper, hlower⟩ : ∃ e, exponentOf num den = max leastExponent e ∧
      (num / den : ℚ) < 2 ^ 53 * 2 ^ e ∧ 2 ^ 52 * 2 ^ e ≤ (num / den : ℚ) := by
    have hpow (a b : Int) : (2 : ℚ) ^ (a + b) = 2 ^ a * 2 ^ b := zpow_add₀ two_ne_zero a b
    by_cases hsmall : (num / den : ℚ) < 2 ^ 52 * 2 ^ guess
    · refine ⟨guess - 1, ?_, ?_, ?_⟩
      · rw [exponentOf, ← hguess]
        dsimp only
        rw [if_pos (hscaled.2 hsmall)]
      · have hdouble := hpow (guess - 1) 1
        rw [sub_add_cancel] at hdouble
        rw [hdouble] at hsmall
        norm_num at hsmall ⊢
        linarith
      · have hbits := hpow (guess - 1) 52
        rw [show guess - 1 + 52 = (num.log2 : Int) - den.log2 - 1 by omega] at hbits
        rw [hbits] at hlow
        norm_num at hlow ⊢
        linarith
    · refine ⟨guess, ?_, ?_, not_lt.1 hsmall⟩
      · rw [exponentOf, ← hguess]
        dsimp only
        rw [if_neg (mt hscaled.1 hsmall)]
      · have hbits := hpow guess 53
        rw [show guess + 53 = (num.log2 : Int) - den.log2 + 1 by omega] at hbits
        rw [hbits] at hhigh
        norm_num at hhigh ⊢
        linarith
  rw [he]
  refine ⟨le_max_left _ _, hupper.trans_le ?_, fun hleast => ?_⟩
  · exact mul_le_mul_of_nonneg_left
      (zpow_le_zpow_right₀ (by norm_num) (le_max_right _ _)) (by norm_num)
  · rwa [max_eq_right (by omega)]

end Exponent

/-! ## The mantissa -/

/-- The nearest whole number is at most a half away, and even if it is just a half. -/
theorem roundHalfEven_spec (num : Nat) {den : Nat} (hden : 0 < den) :
    |(roundHalfEven num den : ℚ) - num / den| ≤ 1 / 2 ∧
      (roundHalfEven num den % 2 = 1 → |(roundHalfEven num den : ℚ) - num / den| < 1 / 2) := by
  obtain ⟨part, hpos, hone, hvalue, hless, hmore⟩ := exists_part num hden
  have hdown : |((num / den : Nat) : ℚ) - ((num / den : Nat) + part)| = part := by
    rw [abs_sub_comm, add_sub_cancel_left, abs_of_nonneg hpos]
  have hup : |((num / den + 1 : Nat) : ℚ) - ((num / den : Nat) + part)| = 1 - part := by
    rw [Nat.cast_add, Nat.cast_one, add_sub_add_left_eq_sub, abs_of_nonneg (by linarith)]
  rw [hvalue, roundHalfEven]
  split_ifs with hdecided hdecided' heven
  · have hlt := hless.1 hdecided
    rw [hdown]
    exact ⟨hlt.le, fun _ => hlt⟩
  · have hgt := hmore.1 hdecided'
    rw [hup]
    exact ⟨by linarith, fun _ => by linarith⟩
  · have hle := mt hmore.2 hdecided'
    rw [hdown]
    exact ⟨not_lt.1 hle, fun hodd => by omega⟩
  · have hge := mt hless.2 hdecided
    rw [hup]
    exact ⟨by linarith, fun hodd => by omega⟩

/-! ## The double -/

section Near

variable {m : Nat} {e : Int} {x : ℚ}

/-- What is at most a half of the last bit away from a mantissa rounds to it, if an odd mantissa
is nearer than that and the quotient has all its bits. -/
theorem roundsTo_of_near (hlower : leastExponent < e → 2 ^ 52 * 2 ^ e ≤ x)
    (hnear : |m * 2 ^ e - x| ≤ 2 ^ e / 2) (hodd : m % 2 = 1 → |m * 2 ^ e - x| < 2 ^ e / 2) :
    RoundsTo m e x := by
  have htwo : (0 : ℚ) < 2 ^ e := by positivity
  rw [RoundsTo, magnitude, halfBelow]
  split_ifs with heven hpower hpower
  · obtain ⟨-, hupper⟩ := abs_le.1 hnear
    obtain ⟨hover, -⟩ := abs_le.1 hnear
    have hfull := hlower hpower.2
    rw [hpower.1] at hover ⊢
    push_cast at hover ⊢
    exact ⟨by linarith, by linarith⟩
  · obtain ⟨hover, hunder⟩ := abs_le.1 hnear
    exact ⟨by linarith, by linarith⟩
  · exact absurd (congrArg (· % 2) hpower.1) (by norm_num; omega)
  · obtain ⟨hover, hunder⟩ := abs_lt.1 (hodd (by omega))
    exact ⟨by linarith, by linarith⟩

/-- What is rounded up to a mantissa of one bit more rounds to the power of two. -/
theorem roundsTo_of_carry (hleast : leastExponent ≤ e) (hupper : x < 2 ^ 53 * 2 ^ e)
    (hnear : |((2 ^ 53 : Nat) : ℚ) * 2 ^ e - x| ≤ 2 ^ e / 2) : RoundsTo (2 ^ 52) (e + 1) x := by
  have htwo : (0 : ℚ) < 2 ^ e := by positivity
  obtain ⟨-, hunder⟩ := abs_le.1 hnear
  rw [RoundsTo, magnitude, halfBelow, if_pos (by norm_num),
    if_pos ⟨rfl, Int.lt_add_one_of_le hleast⟩, zpow_add_one₀ two_ne_zero]
  norm_num at hunder hupper ⊢
  exact ⟨by linarith, by linarith⟩

end Near

/-- **A quotient is rounded to a double that it is near to**, or to an infinity if this double is
out of range. -/
theorem ofRatio_spec (negative : Bool) {num den : Nat} (hnum : 0 < num) (hden : 0 < den) :
    ∃ m e, Normal m e ∧ RoundsTo m e (num / den) ∧
      ofRatio negative num den =
        if greatestExponent < e then .infinite negative else .finite negative m e := by
  rw [ofRatio, if_neg hnum.ne']
  extract_lets exponent
  obtain ⟨hleast, hupper, hlower⟩ : leastExponent ≤ exponent ∧
      (num / den : ℚ) < 2 ^ 53 * 2 ^ exponent ∧
      (leastExponent < exponent → 2 ^ 52 * 2 ^ exponent ≤ (num / den : ℚ)) :=
    exponentOf_spec hnum hden
  clear_value exponent
  have htwo : (0 : ℚ) < 2 ^ exponent := by positivity
  -- The scaled quotient is named before the cases are put into a plain form: they are not to be
  -- evaluated down to its digits.
  have hquotient := scaled_eq num den exponent
  have hpos := scaled_pos num hden exponent
  cases hscaled : scaled num den exponent with | mk n d =>
  rw [hscaled] at hquotient hpos
  obtain ⟨hnear, hodd⟩ := roundHalfEven_spec n hpos
  dsimp only at hquotient hnear hodd ⊢
  rw [hquotient] at hnear hodd
  generalize roundHalfEven n d = mantissa at hnear hodd ⊢
  generalize (num / den : ℚ) = x at hupper hlower hnear hodd ⊢
  -- The same distances, on the scale of the quotient.
  have hscale : |mantissa * 2 ^ exponent - x| = |mantissa - x / 2 ^ exponent| * 2 ^ exponent := by
    rw [← abs_of_pos htwo, ← abs_mul, abs_of_pos htwo, sub_mul, div_mul_cancel₀ _ htwo.ne']
  have hnear' : |mantissa * 2 ^ exponent - x| ≤ 2 ^ exponent / 2 := by
    rw [hscale]
    linarith [mul_le_mul_of_nonneg_right hnear htwo.le]
  have hodd' (h : mantissa % 2 = 1) : |mantissa * 2 ^ exponent - x| < 2 ^ exponent / 2 := by
    rw [hscale]
    linarith [mul_lt_mul_of_pos_right (hodd h) htwo]
  by_cases hcarry : mantissa = Nat.pow 2 53
  · rw [if_pos hcarry]
    rw [hcarry] at hnear'
    have hnormal : Normal (2 ^ 52) (exponent + 1) := ⟨by norm_num, by omega, fun _ => le_rfl⟩
    exact ⟨2 ^ 52, exponent + 1, hnormal, roundsTo_of_carry hleast hupper hnear', rfl⟩
  · rw [if_neg hcarry]
    rw [Nat.pow_eq] at hcarry
    -- A mantissa of more bits would be more than a half above the quotient, and one of less bits
    -- more than a half below it.
    have hnormal : Normal mantissa exponent := by
      refine ⟨?_, hleast, fun hexponent => ?_⟩
      · have hbound : (mantissa : ℚ) < 2 ^ 53 + 1 := by
          linarith [(abs_le.1 hnear).2, (div_lt_iff₀ htwo).2 hupper]
        have hbits : mantissa < 2 ^ 53 + 1 := by exact_mod_cast hbound
        omega
      · have hbound : (2 ^ 52 : ℚ) < mantissa + 1 := by
          linarith [(abs_le.1 hnear).1, (le_div_iff₀ htwo).2 (hlower hexponent)]
        have hbits : 2 ^ 52 < mantissa + 1 := by exact_mod_cast hbound
        omega
    exact ⟨mantissa, exponent, hnormal, roundsTo_of_near hlower hnear' hodd', rfl⟩

section InRange

variable {negative : Bool}

theorem inRange_zero : (zero negative).InRange := by
  refine ⟨⟨by norm_num, le_rfl, fun h => absurd h (lt_irrefl _)⟩, ?_⟩
  decide

theorem inRange_ofRatio {num den : Nat} (hden : 0 < den) :
    (ofRatio negative num den).InRange := by
  rcases Nat.eq_zero_or_pos num with rfl | hnum
  · exact inRange_zero
  · obtain ⟨m, e, hnormal, -, heq⟩ := ofRatio_spec negative hnum hden
    rw [heq]
    split_ifs with hgreat
    · trivial
    · exact ⟨hnormal, not_lt.1 hgreat⟩

theorem inRange_ofNat {n : Nat} : (ofNat negative n).InRange := inRange_ofRatio one_pos

theorem inRange_ofInt {n : Int} : (ofInt n).InRange := inRange_ofNat

theorem inRange_ofDecimal {digits : Nat} {e : Int} : (ofDecimal negative digits e).InRange := by
  rw [ofDecimal]
  dsimp only
  split_ifs
  · exact inRange_zero
  · trivial
  · exact inRange_zero
  · exact inRange_ofNat
  · exact inRange_ofRatio (Nat.pow_pos (by norm_num))

theorem inRange_mul (c d : Double) : (c.mul d).InRange := by
  unfold mul
  split
  · exact inRange_ofRatio (scaled_pos _ one_pos _)
  · trivial

/-- A divisor is not zero. -/
theorem inRange_div (c : Double) {d : Double} (hd : d.isZero = false) : (c.div d).InRange := by
  cases c with
  | finite s m e =>
    cases d with
    | finite t n f =>
      have hpos : 0 < n := Nat.pos_of_ne_zero (beq_eq_false_iff_ne.1 hd)
      exact inRange_ofRatio (scaled_pos _ hpos _)
    | nan => trivial
    | infinite => trivial
  | nan => trivial
  | infinite => trivial

end InRange
end Double
end GlyphLine

import GlyphLine.Proofs.Double.Plain
import GlyphLine.Proofs.Double.Rounding

/-!
# Reading undoes writing on doubles

What is near to one double is not near to another: the intervals of different doubles do not
meet, as one of two neighbours has an odd mantissa and leaves the point between them to the other.
So a decimal that rounds to a double is read as this double, whichever decimal it is, and this
holds for the digits of its plain form.

## Main statements

* `roundsTo_lt`: the intervals are in the order of the doubles.
* `ofDecimal_of_roundsTo`: a decimal is read as the double that it rounds to.
* `plain_reads_back`: **the plain form of a double is read as this double**.
-/

namespace GlyphLine
namespace Double

open Text

/-! ## Different doubles -/

section Order

variable {m m' : Nat} {e e' : Int} {x x' : ℚ}

/-- With all its bits, a mantissa outweighs every mantissa at a smaller exponent. -/
theorem magnitude_lt_of_lt (h : Normal m e) (h' : Normal m' e') (he : e < e') :
    magnitude m e < magnitude m' e' := by
  have htwo : (0 : ℚ) < 2 ^ e := by positivity
  have hbits : (m : ℚ) < 2 ^ 53 := by exact_mod_cast h.lt
  have hfull : (2 ^ 52 : ℚ) ≤ m' := by exact_mod_cast h'.full (h.least_le.trans_lt he)
  have hstep : (2 : ℚ) ^ e * 2 ≤ 2 ^ e' := by
    rw [← zpow_add_one₀ two_ne_zero]
    exact zpow_le_zpow_right₀ (by norm_num) he
  calc magnitude m e < 2 ^ 53 * 2 ^ e := mul_lt_mul_of_pos_right hbits htwo
    _ = 2 ^ 52 * (2 ^ e * 2) := by ring
    _ ≤ m' * 2 ^ e' := mul_le_mul hfull hstep (by positivity) (by positivity)

/-- Doubles are compared by their magnitudes. -/
theorem magnitude_trichotomy (h : Normal m e) (h' : Normal m' e') :
    (m = m' ∧ e = e') ∨ magnitude m e < magnitude m' e' ∨ magnitude m' e' < magnitude m e := by
  rcases lt_trichotomy e e' with he | rfl | he
  · exact .inr (.inl (magnitude_lt_of_lt h h' he))
  · have htwo : (0 : ℚ) < 2 ^ e := by positivity
    rcases lt_trichotomy m m' with hm | rfl | hm
    · exact .inr (.inl (mul_lt_mul_of_pos_right (Nat.cast_lt.2 hm) htwo))
    · exact .inl ⟨rfl, rfl⟩
    · exact .inr (.inr (mul_lt_mul_of_pos_right (Nat.cast_lt.2 hm) htwo))
  · exact .inr (.inr (magnitude_lt_of_lt h' h he))

/-- Half the way up from a double does not lead beyond half the way down from a greater one.  If
they lead to the same point, one of the mantissas is odd. -/
theorem half_le_half (h : Normal m e) (h' : Normal m' e')
    (hlt : magnitude m e < magnitude m' e') :
    magnitude m e + 2 ^ e / 2 ≤ magnitude m' e' - halfBelow m' e' ∧
      (magnitude m e + 2 ^ e / 2 = magnitude m' e' - halfBelow m' e' →
        m % 2 = 1 ∨ m' % 2 = 1) := by
  have htwo : (0 : ℚ) < 2 ^ e := by positivity
  have hhalf := halfBelow_le m' e'
  rcases lt_trichotomy e e' with he | rfl | he
  · have hleast := h.least_le.trans_lt he
    have hstep : (2 : ℚ) ^ e * 2 ≤ 2 ^ e' := by
      rw [← zpow_add_one₀ two_ne_zero]
      exact zpow_le_zpow_right₀ (by norm_num) he
    have hbits : (m : ℚ) + 1 ≤ 2 ^ 53 := by exact_mod_cast h.lt
    have hunder : magnitude m e + 2 ^ e / 2 ≤ (2 ^ 53 - 1 / 2) * 2 ^ e := by
      rw [magnitude]
      linarith [mul_le_mul_of_nonneg_right hbits htwo.le]
    by_cases hpower : m' = 2 ^ 52
    · have hbelow : magnitude m' e' - halfBelow m' e' = (2 ^ 52 - 1 / 4) * 2 ^ e' := by
        rw [halfBelow, if_pos ⟨hpower, hleast⟩, magnitude, hpower]
        push_cast
        ring
      rw [hbelow]
      refine ⟨by norm_num at hunder hstep ⊢; linarith, fun heq => .inl ?_⟩
      -- A mantissa that is not the greatest one would be below the common point.
      by_contra heven
      have hless : (m : ℚ) + 2 ≤ 2 ^ 53 := by
        have hm := h.lt
        exact_mod_cast (show m + 2 ≤ 2 ^ 53 by omega)
      have hsmall := mul_le_mul_of_nonneg_right hless htwo.le
      rw [magnitude] at heq
      norm_num at heq hsmall hstep
      linarith
    · have hfull : (2 ^ 52 : ℚ) + 1 ≤ m' := by
        have hm' := h'.full hleast
        exact_mod_cast Nat.lt_of_le_of_ne hm' (Ne.symm hpower)
      have hlt : (2 ^ 53 - 1 / 2) * 2 ^ e < magnitude m' e' - halfBelow m' e' := by
        have htwo' : (0 : ℚ) < 2 ^ e' := by positivity
        have hlarge := mul_le_mul_of_nonneg_right hfull htwo'.le
        rw [magnitude]
        norm_num at hlarge hstep ⊢
        linarith
      exact ⟨(hunder.trans_lt hlt).le, fun heq => absurd heq (hunder.trans_lt hlt).ne⟩
  · have hm : (m : ℚ) + 1 ≤ m' := by
      exact_mod_cast Nat.cast_lt.1 (lt_of_mul_lt_mul_right hlt htwo.le)
    rw [magnitude, magnitude]
    refine ⟨by linarith [mul_le_mul_of_nonneg_right hm htwo.le], fun heq => ?_⟩
    by_contra hnone
    rw [not_or] at hnone
    have hfar : (m : ℚ) + 2 ≤ m' := by
      have hm' : m + 1 ≤ m' := by exact_mod_cast hm
      exact_mod_cast (show m + 2 ≤ m' by omega)
    linarith [mul_le_mul_of_nonneg_right hfar htwo.le]
  · exact absurd (magnitude_lt_of_lt h' h he) hlt.le.not_gt

/-- **What rounds to a smaller double is smaller.** -/
theorem roundsTo_lt (h : Normal m e) (h' : Normal m' e') (hlt : magnitude m e < magnitude m' e')
    (hx : RoundsTo m e x) (hx' : RoundsTo m' e' x') : x < x' := by
  obtain ⟨hle, hodd⟩ := half_le_half h h' hlt
  rw [RoundsTo] at hx hx'
  split_ifs at hx hx' with heven heven' heven'
  · have hne := mt hodd (by omega)
    exact hx.2.trans_lt ((lt_of_le_of_ne hle hne).trans_le hx'.1)
  · exact hx.2.trans_lt (hle.trans_lt hx'.1)
  · exact hx.2.trans_le (hle.trans hx'.1)
  · exact hx.2.trans (hle.trans_lt hx'.1)

theorem RoundsTo.unique (h : Normal m e) (h' : Normal m' e') (hx : RoundsTo m e x)
    (hx' : RoundsTo m' e' x) : m = m' ∧ e = e' := by
  rcases magnitude_trichotomy h h' with heq | hlt | hlt
  · exact heq
  · exact absurd (roundsTo_lt h h' hlt hx hx') (lt_irrefl x)
  · exact absurd (roundsTo_lt h' h hlt hx' hx) (lt_irrefl x)

end Order

/-! ## Reading -/

section Reading

variable {m : Nat} {e : Int}

/-- Zero rounds to zero only. -/
theorem not_roundsTo_zero (hm : 0 < m) : ¬ RoundsTo m e 0 := by
  intro h
  have htwo : (0 : ℚ) < 2 ^ e := by positivity
  have hvalue : (2 : ℚ) ^ e ≤ magnitude m e :=
    le_mul_of_one_le_left htwo.le (Nat.one_le_cast.2 hm)
  have hnear := (abs_le.1 h.abs_sub_le).1
  linarith

/-- A quotient is read as the double that it rounds to. -/
theorem ofRatio_of_roundsTo (negative : Bool) (hm : 0 < m) (h : Normal m e)
    (he : e ≤ greatestExponent) {num den : Nat} (hden : 0 < den)
    (hx : RoundsTo m e (num / den)) : ofRatio negative num den = .finite negative m e := by
  have hnum : 0 < num := Nat.pos_of_ne_zero fun hzero => not_roundsTo_zero hm (by
    rwa [hzero, Nat.cast_zero, zero_div] at hx)
  obtain ⟨m', e', h', hx', heq⟩ := ofRatio_spec negative hnum hden
  obtain ⟨rfl, rfl⟩ := RoundsTo.unique h h' hx hx'
  rw [heq, if_neg (not_lt.2 he)]

/-- Two to the ninety-third is a little less than ten to the twenty-eighth. -/
theorem two_zpow_le : (2 : ℚ) ^ (1023 : Int) ≤ 10 ^ (308 : Int) := by
  have htwo : (2 : ℚ) ^ (1023 : Int) = (2 ^ 93) ^ 11 := by
    rw [← pow_mul, ← zpow_natCast]
    congr 1
  have hten : (10 : ℚ) ^ (308 : Int) = (10 ^ 28) ^ 11 := by
    rw [← pow_mul, ← zpow_natCast]
    congr 1
  rw [htwo, hten]
  exact pow_le_pow_left₀ (by norm_num) (by norm_num) 11

/-- What rounds to a double is below the first power of ten that is out of range, and above the
last one that is read as zero. -/
theorem RoundsTo.in_range {x : ℚ} (hm : 0 < m) (h : Normal m e) (he : e ≤ greatestExponent)
    (hx : RoundsTo m e x) : (10 : ℚ) ^ (-324 : Int) ≤ x ∧ x < 10 ^ (309 : Int) := by
  have htwo : (0 : ℚ) < 2 ^ e := by positivity
  have hten : (10 : ℚ) ≠ 0 := by norm_num
  have hm1 : (1 : ℚ) ≤ m := Nat.one_le_cast.2 hm
  have hbits : (m : ℚ) + 1 ≤ 2 ^ 53 := by exact_mod_cast h.lt
  obtain ⟨hunder, hover⟩ := abs_le.1 hx.abs_sub_le
  rw [magnitude] at hunder hover
  have hhalf : 2 ^ e / 2 ≤ x := by linarith [mul_le_mul_of_nonneg_right hm1 htwo.le]
  have hfar := two_zpow_le
  constructor
  · have hleast : (2 : ℚ) ^ (-1074 : Int) ≤ 2 ^ e := zpow_le_zpow_right₀ (by norm_num) h.least_le
    have hsmall : (10 : ℚ) ^ (-308 : Int) ≤ 2 ^ (-1023 : Int) := by
      rw [zpow_neg, zpow_neg]
      exact inv_anti₀ (by positivity) hfar
    calc (10 : ℚ) ^ (-324 : Int) = 10 ^ (-308 : Int) * 10 ^ (-16 : Int) := by
          rw [← zpow_add₀ hten]
          congr 1
      _ ≤ 2 ^ (-1023 : Int) * 2 ^ (-52 : Int) :=
          mul_le_mul hsmall (by norm_num) (by positivity) (by positivity)
      _ = 2 ^ (-1074 : Int) / 2 := by
          rw [← zpow_add₀ two_ne_zero, eq_div_iff two_ne_zero, ← zpow_add_one₀ two_ne_zero]
          congr 1
      _ ≤ x := by linarith
  · calc x ≤ 2 ^ 53 * 2 ^ e := by linarith [mul_le_mul_of_nonneg_right hbits htwo.le]
      _ ≤ 2 ^ 53 * 2 ^ (971 : Int) :=
        mul_le_mul_of_nonneg_left (zpow_le_zpow_right₀ (by norm_num) he) (by positivity)
      _ = 2 * 2 ^ (1023 : Int) := by
        rw [← zpow_natCast, ← zpow_add₀ two_ne_zero, ← zpow_one_add₀ two_ne_zero]
        congr 1
      _ ≤ 2 * 10 ^ (308 : Int) := mul_le_mul_of_nonneg_left hfar (by norm_num)
      _ < 10 * 10 ^ (308 : Int) := mul_lt_mul_of_pos_right (by norm_num) (by positivity)
      _ = 10 ^ (309 : Int) := by
        rw [← zpow_one_add₀ hten]
        congr 1

/-- So its first digit is where digits are read. -/
theorem digits_in_range (hm : 0 < m) (h : Normal m e) (he : e ≤ greatestExponent) {n : Nat}
    {k : Int} (hn : 0 < n) (hx : RoundsTo m e (n * 10 ^ k)) :
    ¬ 310 < ((Nat.toDigits 10 n).length : Int) + k ∧
      ¬ ((Nat.toDigits 10 n).length : Int) + k < -330 := by
  obtain ⟨hlower, hupper⟩ := hx.in_range hm h he
  have hten : (1 : ℚ) < 10 := by norm_num
  have hstep : (0 : ℚ) < 10 ^ k := by positivity
  have hpos : 0 < (Nat.toDigits 10 n).length := List.length_pos_of_ne_nil Nat.toDigits_ne_nil
  obtain ⟨hmore', hless'⟩ := length_toDigits_bounds hn
  have hless : (n : ℚ) < 10 ^ ((Nat.toDigits 10 n).length : Int) := by exact_mod_cast hless'
  have hmore : (10 : ℚ) ^ ((Nat.toDigits 10 n).length - 1 : Int) ≤ n := by
    rw [← Nat.cast_pred hpos]
    exact_mod_cast hmore'
  constructor
  · intro hfar
    refine absurd (hupper.trans_le ?_) (lt_irrefl _)
    calc (10 : ℚ) ^ (309 : Int) ≤ 10 ^ ((Nat.toDigits 10 n).length - 1 + k : Int) :=
          zpow_le_zpow_right₀ hten.le (by omega)
      _ = 10 ^ ((Nat.toDigits 10 n).length - 1 : Int) * 10 ^ k := zpow_add₀ (by norm_num) _ _
      _ ≤ n * 10 ^ k := mul_le_mul_of_nonneg_right hmore hstep.le
  · intro hnear
    refine absurd (hlower.trans_lt ?_) (lt_irrefl _)
    calc (n * 10 ^ k : ℚ) < 10 ^ ((Nat.toDigits 10 n).length : Int) * 10 ^ k :=
          mul_lt_mul_of_pos_right hless hstep
      _ = 10 ^ ((Nat.toDigits 10 n).length + k : Int) := (zpow_add₀ (by norm_num) _ _).symm
      _ ≤ 10 ^ (-324 : Int) := zpow_le_zpow_right₀ hten.le (by omega)

/-- **A decimal is read as the double that it rounds to.** -/
theorem ofDecimal_of_roundsTo (negative : Bool) (hm : 0 < m) (h : Normal m e)
    (he : e ≤ greatestExponent) {n : Nat} {k : Int} (hx : RoundsTo m e (n * 10 ^ k)) :
    ofDecimal negative n k = .finite negative m e := by
  have hn : n ≠ 0 := fun hzero => not_roundsTo_zero hm (by
    rwa [hzero, Nat.cast_zero, zero_mul] at hx)
  obtain ⟨hupper, hlower⟩ := digits_in_range hm h he (Nat.pos_of_ne_zero hn) hx
  rw [zpow_eq_div (by norm_num) k] at hx
  rw [ofDecimal, if_neg hn]
  dsimp only
  rw [if_neg hupper, if_neg hlower]
  split_ifs with hk
  · have hzero : (-k).toNat = 0 := by omega
    refine ofRatio_of_roundsTo negative hm h he one_pos ?_
    rw [hzero, pow_zero, div_one] at hx
    rw [Nat.pow_eq]
    push_cast
    rwa [div_one]
  · have hzero : k.toNat = 0 := by omega
    refine ofRatio_of_roundsTo negative hm h he (Nat.pow_pos (by norm_num)) ?_
    rw [hzero, pow_zero, mul_one_div] at hx
    rw [Nat.pow_eq]
    push_cast
    exact hx

/-- What is shown of a double rounds to it. -/
theorem Shown.roundsTo {x : ℚ} (h : Shown m e x) : RoundsTo m e x := by
  by_cases hwhole : ∃ w : Nat, magnitude m e = w
  · obtain ⟨w, hw⟩ := hwhole
    rw [h.whole w hw, ← hw]
    exact roundsTo_magnitude m e
  · obtain ⟨n, k, rfl, hshortest⟩ := h.other fun w hw => hwhole ⟨w, hw⟩
    exact hshortest.holds

/-- **The plain form of a finite double is read as this double**, a zero with its sign included. -/
theorem plain_reads_back {negative : Bool} (h : InRange (.finite negative m e)) :
    ∃ front back : List Char,
      plain (.finite negative m e) = String.ofList (sign negative ++ front ++ '.' :: back) ∧
        ofDecimal negative (digitsValue (front ++ back)) (-back.length) =
          .finite negative m e := by
  obtain ⟨hnormal, he⟩ := h
  obtain ⟨front, back, x, hshown, hspells, hplain⟩ :=
    plain_finite negative hnormal.lt hnormal.least_le
  refine ⟨front, back, hplain, ?_⟩
  have hpow : (10 : ℚ) ^ back.length ≠ 0 := by positivity
  rcases Nat.eq_zero_or_pos m with rfl | hm
  · have hleast : e = leastExponent := by
      refine le_antisymm (not_lt.1 fun hlt => ?_) hnormal.least_le
      exact absurd (hnormal.full hlt) (by norm_num)
    have hx : x = (0 : Nat) := hshown.whole 0 (by rw [magnitude, Nat.cast_zero, zero_mul])
    have hdigits : digitsValue (front ++ back) = 0 := by
      have hvalue := hspells.value
      rw [hx, Nat.cast_zero, zero_mul] at hvalue
      exact_mod_cast hvalue.symm
    rw [hdigits, ofDecimal, if_pos rfl, hleast, zero]
  · refine ofDecimal_of_roundsTo negative hm hnormal he ?_
    rw [← hspells.value, zpow_neg, zpow_natCast, mul_assoc, mul_inv_cancel₀ hpow, mul_one]
    exact hshown.roundsTo

end Reading
end Double
end GlyphLine

import GlyphLine.Double.Text
import GlyphLine.Proofs.Double.Shortest
import GlyphLine.Proofs.Text.Decimal

/-!
# The plain form of a double

The plain form of a finite double is its sign and a decimal with a point, never an exponent.
There is no zero in front but the one that stands alone before the point, and none at the end but
the one that stands alone behind it.  A whole double is written exactly.  Any other is written as
a shortest decimal that rounds to it; as no whole number is near to it, there are digits behind
the point.

## Main statements

* `Spells`: digits before a point and behind it, and the rational that they stand for.
* `Shown`: the rational that is written of a double.
* `plain_finite`: **the plain form spells this rational**.
-/

namespace GlyphLine
namespace Double

open Text

/-- The digits `front.back` stand for `x`, without a zero too many on either side. -/
structure Spells (front back : List Char) (x : ℚ) : Prop where
  front_ne_nil : front ≠ []
  back_ne_nil : back ≠ []
  isDigit (c : Char) : c ∈ front ++ back → c.isDigit = true
  head (h : front.head? = some '0') : front = ['0']
  last (h : back.getLast? = some '0') : back = ['0']
  value : x * 10 ^ back.length = digitsValue (front ++ back)

/-- What is written of `m * 2 ^ e`: the number itself if it is whole, and otherwise a shortest
decimal that rounds to it. -/
structure Shown (m : Nat) (e : Int) (x : ℚ) : Prop where
  whole (w : Nat) (h : magnitude m e = w) : x = w
  other (h : ∀ w : Nat, magnitude m e ≠ w) :
    ∃ (n : Nat) (k : Int), x = n * 10 ^ k ∧ IsShortest (RoundsTo m e) (magnitude m e) n k

/-! ## Digits -/

theorem digitChar_eq_zero {d : Nat} (h : d < 10) (hd : Nat.digitChar d = '0') : d = 0 := by
  rw [← digitValue_digitChar h, hd]
  rfl

/-- The digits of a whole number, with a point and a zero behind them. -/
theorem spells_whole (w : Nat) : Spells (digitsOf w) ['0'] w where
  front_ne_nil := (digits_toDigits w).ne_nil
  back_ne_nil := List.cons_ne_nil _ _
  isDigit c hc := by
    rcases List.mem_append.1 hc with hc | hc
    · exact (digits_toDigits w).isDigit c hc
    · rw [List.mem_singleton.1 hc]
      rfl
  head h := (digits_toDigits w).head h
  last _ := rfl
  value := by
    rw [digitsOf, show ['0'] = List.replicate 1 '0' from rfl, digitsValue_append_zeros,
      digitsValue_toDigits, List.length_replicate, Nat.cast_mul, Nat.cast_pow, Nat.cast_ofNat]

/-- A decimal that is no whole number and does not end in zero, with its point. -/
theorem spells_withPoint {n : Nat} {k : Int} (hk : k < 0) (hn : n % 10 ≠ 0) :
    ∃ front back : List Char,
      withPoint (digitsOf n) ((digitsOf n).length + k) = front ++ '.' :: back ∧
        Spells front back (n * 10 ^ k) := by
  have hpos : 0 < n := Nat.pos_of_ne_zero fun hzero => hn (by rw [hzero])
  obtain ⟨hne, hdigit, -, hvalue⟩ : Digits (digitsOf n) n := digits_toDigits n
  have hhead : ∀ c ∈ (digitsOf n).head?, c ≠ '0' := head?_toDigits hpos
  have hlast : (digitsOf n).getLast? ≠ some '0' := fun h => hn <| by
    rw [digitsOf, getLast?_toDigits] at h
    exact digitChar_eq_zero (Nat.mod_lt _ (by norm_num)) (Option.some.inj h)
  -- Moving the point behind the last digit again.
  have hmove {places : Nat} (hplaces : (places : Int) = -k) :
      (n * 10 ^ k * 10 ^ places : ℚ) = n := by
    rw [mul_assoc, ← zpow_natCast, hplaces, ← zpow_add₀ (by norm_num), add_neg_cancel, zpow_zero,
      mul_one]
  rw [withPoint]
  dsimp only
  split_ifs with hpoint hlong
  · refine ⟨['0'], List.replicate (-((digitsOf n).length + k)).toNat '0' ++ digitsOf n, rfl,
      ⟨List.cons_ne_nil _ _, by simp [hne], fun c hc => ?_, fun _ => rfl, fun h => ?_, ?_⟩⟩
    · rcases List.mem_append.1 hc with hc | hc
      · rw [List.mem_singleton.1 hc]
        rfl
      · rcases List.mem_append.1 hc with hc | hc
        · rw [List.eq_of_mem_replicate hc]
          rfl
        · exact hdigit c hc
    · rw [List.getLast?_append_of_ne_nil _ hne] at h
      exact absurd h hlast
    · rw [hmove (by rw [List.length_append, List.length_replicate]; omega),
        show ['0'] = List.replicate 1 '0' from rfl, digitsValue_zeros_append,
        digitsValue_zeros_append, hvalue]
  · omega
  · have hlength : ((digitsOf n).length + k).toNat < (digitsOf n).length := Nat.lt_of_not_le hlong
    refine ⟨_, _, rfl, ⟨?_, ?_, fun c hc => ?_, fun h => ?_, fun h => ?_, ?_⟩⟩
    · rw [Ne, List.take_eq_nil_iff]
      exact not_or.2 ⟨by omega, hne⟩
    · rw [Ne, List.drop_eq_nil_iff]
      omega
    · rw [List.take_append_drop] at hc
      exact hdigit c hc
    · rw [List.head?_take, if_neg (by omega)] at h
      exact absurd rfl (hhead '0' h)
    · rw [List.getLast?_drop, if_neg (by omega)] at h
      exact absurd h hlast
    · rw [hmove (by rw [List.length_drop]; omega), List.take_append_drop, hvalue]

/-! ## Whole doubles -/

section Whole

variable {m : Nat} {e : Int} {negative : Bool}

/-- With a negative exponent, the double is whole if the power divides its mantissa. -/
theorem magnitude_eq_iff (he : ¬ 0 ≤ e) (w : Nat) :
    magnitude m e = w ↔ m = w * 2 ^ (-e).toNat := by
  have hpow : (0 : ℚ) < 2 ^ (-e).toNat := by positivity
  have hzero : e.toNat = 0 := by omega
  rw [magnitude, zpow_eq_div two_ne_zero e, hzero, pow_zero, mul_one_div, div_eq_iff hpow.ne']
  exact_mod_cast Iff.rfl

theorem isWhole_iff :
    isWhole (.finite negative m e) = true ↔ ∃ w : Nat, magnitude m e = w := by
  rw [isWhole, Bool.or_eq_true, decide_eq_true_eq, beq_iff_eq, Nat.pow_eq]
  by_cases he : 0 ≤ e
  · refine iff_of_true (.inl he) ⟨m * 2 ^ e.toNat, ?_⟩
    rw [magnitude, ← Int.toNat_of_nonneg he, zpow_natCast]
    push_cast
    rfl
  · simp only [he, false_or, magnitude_eq_iff he]
    exact Nat.dvd_iff_mod_eq_zero.symm.trans dvd_iff_exists_eq_mul_left

/-- A whole double is written with all its digits. -/
theorem plain_whole {w : Nat} (h : magnitude m e = w) :
    plain (.finite negative m e) = String.ofList (sign negative ++ digitsOf w ++ ['.', '0']) := by
  have hpart : (if 0 ≤ e then m * Nat.pow 2 e.toNat else m / Nat.pow 2 (-e).toNat) = w := by
    split_ifs with he
    · rw [magnitude, ← Int.toNat_of_nonneg he, zpow_natCast] at h
      rw [Nat.pow_eq]
      exact_mod_cast h
    · rw [(magnitude_eq_iff he w).1 h, Nat.pow_eq]
      exact Nat.mul_div_cancel _ (by positivity)
  rw [plain, if_pos (isWhole_iff.2 ⟨w, h⟩)]
  dsimp only
  rw [hpart]

end Whole

/-! ## Other doubles -/

section Other

variable {m : Nat} {e : Int} {negative : Bool}

/-- A double that is not whole is farther from the whole numbers than from the next double. -/
theorem not_roundsTo_natCast (h : ∀ w : Nat, magnitude m e ≠ w) (w : Nat) :
    ¬ RoundsTo m e w := by
  intro hw
  have he : ¬ 0 ≤ e := fun he => by
    have hwhole : isWhole (.finite false m e) = true := by
      rw [isWhole, decide_eq_true he, Bool.true_or]
    obtain ⟨w', hw'⟩ := isWhole_iff.1 hwhole
    exact h w' hw'
  have hpow : (0 : ℚ) < 2 ^ (-e).toNat := by positivity
  have hunit : (2 : ℚ) ^ e * 2 ^ (-e).toNat = 1 := by
    rw [← zpow_natCast, Int.toNat_of_nonneg (by omega), ← zpow_add₀ two_ne_zero, add_neg_cancel,
      zpow_zero]
  -- Scaled to the mantissa, the distance is one of whole numbers, and at most a half.
  have hscaled : |(w * 2 ^ (-e).toNat - m : ℚ)| ≤ 1 / 2 :=
    calc |(w * 2 ^ (-e).toNat - m : ℚ)| = |w - magnitude m e| * 2 ^ (-e).toNat := by
          rw [← abs_of_pos hpow, ← abs_mul, abs_of_pos hpow, sub_mul, magnitude, mul_assoc, hunit,
            mul_one]
      _ ≤ 2 ^ e / 2 * 2 ^ (-e).toNat := mul_le_mul_of_nonneg_right hw.abs_sub_le hpow.le
      _ = 1 / 2 := by rw [div_mul_eq_mul_div, hunit]
  refine h w ((magnitude_eq_iff he w).2 ?_)
  by_contra hne
  have hone : (1 : ℚ) ≤ |(w * 2 ^ (-e).toNat - m : ℚ)| := by
    exact_mod_cast Int.one_le_abs (sub_ne_zero.2 fun heq => hne (by exact_mod_cast heq.symm) :
      ((w * 2 ^ (-e).toNat : Nat) : Int) - m ≠ 0)
  linarith

/-- A shortest decimal of a double that is not whole has digits behind its point, and the last
one is no zero. -/
theorem IsShortest.fraction {n : Nat} {k : Int} (h : ∀ w : Nat, magnitude m e ≠ w)
    (hs : IsShortest (RoundsTo m e) (magnitude m e) n k) : k < 0 ∧ n % 10 ≠ 0 := by
  constructor
  · refine Int.not_le.1 fun hk => not_roundsTo_natCast h (n * 10 ^ k.toNat) ?_
    have hholds := hs.holds
    rw [← Int.toNat_of_nonneg hk, zpow_natCast] at hholds
    exact_mod_cast hholds
  · intro hn
    refine hs.coarsest (n / 10) (k + 1) (Int.lt_succ k) ?_
    have hten : (n : ℚ) = (n / 10 : Nat) * 10 := by
      exact_mod_cast (Nat.div_mul_cancel (Nat.dvd_of_mod_eq_zero hn)).symm
    rw [zpow_add_one₀ (by norm_num), mul_comm ((10 : ℚ) ^ k), ← mul_assoc, ← hten]
    exact hs.holds

end Other

/-- **The plain form of a finite double spells what is shown of it**, behind its sign. -/
theorem plain_finite (negative : Bool) {m : Nat} {e : Int} (hm : m < 2 ^ 53)
    (he : leastExponent ≤ e) :
    ∃ (front back : List Char) (x : ℚ), Shown m e x ∧ Spells front back x ∧
      plain (.finite negative m e) = String.ofList (sign negative ++ front ++ '.' :: back) := by
  by_cases hwhole : ∃ w : Nat, magnitude m e = w
  · obtain ⟨w, hw⟩ := hwhole
    refine ⟨digitsOf w, ['0'], w, ⟨fun w' hw' => ?_, fun h => absurd hw (h w)⟩, spells_whole w,
      plain_whole hw⟩
    rw [← hw, hw']
  · have hother (w : Nat) : magnitude m e ≠ w := fun hw => hwhole ⟨w, hw⟩
    have hpos : 0 < m := Nat.pos_of_ne_zero fun hzero => hother 0 (by
      rw [magnitude, hzero, Nat.cast_zero, zero_mul])
    have hshortest := isShortest_shortest hpos hm he
    obtain ⟨hk, hn⟩ := hshortest.fraction hother
    obtain ⟨front, back, hpoint, hspells⟩ := spells_withPoint hk hn
    refine ⟨front, back, _, ⟨fun w hw => absurd hw (hother w), fun _ => ⟨_, _, rfl, hshortest⟩⟩,
      hspells, ?_⟩
    rw [plain, if_neg (mt isWhole_iff.1 hwhole)]
    dsimp only
    rw [hpoint, List.append_assoc]

end Double
end GlyphLine

import GlyphLine.Text.Decimal
import Mathlib.Algebra.Group.Nat.Defs
import Mathlib.Data.List.Induction
import Mathlib.Data.List.TakeDrop

/-!
# What decimal digits stand for

Two lists of digits one after the other stand for the number of the first, moved to the
left by the length of the second, and the number of the second.  From this follows that
the digits that a number is written with stand for the number again.

## Main statements

* `digitsValue_append`: the number of two lists of digits.
* `digitsValue_toDigits`: the number of the digits of a number.
* `digits_toDigits`: a number is written with its digits, and without a zero in front.
* `span_isDigit`: a run of digits ends where no digit follows.
-/

namespace GlyphLine
namespace Text

theorem digitValue_digitChar {d : Nat} (h : d < 10) : digitValue (Nat.digitChar d) = d :=
  Nat.toNat_digitChar_sub_48_of_lt_ten h

/-- There are ten digits. -/
theorem exists_digitChar {c : Char} (h : c.isDigit = true) : ∃ n < 10, Nat.digitChar n = c := by
  have hbounds := Char.isDigit_iff_toNat.1 h
  have hzero : '0'.toNat = 48 := rfl
  have hnine : '9'.toNat = 57 := rfl
  refine ⟨c.toNat - 48, by omega, Char.toNat_inj.1 ?_⟩
  rw [Nat.toNat_digitChar_of_lt_ten (by omega)]
  omega

@[simp] theorem digitsValue_nil : digitsValue [] = 0 := rfl

/-- The reader counts as the standard library does. -/
theorem digitsValue_eq_ofDigitChars (ds : List Char) :
    digitsValue ds = Nat.ofDigitChars 10 ds 0 := by
  have step : (fun n c => n * 10 + digitValue c) = fun n (c : Char) =>
      10 * n + (c.toNat - '0'.toNat) := by
    funext n c
    rw [Nat.mul_comm, digitValue]
  rw [digitsValue, Nat.ofDigitChars, step]

theorem digitsValue_append (ds es : List Char) :
    digitsValue (ds ++ es) = digitsValue ds * 10 ^ es.length + digitsValue es := by
  induction es using List.reverseRecOn with
  | nil => simp
  | append_singleton es e ih =>
    have last (l : List Char) : digitsValue (l ++ [e]) = digitsValue l * 10 + digitValue e := by
      rw [digitsValue, List.foldl_append, ← digitsValue]
      rfl
    rw [← List.append_assoc, last, ih, last, List.length_append, List.length_singleton,
      Nat.pow_succ]
    rw [Nat.add_mul, Nat.mul_assoc, Nat.add_assoc]

/-- Zeros at the end multiply by ten each. -/
theorem digitsValue_append_zeros (ds : List Char) (k : Nat) :
    digitsValue (ds ++ List.replicate k '0') = digitsValue ds * 10 ^ k := by
  have zeros : digitsValue (List.replicate k '0') = 0 := by
    induction k with
    | zero => rfl
    | succ k ih =>
      rw [List.replicate_succ, ← List.singleton_append, digitsValue_append, ih,
        show digitsValue ['0'] = 0 from rfl, Nat.zero_mul]
  rw [digitsValue_append, zeros, List.length_replicate, Nat.add_zero]

/-- Zeros in front do not count. -/
theorem digitsValue_zeros_append (k : Nat) (ds : List Char) :
    digitsValue (List.replicate k '0' ++ ds) = digitsValue ds := by
  have hzeros : digitsValue (List.replicate k '0') = 0 := by
    rw [← List.nil_append (List.replicate k '0'), digitsValue_append_zeros, digitsValue_nil,
      Nat.zero_mul]
  rw [digitsValue_append, hzeros, Nat.zero_mul, Nat.zero_add]

/-- Reading undoes writing on numbers. -/
theorem digitsValue_toDigits (n : Nat) : digitsValue (Nat.toDigits 10 n) = n := by
  rw [digitsValue_eq_ofDigitChars, Nat.ofDigitChars_ten_toDigits]

/-- A positive number is written without a zero in front. -/
theorem head?_toDigits {n : Nat} (h : 0 < n) : ∀ c ∈ (Nat.toDigits 10 n).head?, c ≠ '0' := by
  induction n using Nat.strongRecOn with
  | ind n ih =>
    intro c hc
    by_cases hlt : n < 10
    · rw [Nat.toDigits_of_lt_base hlt] at hc
      obtain rfl : Nat.digitChar n = c := Option.some.inj hc
      rw [Ne, Nat.digitChar_eq_zero]
      omega
    · rw [Nat.toDigits_of_base_le (by omega) (by omega)] at hc
      cases hds : Nat.toDigits 10 (n / 10) with
      | nil => exact absurd hds Nat.toDigits_ne_nil
      | cons d ds =>
        rw [hds, List.cons_append] at hc
        refine ih (n / 10) (by omega) (by omega) c ?_
        rw [hds]
        exact hc

theorem getLast?_toDigits (n : Nat) :
    (Nat.toDigits 10 n).getLast? = some (Nat.digitChar (n % 10)) := by
  by_cases hlt : n < 10
  · rw [Nat.toDigits_of_lt_base hlt, Nat.mod_eq_of_lt hlt]
    rfl
  · rw [Nat.toDigits_of_base_le (by omega) (by omega), List.getLast?_concat]

/-- The number of digits tells between which powers of ten a number is. -/
theorem length_toDigits_bounds {n : Nat} (h : 0 < n) :
    10 ^ ((Nat.toDigits 10 n).length - 1) ≤ n ∧ n < 10 ^ (Nat.toDigits 10 n).length := by
  have hpos : 0 < (Nat.toDigits 10 n).length := List.length_pos_iff.2 Nat.toDigits_ne_nil
  refine ⟨?_, (Nat.length_toDigits_le_iff (by omega) hpos).1 (Nat.le_refl _)⟩
  rcases Nat.eq_zero_or_pos ((Nat.toDigits 10 n).length - 1) with hzero | hpos'
  · rwa [hzero]
  · refine Nat.le_of_not_lt fun hsmall => ?_
    have hshort := (Nat.length_toDigits_le_iff (by omega) hpos').2 hsmall
    omega

/-- Decimal digits of a number, without a zero in front. -/
structure Digits (ds : List Char) (n : Nat) : Prop where
  ne_nil : ds ≠ []
  isDigit (c : Char) : c ∈ ds → c.isDigit = true
  head (h : ds.head? = some '0') : ds = ['0']
  value : digitsValue ds = n

theorem digits_toDigits (n : Nat) : Digits (Nat.toDigits 10 n) n where
  ne_nil := Nat.toDigits_ne_nil
  isDigit _ h := Nat.isDigit_of_mem_toDigits (by omega) (by omega) h
  head h := by
    rcases Nat.eq_zero_or_pos n with rfl | hpos
    · rfl
    · exact absurd rfl (head?_toDigits hpos '0' h)
  value := digitsValue_toDigits n

/-- Digits in front of something that does not begin with one are just the run of digits
that a reader cuts off. -/
theorem span_isDigit {ds rest : List Char} (hd : ∀ c ∈ ds, c.isDigit = true)
    (hr : ∀ c ∈ rest.head?, c.isDigit = false) :
    (ds ++ rest).span Char.isDigit = (ds, rest) := by
  have hrest : rest.takeWhile Char.isDigit = [] ∧ rest.dropWhile Char.isDigit = rest := by
    cases rest with
    | nil => exact ⟨rfl, rfl⟩
    | cons c rest =>
      have hc := hr c rfl
      exact ⟨List.takeWhile_cons_of_neg (by simp [hc]), List.dropWhile_cons_of_neg (by simp [hc])⟩
  rw [List.span_eq_takeWhile_dropWhile, List.takeWhile_append_of_pos hd,
    List.dropWhile_append_of_pos hd, hrest.1, hrest.2, List.append_nil]

end Text
end GlyphLine

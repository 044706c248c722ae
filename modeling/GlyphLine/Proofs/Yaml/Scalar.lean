import GlyphLine.Proofs.Json.Lexeme
import GlyphLine.Yaml.Scalar

/-!
# Whole numbers as plain scalars

A plain scalar that is written as a whole number stands for this number: it is no null and
no truth value, it has no prefix of another base, and no digits behind a zero.

* `Plain.whole?_numberChars`: the number that is read.
* `Plain.of_toString`: what the scalar stands for.
-/

namespace GlyphLine
namespace Yaml
namespace Plain

open Text

theorem digitIn?_ten {c : Char} (h : c.isDigit = true) : digitIn? 10 c = some (digitValue c) := by
  have hlt : c.toNat - 48 < 10 := by
    have hbounds := Char.isDigit_iff_toNat.1 h
    have hzero : '0'.toNat = 48 := rfl
    have hnine : '9'.toNat = 57 := rfl
    omega
  rw [digitIn?, digit?, if_pos h]
  show (if decide (c.toNat - 48 < 10) = true then some _ else none) = _
  rw [if_pos (decide_eq_true hlt)]
  rfl

/-- Digits stand for the same number here as elsewhere. -/
theorem natural?_ten {ds : List Char} (hne : ds ≠ []) (h : ∀ c ∈ ds, c.isDigit = true) :
    natural? 10 ds = some (digitsValue ds) := by
  have hmap : ds.mapM (digitIn? 10) = some (ds.map digitValue) := by
    clear hne
    induction ds with
    | nil => rfl
    | cons c ds ih =>
      rw [List.mapM_cons, digitIn?_ten (h c List.mem_cons_self),
        ih fun d hd => h d (List.mem_cons_of_mem _ hd)]
      rfl
  have hempty : ds.isEmpty = false := by
    rwa [List.isEmpty_eq_false_iff]
  rw [natural?, hempty, if_neg Bool.false_ne_true, hmap, Option.map_some, List.foldl_map,
    digitsValue]

theorem isDigit_of_mem_toDigits {n : Nat} {c : Char} (h : c ∈ Nat.toDigits 10 n) :
    c.isDigit = true :=
  Nat.isDigit_of_mem_toDigits (by omega) (by omega) h

/-- A number is read from the digits that it is written with. -/
theorem magnitude?_toDigits (n : Nat) : magnitude? (Nat.toDigits 10 n) = some n := by
  have hnatural : natural? 10 (Nat.toDigits 10 n) = some n := by
    rw [natural?_ten Nat.toDigits_ne_nil fun c hc => isDigit_of_mem_toDigits hc,
      digitsValue_toDigits]
  by_cases hzero : n = 0
  · subst hzero
    rfl
  · have hhead := head?_toDigits (Nat.pos_of_ne_zero hzero)
    have hdigit : ∀ c ∈ (Nat.toDigits 10 n).head?, c.isDigit = true := fun c hc =>
      isDigit_of_mem_toDigits (List.mem_of_head? hc)
    cases hds : Nat.toDigits 10 n with
    | nil => exact absurd hds Nat.toDigits_ne_nil
    | cons c ds =>
      rw [hds] at hnatural hhead hdigit
      have hc : c ≠ '0' := hhead c rfl
      have hsign : isSign c = false := by
        have hcd := hdigit c rfl
        rw [isSign, Bool.or_eq_false_iff, beq_eq_false_iff_ne, beq_eq_false_iff_ne]
        exact ⟨by rintro rfl; exact absurd hcd (by decide),
          by rintro rfl; exact absurd hcd (by decide)⟩
      have hled : isZeroLed (c :: ds) = false := by
        rw [isZeroLed, dropSign, hsign, if_neg Bool.false_ne_true]
        split
        · next heq => exact absurd (List.cons.inj heq).1 hc
        · rfl
      unfold magnitude?
      split
      · next heq => exact absurd (List.cons.inj heq).1 hc
      · next heq => exact absurd (List.cons.inj heq).1 hc
      · next heq => exact absurd (List.cons.inj heq).1 hc
      · rw [hled, if_neg Bool.false_ne_true, hnatural]

/-- A whole number is read from the way that it is written. -/
theorem whole?_numberChars (n : Int) : whole? (Json.numberChars (.whole n)) = some n := by
  cases n with
  | ofNat n =>
    have hdigit : ∀ c ∈ (Nat.toDigits 10 n).head?, c.isDigit = true := fun c hc =>
      isDigit_of_mem_toDigits (List.mem_of_head? hc)
    show whole? (Json.numberChars (.whole (n : Int))) = _
    rw [Json.Lexeme.numberChars_ofNat]
    unfold whole?
    split
    · next heq => exact absurd (hdigit '-' (heq ▸ rfl)) (by decide)
    · next heq => exact absurd (hdigit '+' (heq ▸ rfl)) (by decide)
    · rw [magnitude?_toDigits]
      rfl
  | negSucc n =>
    rw [Json.Lexeme.numberChars_neg, whole?, magnitude?_toDigits]
    rfl

/-- Whether a text begins as a number does. -/
def beginsNumber (s : String) : Bool := s.toList.head?.any fun c => c == '-' || c.isDigit

theorem beginsNumber_toString (n : Int) : beginsNumber (toString n) = true := by
  obtain ⟨c, cs, hcs, hc⟩ := Json.Lexeme.numberChars_eq_cons n
  have hlist : (toString n).toList = c :: cs := hcs
  rw [beginsNumber, hlist]
  simpa using hc

/-- A whole number is none of the words that do not begin as a number does. -/
theorem contains_toString {words : List String} (h : words.all (fun w => !beginsNumber w) = true)
    (n : Int) : words.contains (toString n) = false := by
  refine Bool.eq_false_iff.2 fun hmem => ?_
  have hnot := List.all_eq_true.1 h _ (List.contains_iff_mem.1 hmem)
  rw [beginsNumber_toString] at hnot
  exact Bool.false_ne_true hnot

/-- A whole number is not a word for null. -/
theorem isNull_toString (n : Int) : isNull (toString n) = false := contains_toString rfl n

theorem isEmpty_toString (n : Int) : (toString n).isEmpty = false := by
  refine Bool.eq_false_iff.2 fun h => ?_
  have hnot := beginsNumber_toString n
  rw [String.isEmpty_iff.1 h] at hnot
  exact absurd hnot (by decide)

theorem bool?_toString (n : Int) : bool? (toString n) = none := by
  rw [bool?, contains_toString rfl n, if_neg Bool.false_ne_true, contains_toString rfl n,
    if_neg Bool.false_ne_true]

/-- A whole number stands for itself, if it is not too large. -/
theorem of_toString {n : Int} (h : Width.fits 128 n = true) : of (toString n) = .whole n := by
  have hwhole : (whole? (toString n).toList).filter (Width.fits 128) = some n := by
    have hread : whole? (toString n).toList = some n := whole?_numberChars n
    rw [hread, Option.filter_some, if_pos h]
  rw [of, isEmpty_toString, isNull_toString, Bool.or_false, if_neg Bool.false_ne_true,
    bool?_toString]
  dsimp only
  rw [hwhole]

end Plain
end Yaml
end GlyphLine

import GlyphLine.Policy.Scalar
import GlyphLine.Proofs.Double.Plain
import GlyphLine.Proofs.Double.Rounding
import GlyphLine.Proofs.Json.Lexeme
import GlyphLine.Proofs.Text.Trim

/-!
# What a scalar stands for

A scalar has two readings.  As a text it is compared with what a glyph line says: a string is
taken as it is, a truth value has a capital letter, a whole number is written in decimal digits,
and a double with a point and without an exponent.  As a switch it is on or off: a number is on
unless it is zero or none, and a string is on if it is one of four words, with letters of either
size and white space around them.

* `WrittenAs`: the texts of the scalars, in terms of their digits.
* `IsOn`: the switches that are on.
* `writtenAs_toText`: **a scalar is written as its text**.
* `isEnabled_iff`: **which switches are on**.
-/

namespace GlyphLine
namespace Scalar

open Text

/-- Whether the double, if the scalar is one, is a double of sixty-four bits. -/
def InRange : Scalar → Prop
  | .double d => d.InRange
  | _ => True

/-- The text that a scalar is compared as. -/
inductive WrittenAs : Scalar → String → Prop
  | text (s : String) : WrittenAs (.text s) s
  | on : WrittenAs (.bool true) "True"
  | off : WrittenAs (.bool false) "False"
  | whole (n : Int) (ds : List Char) (h : Digits ds n.natAbs) :
      WrittenAs (.whole n) (String.ofList ((if n < 0 then ['-'] else []) ++ ds))
  | nan : WrittenAs (.double .nan) "nan"
  | above : WrittenAs (.double (.infinite false)) "inf"
  | below : WrittenAs (.double (.infinite true)) "-inf"
  | finite (negative : Bool) (m : Nat) (e : Int) (front back : List Char) (x : ℚ)
      (hx : Double.Shown m e x) (h : Double.Spells front back x) :
      WrittenAs (.double (.finite negative m e))
        (String.ofList ((if negative then ['-'] else []) ++ front ++ '.' :: back))

/-- Whether a scalar is on as a switch. -/
inductive IsOn : Scalar → Prop
  | bool : IsOn (.bool true)
  | whole (n : Int) (h : n ≠ 0) : IsOn (.whole n)
  | infinite (negative : Bool) : IsOn (.double (.infinite negative))
  | finite (negative : Bool) (m : Nat) (e : Int) (h : Double.magnitude m e ≠ 0) :
      IsOn (.double (.finite negative m e))
  | text (s : String) (before word after : List Char) (h : s.toList = before ++ word ++ after)
      (hbefore : ∀ c ∈ before, isBlank c = true) (hafter : ∀ c ∈ after, isBlank c = true)
      (hword : String.ofList (word.map Char.toLower) ∈ ["true", "yes", "on", "1"]) :
      IsOn (.text s)

/-! ## As a text -/

theorem whole_toText (n : Int) :
    (whole n).toText.toList = (if n < 0 then ['-'] else []) ++ Nat.toDigits 10 n.natAbs := by
  cases n with
  | ofNat n =>
    rw [Int.ofNat_eq_natCast, if_neg (Int.not_lt.2 (Int.natCast_nonneg n))]
    exact Json.Lexeme.numberChars_ofNat n
  | negSucc n =>
    rw [if_pos (Int.negSucc_lt_zero n)]
    exact Json.Lexeme.numberChars_neg n

/-- **A scalar is written as its text.** -/
theorem writtenAs_toText {s : Scalar} (h : s.InRange) : WrittenAs s s.toText := by
  cases s with
  | text s => exact .text s
  | whole n =>
    have htext : (whole n).toText =
        String.ofList ((if n < 0 then ['-'] else []) ++ Nat.toDigits 10 n.natAbs) := by
      rw [← whole_toText, String.ofList_toList]
    rw [htext]
    exact .whole n _ (digits_toDigits _)
  | double d =>
    cases d with
    | nan => exact .nan
    | infinite negative =>
      cases negative with
      | false => exact .above
      | true => exact .below
    | finite negative m e =>
      obtain ⟨front, back, x, hx, hspells, hplain⟩ :=
        Double.plain_finite negative h.1.lt h.1.least_le
      rw [toText, hplain]
      exact .finite negative m e front back x hx hspells
  | bool b =>
    cases b with
    | false => exact .off
    | true => exact .on

/-- A whole number that does not fit is a double in range. -/
theorem inRange_ofWhole (n : Int) : (ofWhole n).InRange := by
  rw [ofWhole]
  split_ifs
  · trivial
  · exact Double.inRange_ofInt

/-! ## As a switch -/

/-- The words that turn a switch on have no white space in them, in letters of either size. -/
theorem isBlank_of_mem_word {word : List Char}
    (hword : String.ofList (word.map Char.toLower) ∈ switchedOn) {c : Char} (hc : c ∈ word) :
    isBlank c = false := by
  have hwords : (switchedOn.all fun s => s.toList.all fun d => !isBlank d) = true := rfl
  by_contra hblank
  rw [Bool.not_eq_false] at hblank
  have hmem : c ∈ (String.ofList (word.map Char.toLower)).toList := by
    rw [String.toList_ofList]
    exact List.mem_map.2 ⟨c, hc, toLower_of_isBlank hblank⟩
  have hnot := List.all_eq_true.1 (List.all_eq_true.1 hwords _ hword) c hmem
  rw [hblank] at hnot
  exact Bool.false_ne_true hnot

theorem isEnabled_text_iff (s : String) :
    (text s).isEnabled = true ↔ ∃ before word after : List Char,
      s.toList = before ++ word ++ after ∧ (∀ c ∈ before, isBlank c = true) ∧
        (∀ c ∈ after, isBlank c = true) ∧
        String.ofList (word.map Char.toLower) ∈ switchedOn := by
  have htrim : (text s).isEnabled = true ↔
      String.ofList ((trimChars s.toList).map Char.toLower) ∈ switchedOn := by
    rw [isEnabled, List.contains_iff_mem, lower, trim, String.toList_ofList]
  rw [htrim]
  constructor
  · intro h
    obtain ⟨-, before, after, hs, hbefore, hafter⟩ :=
      trimChars_eq_iff.1 (Eq.refl (trimChars s.toList))
    exact ⟨before, _, after, hs, hbefore, hafter, h⟩
  · rintro ⟨before, word, after, hs, hbefore, hafter, hword⟩
    have hbare : Bare word :=
      ⟨fun c hc => isBlank_of_mem_word hword (List.mem_of_mem_head? hc),
        fun c hc => isBlank_of_mem_word hword (List.mem_of_mem_getLast? hc)⟩
    rwa [trimChars_eq_iff.2 ⟨hbare, before, after, hs, hbefore, hafter⟩]

theorem isEnabled_finite_iff {negative : Bool} {m : Nat} {e : Int} :
    (double (.finite negative m e)).isEnabled = true ↔ Double.magnitude m e ≠ 0 := by
  have hpow : (2 : ℚ) ^ e ≠ 0 := by positivity
  rw [Double.magnitude, mul_ne_zero_iff_right hpow, Nat.cast_ne_zero, ← bne_iff_ne]
  rfl

/-- **Which switches are on.** -/
theorem isEnabled_iff {s : Scalar} : s.isEnabled = true ↔ IsOn s := by
  constructor
  · intro h
    cases s with
    | text s =>
      obtain ⟨before, word, after, hs, hbefore, hafter, hword⟩ := (isEnabled_text_iff s).1 h
      exact .text s before word after hs hbefore hafter hword
    | whole n => exact .whole n (bne_iff_ne.1 h)
    | double d =>
      cases d with
      | nan => exact absurd h Bool.false_ne_true
      | infinite negative => exact .infinite negative
      | finite negative m e => exact .finite negative m e (isEnabled_finite_iff.1 h)
    | bool b =>
      cases b with
      | false => exact absurd h Bool.false_ne_true
      | true => exact .bool
  · intro h
    cases h with
    | bool => rfl
    | whole n hn => exact bne_iff_ne.2 hn
    | infinite => rfl
    | finite negative m e hm => exact isEnabled_finite_iff.2 hm
    | text s before word after hs hbefore hafter hword =>
      exact (isEnabled_text_iff s).2 ⟨before, word, after, hs, hbefore, hafter, hword⟩

end Scalar
end GlyphLine

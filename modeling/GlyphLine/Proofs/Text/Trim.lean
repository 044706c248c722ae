import GlyphLine.Text.Basic
import GlyphLine.Text.Blank
import Mathlib.Data.List.TakeWhile

/-!
# What trimming leaves

A text is white space, then something that neither begins nor ends with white space, then white
space again; the part in the middle is what trimming leaves.  It may be empty, and there is only
one way to cut a text like this unless it is.

* `Bare`: no white space at either end.
* `trimChars_eq_iff`: what trimming leaves.
* `toLower_of_isBlank`: white space is the same in small letters.
-/

namespace GlyphLine
namespace Text

/-- Whether characters neither begin nor end with white space. -/
structure Bare (cs : List Char) : Prop where
  head (c : Char) : c ∈ cs.head? → isBlank c = false
  last (c : Char) : c ∈ cs.getLast? → isBlank c = false

/-- White space in front of something bare is dropped, and nothing else. -/
theorem dropWhile_isBlank_append {before cs : List Char} (h : ∀ c ∈ before, isBlank c = true)
    (hcs : ∀ c ∈ cs.head?, isBlank c = false) : (before ++ cs).dropWhile isBlank = cs := by
  rw [List.dropWhile_append_of_pos h]
  cases cs with
  | nil => rfl
  | cons c cs => exact List.dropWhile_cons_of_neg (by rw [hcs c rfl]; exact Bool.false_ne_true)

theorem head?_dropWhile_isBlank (cs : List Char) :
    ∀ c ∈ (cs.dropWhile isBlank).head?, isBlank c = false := by
  intro c hc
  have hnot := List.head?_dropWhile_not isBlank cs
  rw [hc] at hnot
  simpa using hnot

/-- **Trimming leaves the bare part of a text between white space.** -/
theorem trimChars_eq_iff {cs ds : List Char} :
    trimChars cs = ds ↔ Bare ds ∧ ∃ before after : List Char, cs = before ++ ds ++ after ∧
      (∀ c ∈ before, isBlank c = true) ∧ ∀ c ∈ after, isBlank c = true := by
  constructor
  · rintro rfl
    set rest := cs.dropWhile isBlank with hrest
    have htrim : trimChars cs = (rest.reverse.dropWhile isBlank).reverse := rfl
    have hcut : rest = trimChars cs ++ (rest.reverse.takeWhile isBlank).reverse := by
      rw [htrim, ← List.reverse_append, List.takeWhile_append_dropWhile, List.reverse_reverse]
    refine ⟨⟨fun c hc => ?_, fun c hc => ?_⟩, cs.takeWhile isBlank,
      (rest.reverse.takeWhile isBlank).reverse, ?_, fun c hc => List.mem_takeWhile_imp hc,
      fun c hc => List.mem_takeWhile_imp (List.mem_reverse.1 hc)⟩
    · refine head?_dropWhile_isBlank cs c ?_
      rw [← hrest, hcut, List.head?_append, Option.mem_def.1 hc]
      rfl
    · rw [htrim, List.getLast?_reverse] at hc
      exact head?_dropWhile_isBlank _ c hc
    · rw [List.append_assoc, ← hcut, List.takeWhile_append_dropWhile]
  · rintro ⟨hbare, before, after, rfl, hbefore, hafter⟩
    rw [trimChars]
    have hreverse {es : List Char} (hes : ∀ c ∈ es.getLast?, isBlank c = false) :
        ((es ++ after).reverse.dropWhile isBlank).reverse = es := by
      rw [List.reverse_append, dropWhile_isBlank_append
        (fun c hc => hafter c (List.mem_reverse.1 hc)) (by rwa [List.head?_reverse]),
        List.reverse_reverse]
    cases ds with
    | nil =>
      rw [List.append_nil, List.dropWhile_eq_nil_iff.2 fun c hc =>
        (List.mem_append.1 hc).elim (hbefore c) (hafter c)]
      rfl
    | cons d ds =>
      have hhead : ∀ c ∈ (d :: ds ++ after).head?, isBlank c = false := hbare.head
      rw [List.append_assoc, dropWhile_isBlank_append hbefore hhead, hreverse hbare.last]

/-- White space is no capital letter. -/
theorem toLower_of_isBlank {c : Char} (h : isBlank c = true) : c.toLower = c := by
  refine dif_neg ?_
  rintro ⟨hle, hle'⟩
  have hlow : 65 ≤ c.toNat := UInt32.le_iff_toNat_le.1 hle
  have hhigh : c.toNat ≤ 90 := UInt32.le_iff_toNat_le.1 hle'
  simp only [isBlank, Bool.or_eq_true, Bool.and_eq_true, decide_eq_true_eq, beq_iff_eq] at h
  omega

end Text
end GlyphLine

import GlyphLine.Json.Container
import GlyphLine.Proofs.Json.Lexeme
import GlyphLine.Proofs.Json.Syntax

/-!
# White space between the parts

Readers pass over white space wherever it may stand: in front of a value, around commas and
colons, and in front of the bracket that ends a list or an object.  Whatever a gap consists of,
what is found behind it is the same.

## Main statements

* `skipSpace_gap`: a gap is passed over.
* `nextItem_lead`, `nextKey_lead`: what leads to an item or a member.
* `nextItem_gap`, `nextKey_gap`: what leads to the end.
* `colon_gap`: what leads to the colon behind a key.
-/

namespace GlyphLine
namespace Json

open Lexeme

theorem skipSpace_cons {c : Char} (h : isSpace c = false) (s : List Char) :
    skipSpace (c :: s) = c :: s :=
  List.dropWhile_cons_of_neg (by simp [h])

theorem skipSpace_gap (g : Gap) (s : List Char) : skipSpace (g.chars ++ s) = skipSpace s := by
  have hspace : ∀ c ∈ g.chars, isSpace c = true := by
    intro c hc
    rcases g.space c hc with rfl | rfl | rfl | rfl <;> rfl
  exact List.dropWhile_append_of_pos hspace

/-! ## Items -/

/-- What leads to an item is passed over. -/
theorem nextItem_lead {c : Char} (hspace : isSpace c = false) (hend : c ≠ ']') (first : Bool)
    (p : Place) (s : List Char) :
    nextItem first (Tree.lead first p ++ c :: s) = .ok (true, c :: s) := by
  rw [Tree.lead, List.append_assoc, List.append_assoc]
  cases first with
  | true =>
    show nextItem true (p.before.chars ++ (p.behind.chars ++ c :: s)) = _
    rw [nextItem, skipSpace_gap, skipSpace_gap, skipSpace_cons hspace]
    split
    · next heq => exact absurd heq (List.cons_ne_nil _ _)
    · next heq => exact absurd (List.cons.inj heq).1 hend
    · next heq =>
      obtain ⟨rfl, rfl⟩ := List.cons.inj heq
      exact if_pos rfl
  | false =>
    show nextItem false (p.before.chars ++ ',' :: (p.behind.chars ++ c :: s)) = _
    rw [nextItem, skipSpace_gap, skipSpace_cons (by decide)]
    split
    · next heq => exact absurd heq (List.cons_ne_nil _ _)
    · next heq => exact absurd (List.cons.inj heq).1 (by decide)
    · next heq =>
      obtain ⟨rfl, rfl⟩ := List.cons.inj heq
      rw [if_neg Bool.false_ne_true, if_pos rfl, skipSpace_gap, skipSpace_cons hspace]
      split
      · next heq => exact absurd heq (List.cons_ne_nil _ _)
      · next heq => exact absurd (List.cons.inj heq).1 hend
      · rfl

theorem nextItem_gap (first : Bool) (g : Gap) (s : List Char) :
    nextItem first (g.chars ++ ']' :: s) = .ok (false, s) := by
  rw [nextItem, skipSpace_gap, skipSpace_cons (by decide)]
  rfl

/-! ## Members -/

/-- What leads to a key is passed over. -/
theorem nextKey_lead (first : Bool) (p : Place) (s : List Char) :
    nextKey first (Tree.lead first p ++ '\"' :: s) = .ok (true, s) := by
  rw [Tree.lead, List.append_assoc, List.append_assoc]
  cases first with
  | true =>
    show nextKey true (p.before.chars ++ (p.behind.chars ++ '\"' :: s)) = _
    rw [nextKey, skipSpace_gap, skipSpace_gap, skipSpace_cons (by decide)]
    rfl
  | false =>
    show nextKey false (p.before.chars ++ ',' :: (p.behind.chars ++ '\"' :: s)) = _
    rw [nextKey, skipSpace_gap, skipSpace_cons (by decide)]
    split
    · next heq => exact absurd heq (List.cons_ne_nil _ _)
    · next heq => exact absurd (List.cons.inj heq).1 (by decide)
    · next heq =>
      obtain ⟨rfl, rfl⟩ := List.cons.inj heq
      rw [if_neg Bool.false_ne_true, if_pos rfl, skipSpace_gap, skipSpace_cons (by decide)]
      rfl

theorem nextKey_gap (first : Bool) (g : Gap) (s : List Char) :
    nextKey first (g.chars ++ '}' :: s) = .ok (false, s) := by
  rw [nextKey, skipSpace_gap, skipSpace_cons (by decide)]
  rfl

theorem colon_gap (g : Gap) (s : List Char) : colon (g.chars ++ ':' :: s) = .ok s := by
  rw [colon, skipSpace_gap, skipSpace_cons (by decide)]
  rfl

/-! ## What ends a number -/

theorem endsNumber_gap (g : Gap) {s : List Char} (h : EndsNumber s) :
    EndsNumber (g.chars ++ s) := by
  intro c hc
  cases hg : g.chars with
  | nil =>
    rw [hg] at hc
    exact h c hc
  | cons d ds =>
    rw [hg] at hc
    obtain rfl : d = c := Option.some.inj hc
    rcases g.space d (by rw [hg]; exact List.mem_cons_self) with rfl | rfl | rfl | rfl <;> decide

theorem endsNumber_cons {c : Char} (h : c = ',' ∨ c = ']' ∨ c = '}') (s : List Char) :
    EndsNumber (c :: s) := by
  intro d hd
  obtain rfl : c = d := Option.some.inj hd
  rcases h with rfl | rfl | rfl <;> decide

end Json
end GlyphLine

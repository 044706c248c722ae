import GlyphLine.Text.Basic

/-!
# Texts that are cut

At a character where it is cut, a text falls into two whose pieces follow each other.  The pieces
themselves hold no such character, and a text without one is its only piece.

* `pieces_append_cons`: the pieces on both sides of a cut.
* `pieces_eq_singleton`: a text that is not cut.
* `cut_eq_false_of_mem_pieces`: no piece holds a character at which the text is cut.
* `exists_pieces_eq_concat`: the last piece of a text that does not end with a cut.
-/

namespace GlyphLine

namespace Text

variable {cut : Char → Bool}

theorem pieces_ne_nil (cut : Char → Bool) : ∀ cs : List Char, pieces cut cs ≠ []
  | [] => List.cons_ne_nil _ _
  | c :: cs => by
    rw [pieces_cons]
    cases pieces cut cs with
    | nil => rw [consPiece]; split <;> exact List.cons_ne_nil _ _
    | cons p ps => rw [consPiece]; split <;> exact List.cons_ne_nil _ _

/-- Only the first piece is changed by a character in front. -/
theorem consPiece_append (c : Char) {ps : List (List Char)} (h : ps ≠ []) (qs : List (List Char)) :
    consPiece cut c (ps ++ qs) = consPiece cut c ps ++ qs := by
  cases ps with
  | nil => exact absurd rfl h
  | cons p ps => rw [List.cons_append, consPiece, consPiece]; split <;> rfl

theorem pieces_append_cons {c : Char} (hc : cut c = true) (b : List Char) :
    ∀ a : List Char, pieces cut (a ++ c :: b) = pieces cut a ++ pieces cut b
  | [] => by
    obtain ⟨p, ps, h⟩ := List.exists_cons_of_ne_nil (pieces_ne_nil cut b)
    rw [List.nil_append, pieces_cons, h, consPiece, if_pos hc]
    rfl
  | d :: a => by
    rw [List.cons_append, pieces_cons, pieces_append_cons hc b a,
      consPiece_append d (pieces_ne_nil cut a), ← pieces_cons]

/-- A word is one piece. -/
theorem pieces_eq_singleton : ∀ {w : List Char}, (∀ c ∈ w, cut c = false) → pieces cut w = [w]
  | [], _ => rfl
  | c :: w, h => by
    have hc : ¬ cut c = true := Bool.eq_false_iff.mp (h c List.mem_cons_self)
    rw [pieces_cons, pieces_eq_singleton fun d hd => h d (List.mem_cons_of_mem c hd), consPiece,
      if_neg hc]

/-- No piece holds a character at which the text is cut. -/
theorem cut_eq_false_of_mem_pieces : ∀ {cs p : List Char} {c : Char}, p ∈ pieces cut cs → c ∈ p →
    cut c = false
  | [], p, c, hp, hc => by
    rw [pieces_nil, List.mem_singleton] at hp
    rw [hp] at hc
    exact absurd hc List.not_mem_nil
  | d :: cs, p, c, hp, hc => by
    have ih : ∀ {q : List Char}, q ∈ pieces cut cs → c ∈ q → cut c = false :=
      cut_eq_false_of_mem_pieces
    obtain ⟨q, qs, h⟩ := List.exists_cons_of_ne_nil (pieces_ne_nil cut cs)
    rw [h] at ih
    rw [pieces_cons, h, consPiece] at hp
    split at hp
    · rcases List.mem_cons.mp hp with rfl | hp
      · exact absurd hc List.not_mem_nil
      · exact ih hp hc
    · next hd =>
      rcases List.mem_cons.mp hp with rfl | hp
      · rcases List.mem_cons.mp hc with rfl | hc
        · exact Bool.eq_false_iff.mpr hd
        · exact ih List.mem_cons_self hc
      · exact ih (List.mem_cons_of_mem q hp) hc

/-- A text that does not end with a cut has a last piece. -/
theorem exists_pieces_eq_concat {cs : List Char} (hne : cs ≠ [])
    (hlast : ∀ c ∈ cs.getLast?, cut c = false) :
    ∃ ps p, pieces cut cs = ps ++ [p] ∧ p ≠ [] := by
  induction cs with
  | nil => exact absurd rfl hne
  | cons c cs ih =>
    rw [pieces_cons]
    cases cs with
    | nil =>
      have hc : cut c = false := hlast c rfl
      refine ⟨[], [c], ?_, List.cons_ne_nil _ _⟩
      rw [pieces_nil, consPiece, hc]
      rfl
    | cons d ds =>
      obtain ⟨ps, p, hps, hp⟩ := ih (List.cons_ne_nil _ _) fun e he => hlast e (by simpa using he)
      rw [hps]
      cases ps with
      | nil =>
        rw [List.nil_append, consPiece]
        split
        · exact ⟨[[]], p, rfl, hp⟩
        · exact ⟨[], c :: p, rfl, List.cons_ne_nil _ _⟩
      | cons q ps =>
        rw [List.cons_append, consPiece]
        split
        · exact ⟨[] :: q :: ps, p, rfl, hp⟩
        · exact ⟨(c :: q) :: ps, p, rfl, hp⟩

end Text

end GlyphLine

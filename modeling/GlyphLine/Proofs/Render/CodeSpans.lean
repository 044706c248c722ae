import GlyphLine.Proofs.Text.Lines
import GlyphLine.Render.Markdown

/-!
# Code spans show what they hold

Names are shown in code spans, and a name may hold backquotes.  A reader of Markdown takes the
backquotes at the start for the opening of a span and looks for the next run of exactly as many;
what stands before it is the content, from which it takes a space at either end if there is one
at both.

## Why the reader stops at the end

The opening is longer than any run in the text.  So the reader passes over all of them
(`toClosing_append`), provided that none of them grows together with the opening or the closing
--- for this there is a space between.  The reader takes just these spaces away again, because
the text behind them has a backquote and so is not made of spaces.

## Main statements

* `readCodeSpan`: what a code span shows, and what stands behind the span.
* `readSpan_fenced`: a content between fences that are longer than its runs is found.
* `codeSpan_shows`: **a code span shows its text**, up to a space at either end of the text.
-/

namespace GlyphLine
namespace Render

open Text

variable {cs content : List Char} {n : Nat}

/-! ## Reading -/

/-- What stands before the next run of exactly `n` backquotes, and what stands behind it.  The
text has been read up to `run` backquotes, which are the last characters so far. -/
def toClosing (n : Nat) : Nat → List Char → Option (List Char × List Char)
  | run, [] => if run = n then some ([], []) else none
  | run, c :: cs =>
    if c = backquote then toClosing n (run + 1) cs
    else if run = n then some ([], c :: cs)
    else (toClosing n 0 cs).map (Prod.map (List.replicate run backquote ++ c :: ·) id)

/-- What stands between the backquotes at the start and the run that closes them, and what
stands behind that run. -/
def readSpan (cs : List Char) : Option (List Char × List Char) :=
  match cs.takeWhile (· == backquote) with
  | [] => none
  | opening => toClosing opening.length 0 (cs.drop opening.length)

/-- A text with a space in the place of every line end. -/
def spacedLines : List Char → List Char
  | [] => []
  | '\r' :: '\n' :: cs => ' ' :: spacedLines cs
  | c :: cs => (if c = '\n' ∨ c = '\r' then ' ' else c) :: spacedLines cs

/-- A content without the spaces at its ends, if there is one at both and it has more than
spaces. -/
def unpadded (cs : List Char) : List Char :=
  if cs.head? = some ' ' ∧ cs.getLast? = some ' ' ∧ cs.any (· != ' ') then cs.tail.dropLast
  else cs

/-- What the code span shows with which a text begins, and what stands behind the span. -/
def readCodeSpan (s : String) : Option (String × String) :=
  (readSpan s.toList).map (Prod.map (String.ofList ∘ unpadded ∘ spacedLines) String.ofList)

/-! ## Runs of backquotes -/

/-- Reading on makes the longest run no shorter. -/
theorem le_foldl_longerRun (c : Char) (cs : List Char) (r : Nat × Nat) :
    r.1 ≤ (cs.foldl (longerRun c) r).1 := by
  induction cs generalizing r with
  | nil => exact Nat.le_refl _
  | cons d cs ih =>
    refine Nat.le_trans ?_ (ih _)
    rw [longerRun]
    split
    · exact Nat.le_max_left _ _
    · exact Nat.le_refl _

theorem foldl_longerRun_concat {c d : Char} (h : d ≠ c) (cs : List Char) (r : Nat × Nat) :
    (cs ++ [d]).foldl (longerRun c) r = ((cs.foldl (longerRun c) r).1, 0) := by
  rw [List.foldl_append, List.foldl_cons, List.foldl_nil, longerRun, if_neg h]

/-- Spaces around a text make no run longer. -/
theorem longestRun_spaced (cs : List Char) :
    longestRun backquote (' ' :: cs ++ [' ']) = longestRun backquote cs := by
  have hspace : ' ' ≠ backquote := by decide
  rw [longestRun, foldl_longerRun_concat hspace, List.foldl_cons, longerRun, if_neg hspace]
  rfl

theorem toClosing_replicate (n : Nat) :
    ∀ k run, run + k = n → toClosing n run (List.replicate k backquote) = some ([], [])
  | 0, run, h => by rw [List.replicate_zero, toClosing, if_pos (Nat.add_zero run ▸ h)]
  | k + 1, run, h => by
    rw [List.replicate_succ, toClosing, if_pos rfl]
    exact toClosing_replicate n k (run + 1) (by omega)

/-- The reader passes over a text whose runs are all shorter than the one that it looks for, if
the text does not end with a run. -/
theorem toClosing_append (n : Nat) :
    ∀ (cs : List Char) (longest run : Nat), run ≤ longest →
      (cs.foldl (longerRun backquote) (longest, run)).1 < n →
      (cs.foldl (longerRun backquote) (longest, run)).2 = 0 →
      toClosing n run (cs ++ List.replicate n backquote) =
        some (List.replicate run backquote ++ cs, [])
  | [], longest, run, _, _, hlast => by
    obtain rfl : run = 0 := hlast
    exact toClosing_replicate n n 0 (Nat.zero_add n)
  | c :: cs, longest, run, hrun, hshort, hlast => by
    rw [List.foldl_cons, longerRun] at hshort hlast
    rw [List.cons_append, toClosing]
    by_cases hc : c = backquote
    · rw [if_pos hc] at hshort hlast ⊢
      rw [toClosing_append n cs _ _ (Nat.le_max_right _ _) hshort hlast, List.replicate_succ',
        List.append_assoc, hc]
      rfl
    · rw [if_neg hc] at hshort hlast ⊢
      dsimp only at hshort hlast
      -- the run that ends here is no longer than the longest one, so it does not close the span
      have hne : run ≠ n := by
        have hle : longest ≤ _ := le_foldl_longerRun backquote cs (longest, 0)
        omega
      rw [if_neg hne, toClosing_append n cs longest 0 (Nat.zero_le _) hshort hlast]
      rfl

/-- The opening of a span ends where the content begins. -/
theorem takeWhile_fence (hne : content ≠ []) (hhead : content.head? ≠ some backquote) (n : Nat)
    (rest : List Char) :
    (List.replicate n backquote ++ (content ++ rest)).takeWhile (· == backquote) =
      List.replicate n backquote := by
  obtain ⟨c, tail, rfl⟩ := List.exists_cons_of_ne_nil hne
  have hfence : ∀ d ∈ List.replicate n backquote, (d == backquote) = true := fun d hd =>
    beq_iff_eq.mpr (List.eq_of_mem_replicate hd)
  have hstop : (c :: (tail ++ rest)).takeWhile (· == backquote) = [] :=
    List.takeWhile_cons_of_neg fun h => hhead (congrArg some (eq_of_beq h))
  rw [List.takeWhile_append_of_pos hfence, List.cons_append, hstop, List.append_nil]

/-- A text that does not end with a backquote does not end with a run. -/
theorem foldl_longerRun_snd (hne : content ≠ []) (hlast : content.getLast? ≠ some backquote)
    (r : Nat × Nat) : (content.foldl (longerRun backquote) r).2 = 0 := by
  have hc : content.getLast hne ≠ backquote := fun h =>
    hlast (h ▸ List.getLast?_eq_some_getLast hne)
  rw [← List.dropLast_append_getLast hne, foldl_longerRun_concat hc]

/-- A content between fences that are longer than its runs is found, if no fence grows. -/
theorem readSpan_fenced (hne : content ≠ []) (hhead : content.head? ≠ some backquote)
    (hlast : content.getLast? ≠ some backquote) (hn : longestRun backquote content < n) :
    readSpan (List.replicate n backquote ++ content ++ List.replicate n backquote) =
      some (content, []) := by
  obtain ⟨k, rfl⟩ : ∃ k, n = k + 1 := ⟨n - 1, by omega⟩
  have hend := foldl_longerRun_snd hne hlast (0, 0)
  rw [List.append_assoc, readSpan, takeWhile_fence hne hhead, List.replicate_succ]
  dsimp only
  rw [← List.replicate_succ, List.drop_left, List.length_replicate,
    toClosing_append (k + 1) content 0 0 (Nat.le_refl 0) hn hend]
  rfl

/-! ## Contents -/

theorem spacedLines_eq_self : ∀ {cs : List Char}, '\n' ∉ cs → '\r' ∉ cs → spacedLines cs = cs
  | [], _, _ => rfl
  | c :: cs, hfeed, hreturn => by
    rw [List.mem_cons, not_or] at hfeed hreturn
    have hc : ¬ (c = '\n' ∨ c = '\r') := fun h => h.elim (hfeed.1 ·.symm) (hreturn.1 ·.symm)
    rw [spacedLines, if_neg hc, spacedLines_eq_self hfeed.2 hreturn.2]
    exact fun _ h => absurd h.symm hreturn.1

theorem unpadded_spaced (h : ∃ c ∈ cs, c ≠ ' ') : unpadded (' ' :: cs ++ [' ']) = cs := by
  have hlast : (' ' :: cs ++ [' ']).getLast? = some ' ' := List.getLast?_concat
  have hany : (' ' :: cs ++ [' ']).any (· != ' ') = true := by
    obtain ⟨c, hc, hne⟩ := h
    refine List.any_eq_true.mpr ⟨c, ?_, bne_iff_ne.mpr hne⟩
    exact List.mem_append_left _ (List.mem_cons_of_mem _ hc)
  rw [unpadded, if_pos ⟨rfl, hlast, hany⟩]
  exact List.dropLast_concat

/-- A text with a space at either end and more than spaces between them. -/
def IsSpaced (s inner : String) : Prop := s = " " ++ inner ++ " " ∧ ∃ c ∈ inner.toList, c ≠ ' '

theorem toList_spaced (inner : String) :
    (" " ++ inner ++ " ").toList = ' ' :: inner.toList ++ [' '] := by
  rw [String.toList_append, String.toList_append]
  rfl

/-- Only spaces around more than spaces are taken away. -/
theorem unpadded_eq_self {s : String} (h : ∀ inner, ¬ IsSpaced s inner) :
    unpadded s.toList = s.toList := by
  rw [unpadded]
  split
  · next hspaced =>
    obtain ⟨hhead, hlast, hany⟩ := hspaced
    exfalso
    obtain ⟨tail, htail⟩ : ∃ tail, s.toList = ' ' :: tail := List.head?_eq_some_iff.mp hhead
    obtain ⟨front, hfront⟩ : ∃ front, s.toList = front ++ [' '] := List.getLast?_eq_some_iff.mp hlast
    obtain ⟨c, hc, hne⟩ := List.any_eq_true.mp hany
    rw [bne_iff_ne] at hne
    cases front with
    | nil =>
      rw [hfront] at hc
      exact hne (List.mem_singleton.mp hc)
    | cons d inner =>
      have hd : d = ' ' := by rw [hfront] at htail; exact (List.cons.inj htail).1
      rw [hd] at hfront
      refine h (String.ofList inner) ⟨String.toList_inj.mp ?_, c, ?_, hne⟩
      · rw [toList_spaced, String.toList_ofList, hfront]
      · rw [String.toList_ofList]
        rw [hfront, List.cons_append, List.mem_cons, List.mem_append, List.mem_singleton] at hc
        exact (hc.resolve_left hne).resolve_right hne
  · rfl

/-! ## Code spans -/

/-- A space does not stand at both ends of a text that has a backquote at one of them. -/
theorem unpadded_of_backquote (h : cs.head? = some backquote ∨ cs.getLast? = some backquote) :
    unpadded cs = cs := by
  have hspace : some backquote ≠ some ' ' := by decide
  rw [unpadded, if_neg]
  rintro ⟨hhead, hlast, -⟩
  rcases h with h | h
  · exact hspace (h.symm.trans hhead)
  · exact hspace (h.symm.trans hlast)

/-- The reader finds the content of a code span, with the spaces that keep its fences apart, and
the span ends where the text ends. -/
theorem readSpan_codeSpanChars (hne : cs ≠ []) :
    readSpan (codeSpanChars cs) = some
      (if cs.head? = some backquote ∨ cs.getLast? = some backquote then ' ' :: cs ++ [' ']
        else cs, []) := by
  have hspace : some ' ' ≠ some backquote := by decide
  rw [codeSpanChars]
  by_cases hedge : cs.head? = some backquote ∨ cs.getLast? = some backquote
  · have hlast : (' ' :: cs ++ [' ']).getLast? ≠ some backquote := by
      rw [List.getLast?_concat]
      exact hspace
    have hshort : longestRun backquote (' ' :: cs ++ [' ']) < longestRun backquote cs + 1 := by
      rw [longestRun_spaced]
      exact Nat.lt_succ_self _
    have hread := readSpan_fenced (List.cons_ne_nil ' ' (cs ++ [' '])) hspace hlast hshort
    rw [if_pos (by simpa using hedge), if_pos hedge]
    simpa only [List.append_assoc, List.cons_append, List.nil_append] using hread
  · rw [if_neg (by simpa using hedge), if_neg hedge]
    rw [not_or] at hedge
    exact readSpan_fenced hne hedge.1 hedge.2 (Nat.lt_succ_self _)

/-- What a code span shows of a text in one line. -/
theorem readCodeSpan_codeSpan {s : String} (hne : s ≠ "") (hfeed : '\n' ∉ s.toList)
    (hreturn : '\r' ∉ s.toList) :
    readCodeSpan (codeSpan s) = some (String.ofList (unpadded s.toList), "") := by
  have hchars : s.toList ≠ [] := fun h => hne (String.toList_inj.mp h)
  rw [readCodeSpan, codeSpan, String.toList_ofList, readSpan_codeSpanChars hchars,
    Option.map_some, Prod.map_apply, Function.comp_apply, Function.comp_apply]
  split
  · next hedge =>
    -- the spaces were put there; behind them there is a backquote
    have hmem : backquote ∈ s.toList := hedge.elim List.mem_of_head? List.mem_of_getLast?
    have hends : ∀ c, c ≠ ' ' → c ∉ s.toList → c ∉ ' ' :: s.toList ++ [' '] := by
      intro c hc hnot
      simp [hc, hnot]
    rw [spacedLines_eq_self (hends _ (by decide) hfeed) (hends _ (by decide) hreturn),
      unpadded_spaced ⟨_, hmem, by decide⟩, unpadded_of_backquote hedge]
  · rw [spacedLines_eq_self hfeed hreturn]

/-- For a text that is not empty and is in one line, the code span that holds it is read as a
code span from its first character to its last one.  It shows the text, or, where the text has a
space at either end and more than spaces between them, the text without these two. -/
theorem codeSpan_shows {s : String} (hne : s ≠ "") (hfeed : '\n' ∉ s.toList)
    (hreturn : '\r' ∉ s.toList) :
    ((∀ inner, ¬ IsSpaced s inner) → readCodeSpan (codeSpan s) = some (s, "")) ∧
      ∀ inner, IsSpaced s inner → readCodeSpan (codeSpan s) = some (inner, "") := by
  have hread := readCodeSpan_codeSpan hne hfeed hreturn
  refine ⟨fun hplain => ?_, fun inner hspaced => ?_⟩
  · rw [hread, unpadded_eq_self hplain, String.ofList_toList]
  · obtain ⟨rfl, hinner⟩ := hspaced
    rw [hread, toList_spaced, unpadded_spaced hinner, String.ofList_toList]

/-- A text with backquotes at both ends is shown as it is, a text with spaces there is not. -/
theorem codeSpan_shows_backquotes :
    let plain := "`a``"
    let spaced := " `` "
    (plain ≠ "" ∧ '\n' ∉ plain.toList ∧ '\r' ∉ plain.toList ∧ (∀ inner, ¬ IsSpaced plain inner) ∧
        readCodeSpan (codeSpan plain) = some (plain, "")) ∧
      spaced ≠ "" ∧ '\n' ∉ spaced.toList ∧ '\r' ∉ spaced.toList ∧ IsSpaced spaced "``" ∧
        readCodeSpan (codeSpan spaced) = some ("``", "") := by
  intro plain spaced
  have hplain : plain ≠ "" ∧ '\n' ∉ plain.toList ∧ '\r' ∉ plain.toList := by decide
  have hspaced : spaced ≠ "" ∧ '\n' ∉ spaced.toList ∧ '\r' ∉ spaced.toList := by decide
  have hnot : ∀ inner, ¬ IsSpaced plain inner := by
    rintro inner ⟨heq, -⟩
    have hhead : plain.toList.head? = some ' ' := by rw [heq, toList_spaced]; rfl
    exact absurd hhead (by decide)
  have hinner : IsSpaced spaced "``" := ⟨by decide, backquote, by decide, by decide⟩
  exact ⟨⟨hplain.1, hplain.2.1, hplain.2.2, hnot,
      (codeSpan_shows hplain.1 hplain.2.1 hplain.2.2).1 hnot⟩,
    hspaced.1, hspaced.2.1, hspaced.2.2, hinner,
    (codeSpan_shows hspaced.1 hspaced.2.1 hspaced.2.2).2 _ hinner⟩

end Render
end GlyphLine

import GlyphLine.Proofs.Token.Extraction

/-!
# Tokens as words of a text

Between its separators a text has *words*: maximal runs of characters that are no separators.
The tokens of a text are those of its words that begin with the mark, in order and with
repetitions.

A text is laid out as words by saying what separators stand in front of each of them.  Every
text can be laid out so, and how many separators stand between two words, and which ones, is
of no account for its tokens.

* `isSeparator_iff`: which characters are separators.
* `Layout`: a text as words with separators around them.
* `exists_layout`: every text has a layout.
* `extract_layout`: the tokens of a layout.
* `extract_eq_marked_words`: the laws of extraction.
-/

namespace GlyphLine
namespace Token

/-! ## Separators -/

/-- The code points that are white space, in the order of the Unicode standard's list. -/
def whiteSpace : List Nat := [
  0x0009, 0x000A, 0x000B, 0x000C, 0x000D, 0x0020, 0x0085, 0x00A0, 0x1680, 0x2000, 0x2001, 0x2002,
  0x2003, 0x2004, 0x2005, 0x2006, 0x2007, 0x2008, 0x2009, 0x200A, 0x2028, 0x2029, 0x202F, 0x205F,
  0x3000]

/-- The code points of the four information separators, which are no white space. -/
def informationSeparators : List Nat := [0x1C, 0x1D, 0x1E, 0x1F]

theorem isSeparator_iff {c : Char} : Text.isSeparator c = true ↔
    c.toNat ∈ whiteSpace ∨ c.toNat ∈ informationSeparators := by
  simp only [Text.isSeparator, Text.isBlank, whiteSpace, informationSeparators, Bool.or_eq_true,
    Bool.and_eq_true, decide_eq_true_eq, beq_iff_eq, List.mem_cons, List.not_mem_nil, or_false]
  omega

/-! ## Words -/

/-- A string of separators. -/
def IsGap (cs : List Char) : Prop := ∀ c ∈ cs, Text.isSeparator c = true

/-- A string without separators. -/
def IsWord (cs : List Char) : Prop := ∀ c ∈ cs, Text.isSeparator c = false

/-- A word and the separators in front of it. -/
structure Placed where
  gap : List Char
  word : List Char
  isGap : IsGap gap
  isWord : IsWord word

namespace Placed

/-- The separators and the word behind them. -/
def chars (p : Placed) : List Char := p.gap ++ p.word

end Placed

/-- A text as words with separators around them.  In front of the first word and behind the
last one there may be none. -/
structure Layout where
  words : List Placed
  trail : List Char
  isGap : IsGap trail
  apart : ∀ p ∈ words.tail, p.gap ≠ []

namespace Layout

/-- The characters of words, and of what stands behind the last of them. -/
def charsOf (ps : List Placed) (trail : List Char) : List Char :=
  ps.flatMap Placed.chars ++ trail

/-- The text that is laid out. -/
def text (l : Layout) : String := String.ofList (charsOf l.words l.trail)

/-- The words that begin with the mark. -/
def units (l : Layout) : List String :=
  ((l.words.map Placed.word).filter isToken).map String.ofList

end Layout

/-! ## The tokens of a layout -/

/-- A text in which a word can end: at its beginning there is a separator or nothing. -/
def EndsWord (cs : List Char) : Prop := ∀ c ∈ cs.head?, Text.isSeparator c = true

theorem extractChars_nil : extractChars [] = [] := rfl

/-- A word is a token if it begins with the mark. -/
theorem extractChars_word {w : List Char} (h : IsWord w) :
    extractChars w = [w].filter isToken := by
  rw [extractChars, Text.pieces_eq_singleton h]

/-- Separators in front of a text are passed over. -/
theorem extractChars_gap {gap : List Char} (h : IsGap gap) (cs : List Char) :
    extractChars (gap ++ cs) = extractChars cs := by
  induction gap with
  | nil => rfl
  | cons c gap ih =>
    have hrest : IsGap gap := fun d hd => h d (List.mem_cons_of_mem c hd)
    have hcut := extractChars_append_cons (h c List.mem_cons_self) [] (gap ++ cs)
    rw [List.nil_append, extractChars_nil, List.nil_append] at hcut
    rw [List.cons_append, hcut, ih hrest]

/-- A word in front of a separator is taken for itself. -/
theorem extractChars_append {w cs : List Char} (hcs : EndsWord cs) :
    extractChars (w ++ cs) = extractChars w ++ extractChars cs := by
  cases cs with
  | nil => rw [List.append_nil, extractChars_nil, List.append_nil]
  | cons c cs =>
    have hc : IsGap [c] := fun d hd => List.mem_singleton.1 hd ▸ hcs c rfl
    rw [extractChars_append_cons (hcs c rfl), ← extractChars_gap hc cs, List.singleton_append]

/-- A text begins with a separator if the words at its beginning stand apart from what is in
front of them. -/
theorem endsWord_charsOf (ps : List Placed) {trail : List Char} (htrail : IsGap trail)
    (hapart : ∀ p ∈ ps, p.gap ≠ []) : EndsWord (Layout.charsOf ps trail) := by
  intro c hc
  cases ps with
  | nil =>
    cases trail with
    | nil => cases hc
    | cons d trail =>
      obtain rfl : d = c := Option.some.inj hc
      exact htrail d List.mem_cons_self
  | cons p ps =>
    obtain ⟨d, gap, hgap⟩ := List.exists_cons_of_ne_nil (hapart p List.mem_cons_self)
    have hd : (Layout.charsOf (p :: ps) trail).head? = some d := by
      rw [Layout.charsOf, List.flatMap_cons, Placed.chars, hgap]
      rfl
    obtain rfl : d = c := Option.some.inj (hd.symm.trans hc)
    exact p.isGap d (hgap ▸ List.mem_cons_self)

theorem extractChars_charsOf {ps : List Placed} {trail : List Char} (htrail : IsGap trail)
    (hapart : ∀ p ∈ ps.tail, p.gap ≠ []) :
    extractChars (Layout.charsOf ps trail) = (ps.map Placed.word).filter isToken := by
  induction ps with
  | nil =>
    rw [Layout.charsOf, List.flatMap_nil, List.nil_append, ← List.append_nil trail,
      extractChars_gap htrail]
    rfl
  | cons p ps ih =>
    have hrest : ∀ q ∈ ps.tail, q.gap ≠ [] := fun q hq => hapart q (List.mem_of_mem_tail hq)
    have hcons : Layout.charsOf (p :: ps) trail =
        p.gap ++ (p.word ++ Layout.charsOf ps trail) := by
      simp only [Layout.charsOf, Placed.chars, List.flatMap_cons, List.append_assoc]
    rw [hcons, extractChars_gap p.isGap, extractChars_append (endsWord_charsOf ps htrail hapart),
      extractChars_word p.isWord, ih hrest, List.map_cons, ← List.filter_append,
      List.singleton_append]

/-- The tokens of a text that is laid out are its words that begin with the mark. -/
theorem extract_layout (l : Layout) : extract l.text = l.units := by
  rw [extract, Layout.text, String.toList_ofList, extractChars_charsOf l.isGap l.apart]
  rfl

/-! ## Every text has a layout -/

/-- One more character in front of a text that is laid out as words, none of them empty. -/
theorem exists_charsOf_cons (c : Char) {ps : List Placed} {trail : List Char}
    (htrail : IsGap trail) (hapart : ∀ p ∈ ps.tail, p.gap ≠ []) (hwords : ∀ p ∈ ps, p.word ≠ []) :
    ∃ qs : List Placed, ∃ rest : List Char, IsGap rest ∧ (∀ p ∈ qs.tail, p.gap ≠ []) ∧
      (∀ p ∈ qs, p.word ≠ []) ∧ Layout.charsOf qs rest = c :: Layout.charsOf ps trail := by
  by_cases hc : Text.isSeparator c = true
  · have hgap {cs : List Char} (h : IsGap cs) : IsGap (c :: cs) := by
      intro d hd
      rcases List.mem_cons.1 hd with rfl | hd
      · exact hc
      · exact h d hd
    cases ps with
    | nil => exact ⟨[], c :: trail, hgap htrail, hapart, hwords, rfl⟩
    | cons p ps =>
      -- the separator joins those in front of the first word
      refine ⟨⟨c :: p.gap, p.word, hgap p.isGap, p.isWord⟩ :: ps, trail, htrail, hapart, ?_, rfl⟩
      intro q hq
      rcases List.mem_cons.1 hq with rfl | hq
      · exact hwords p List.mem_cons_self
      · exact hwords q (List.mem_cons_of_mem p hq)
  · have hword {cs : List Char} (h : IsWord cs) : IsWord (c :: cs) := by
      intro d hd
      rcases List.mem_cons.1 hd with rfl | hd
      · exact Bool.eq_false_iff.2 hc
      · exact h d hd
    by_cases hjoin : ∃ p qs, ps = p :: qs ∧ p.gap = []
    · -- the character begins the first word
      obtain ⟨p, qs, rfl, hempty⟩ := hjoin
      refine ⟨⟨[], c :: p.word, by simp [IsGap], hword p.isWord⟩ :: qs, trail, htrail, hapart,
        ?_, ?_⟩
      · intro q hq
        rcases List.mem_cons.1 hq with rfl | hq
        · exact List.cons_ne_nil _ _
        · exact hwords q (List.mem_cons_of_mem p hq)
      · simp only [Layout.charsOf, List.flatMap_cons, Placed.chars, hempty, List.nil_append,
          List.cons_append]
    · -- the character is a word of its own
      refine ⟨⟨[], [c], by simp [IsGap], hword (by simp [IsWord])⟩ :: ps, trail, htrail, ?_, ?_,
        rfl⟩
      · intro q hq hempty
        cases ps with
        | nil => cases hq
        | cons p ps =>
          rcases List.mem_cons.1 hq with rfl | hq
          · exact hjoin ⟨_, _, rfl, hempty⟩
          · exact hapart q hq hempty
      · intro q hq
        rcases List.mem_cons.1 hq with rfl | hq
        · exact List.cons_ne_nil _ _
        · exact hwords q hq

theorem exists_charsOf (cs : List Char) : ∃ ps : List Placed, ∃ trail : List Char, IsGap trail ∧
    (∀ p ∈ ps.tail, p.gap ≠ []) ∧ (∀ p ∈ ps, p.word ≠ []) ∧ Layout.charsOf ps trail = cs := by
  induction cs with
  | nil => exact ⟨[], [], by simp [IsGap], by simp, by simp, rfl⟩
  | cons c cs ih =>
    obtain ⟨ps, trail, htrail, hapart, hwords, rfl⟩ := ih
    exact exists_charsOf_cons c htrail hapart hwords

/-- Every text can be laid out as words, none of them empty. -/
theorem exists_layout (text : String) :
    ∃ l : Layout, l.text = text ∧ ∀ p ∈ l.words, p.word ≠ [] := by
  obtain ⟨ps, trail, htrail, hapart, hwords, hchars⟩ := exists_charsOf text.toList
  refine ⟨⟨ps, trail, htrail, hapart⟩, ?_, hwords⟩
  rw [Layout.text, hchars, String.ofList_toList]

/-! ## The laws of extraction -/

/-- Every token begins with the mark. -/
theorem isToken_of_mem_extract {text u : String} (hu : u ∈ extract text) :
    isToken u.toList = true := by
  obtain ⟨p, hp, rfl⟩ := List.mem_map.1 hu
  rw [String.toList_ofList]
  exact (List.mem_filter.1 hp).2

/-- A token stands in its text as one piece. -/
theorem isInfix_of_mem_extract {text u : String} (hu : u ∈ extract text) :
    u.toList <:+: text.toList := by
  obtain ⟨l, rfl, _⟩ := exists_layout text
  rw [extract_layout] at hu
  obtain ⟨w, hw, rfl⟩ := List.mem_map.1 hu
  obtain ⟨p, hp, rfl⟩ := List.mem_map.1 (List.mem_filter.1 hw).1
  have hword : p.word <:+: p.chars := (List.suffix_append p.gap p.word).isInfix
  have hmem : p.chars ∈ l.words.map Placed.chars := List.mem_map_of_mem hp
  have hchars : p.chars <:+: Layout.charsOf l.words l.trail := by
    rw [Layout.charsOf, List.flatMap_def]
    exact (List.infix_of_mem_flatten hmem).trans (List.prefix_append _ l.trail).isInfix
  rw [Layout.text, String.toList_ofList, String.toList_ofList]
  exact hword.trans hchars

/-- A text without separators is a token if it begins with the mark, and has none otherwise. -/
theorem extract_of_isWord {w : String} (h : IsWord w.toList) :
    extract w = if isToken w.toList then [w] else [] := by
  rw [extract, extractChars_word h, List.filter_singleton]
  cases isToken w.toList with
  | true => rw [cond_true, List.map_singleton, String.ofList_toList, if_pos rfl]
  | false => rfl

/-- **The tokens of a text are its words that begin with the mark.**  Separators are the white
space of Unicode and the information separators.  A separator parts a text into two whose tokens
follow each other, and a text without separators is one word.  So of any text, which is laid out
as words in some way, the tokens are the words that begin with the mark, in order and with
repetitions.  Well-formed tokens are such words, and every token is. -/
theorem extract_eq_marked_words :
    (∀ c : Char, Text.isSeparator c = true ↔
      c.toNat ∈ whiteSpace ∨ c.toNat ∈ informationSeparators) ∧
    (∀ (a b : String) (s : Char), Text.isSeparator s = true →
      extract (a ++ String.singleton s ++ b) = extract a ++ extract b) ∧
    (∀ w : String, IsWord w.toList → extract w = if isToken w.toList then [w] else []) ∧
    (∀ l : Layout, extract l.text = l.units) ∧
    (∀ text : String, ∃ l : Layout, l.text = text ∧ ∀ p ∈ l.words, p.word ≠ []) ∧
    (∀ u : String, isWellFormed u = true → isToken u.toList = true ∧ IsWord u.toList) ∧
    (∀ text u : String, u ∈ extract text → isToken u.toList = true ∧ IsWord u.toList) :=
  ⟨fun _ => isSeparator_iff, fun a b _ hs => extract_append_separator hs a b,
    fun _ h => extract_of_isWord h, extract_layout, exists_layout,
    fun _ hu => ⟨isToken_of_isWellFormed hu, isSeparator_eq_false_of_mem hu⟩,
    fun _ _ hu => ⟨isToken_of_mem_extract hu, fun _ hc =>
      isSeparator_eq_false_of_mem_extract hu hc⟩⟩

end Token
end GlyphLine

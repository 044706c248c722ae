import GlyphLine.Proofs.Compact.Basic
import GlyphLine.Proofs.Json.Lexeme
import GlyphLine.Yaml.Lexeme

/-!
# The scalars of a one-line text as YAML

A plain scalar in brackets ends at a comma or at the closing bracket.  A quoted scalar is
read word by word, with the spaces between the words as folds; as there is no line break,
every fold is kept.  Escapes that JSON knows for printable characters mean the same here.

* `Yaml.Lexeme.plain_word`: a plain scalar of one word.
* `Yaml.Lexeme.quoted_chars`: a quoted scalar.
-/

namespace GlyphLine
namespace Yaml

/-! ## Places -/

namespace Cursor

theorem advance_advance (k : Cursor) (m n : Nat) : (k.advance m).advance n = k.advance (m + n) := by
  rw [advance, advance, advance, List.drop_drop, Nat.add_assoc, Nat.add_assoc]

theorem rest_advance {k : Cursor} {cs rest : List Char} (h : k.rest = cs ++ rest) :
    (k.advance cs.length).rest = rest := by
  show k.rest.drop cs.length = rest
  rw [h, List.drop_left]

/-- Inside of a line no document ends. -/
theorem atDocumentMark_of_column {k : Cursor} (h : 0 < k.column) : k.atDocumentMark = false := by
  rw [atDocumentMark, beq_eq_false_iff_ne.2 (Nat.pos_iff_ne_zero.1 h), Bool.false_and]

theorem isAt_cons {k : Cursor} {c : Char} {rest : List Char} (h : k.rest = c :: rest)
    (p : Char → Bool) : k.isAt p = p c := by
  rw [isAt, h]

end Cursor

namespace Lexeme

/-! ## Plain scalars -/

/-- The characters that belong to a plain scalar wherever they stand in brackets. -/
def isWord (c : Char) : Bool := !isGapOrBreak c && c != ':' && !isFlowIndicator c

/-- A word goes up to the next indicator. -/
theorem plainWord_append {cs : List Char} (h : ∀ c ∈ cs, isWord c = true) {d : Char}
    (hgap : isGapOrBreak d = false) (hd : isFlowIndicator d = true) (done rest : List Char) :
    plainWord true done (cs ++ d :: rest) = .ok (cs.reverse ++ done) := by
  induction cs generalizing done with
  | nil =>
    have hcolon : d ≠ ':' := by
      rintro rfl
      exact absurd hd (by decide)
    rw [List.nil_append, plainWord.eq_def]
    dsimp only
    rw [hgap, if_neg Bool.false_ne_true, if_neg hcolon, hd, Bool.and_self, if_pos rfl]
    rfl
  | cons c cs ih =>
    have hc := h c List.mem_cons_self
    rw [isWord, Bool.and_eq_true, Bool.and_eq_true, Bool.not_eq_true', Bool.not_eq_true',
      bne_iff_ne] at hc
    obtain ⟨⟨hgap, hcolon⟩, hindicator⟩ := hc
    rw [List.cons_append, plainWord.eq_def]
    dsimp only
    rw [hgap, if_neg Bool.false_ne_true, if_neg hcolon, hindicator, Bool.and_false,
      if_neg Bool.false_ne_true, ih fun d hd => h d (List.mem_cons_of_mem _ hd),
      List.reverse_cons, List.append_assoc, List.singleton_append]

/-- A plain scalar of one word, in front of the next indicator. -/
theorem plain_word {k : Cursor} {cs rest : List Char} {d : Char} (hk : k.rest = cs ++ d :: rest)
    (hcolumn : 0 < k.column) (hne : cs ≠ []) (h : ∀ c ∈ cs, isWord c = true)
    (hcomment : ∀ c ∈ cs.head?, c ≠ '#') (hgap : isGapOrBreak d = false)
    (hd : isFlowIndicator d = true) (margin : Nat) :
    Lexeme.plain true margin k = .ok (String.ofList cs, false, k.advance cs.length) := by
  have hend : (k.advance cs.length).rest = d :: rest := Cursor.rest_advance hk
  have hwords : plainWords true margin (k.rest.length + 1) [] {} k =
      .ok (cs.reverse, false, k.advance cs.length) := by
    have hstart : k.isAt (· == '#') = false := by
      cases cs with
      | nil => exact absurd rfl hne
      | cons c cs =>
        rw [Cursor.isAt_cons hk]
        exact beq_eq_false_iff_ne.2 (hcomment c rfl)
    rw [plainWords, Cursor.atDocumentMark_of_column hcolumn, hstart, Bool.or_false,
      if_neg Bool.false_ne_true, hk, plainWord_append h hgap hd, List.append_nil]
    split
    · next heq => exact absurd heq (by simp)
    · next heq => exact absurd (List.reverse_eq_nil_iff.1 (Except.ok.inj heq)) hne
    · next word _ heq =>
      obtain rfl : cs.reverse = word := Except.ok.inj heq
      dsimp only
      rw [List.length_reverse, Cursor.isAt_cons hend, hgap, if_neg Bool.false_ne_true]
      simp [Fold.text]
  rw [Lexeme.plain, hwords]
  show Except.ok (String.ofList cs.reverse.reverse, false, k.advance cs.length) = _
  rw [List.reverse_reverse]

/-! ## Escapes -/

/-- The digits of a code point, the last of which may be a capital letter. -/
theorem hexNumber?_code {n : Nat} (hn : n < 256) {last : Char}
    (h : last = Json.hexChar (n % 16) ∨ last = (Json.hexChar (n % 16)).toUpper)
    (rest : List Char) :
    hexNumber? 4 ('0' :: '0' :: Json.hexChar (n / 16) :: last :: rest) = some n := by
  have hzero : hexDigit? '0' = some 0 := rfl
  have hhigh : hexDigit? (Json.hexChar (n / 16)) = some (n / 16) :=
    Json.Lexeme.hexDigit?_hexChar (by omega)
  have hlow : hexDigit? last = some (n % 16) := Json.Lexeme.hexDigit?_of_letter (by omega) h
  have hsum : n / 16 * 16 + n % 16 = n := by omega
  simp [hexNumber?, hzero, hhigh, hlow, hsum]

theorem escape_code {c last : Char} (hc : c.toNat < 256)
    (h : last = Json.hexChar (c.toNat % 16) ∨ last = (Json.hexChar (c.toNat % 16)).toUpper)
    (rest : List Char) :
    escape ('u' :: '0' :: '0' :: Json.hexChar (c.toNat / 16) :: last :: rest) = .ok (c, 5) := by
  have hshort : shortEscape? 'u' = none := rfl
  have hlong : longEscape? 'u' = some 4 := rfl
  have hpoint : isCodePoint c.toNat = true := by
    rw [isCodePoint, decide_eq_true (by omega), Bool.true_or]
  rw [escape, hshort, hlong]
  dsimp only
  rw [hexNumber?_code hc h]
  dsimp only
  rw [if_pos hpoint, Char.ofNat_toNat]

/-! ## Quoted scalars -/

/-- A printable character is no white space, unless it is the space. -/
theorem isGapOrBreak_printable {c : Char} (h : 0x20 ≤ c.toNat ∧ c.toNat ≤ 0x7E) (hc : c ≠ ' ') :
    isGapOrBreak c = false := by
  have hne {d : Char} (hd : ¬ (0x20 ≤ d.toNat ∧ d.toNat ≤ 0x7E)) : (c == d) = false :=
    beq_eq_false_iff_ne.2 fun heq => hd (heq ▸ h)
  rw [isGapOrBreak, isGap, isBreak, beq_eq_false_iff_ne.2 hc, hne (d := '\t') (by decide),
    hne (d := '\r') (by decide), hne (d := '\n') (by decide), hne (d := '\u0085') (by decide),
    hne (d := '\u2028') (by decide), hne (d := '\u2029') (by decide)]
  rfl

/-- A character that is written as a space. -/
def isSpaceGlyph (g : Glyph) : Bool := g.chars == [' ']

theorem char_of_isSpaceGlyph {g : Glyph} (h : isSpaceGlyph g = true) : g.char = ' ' := by
  obtain ⟨c, cs, _, hw⟩ := g
  obtain rfl : cs = [' '] := beq_iff_eq.1 h
  cases hw with
  | plain => rfl

/-- One step of the reader takes what a character is written as, if it is not a space. -/
theorem quotedWord_glyph {g : Glyph} (hg : isSpaceGlyph g = false) {k : Cursor}
    {rest : List Char} (hk : k.rest = g.chars ++ rest) (rounds : Nat) (done : List Char) :
    quotedWord false (rounds + 1) done k =
      quotedWord false rounds (g.char :: done) (k.advance g.chars.length) := by
  obtain ⟨c, cs, hp, hw⟩ := g
  dsimp only at hp hk hg ⊢
  cases hw with
  | plain hquote hslash =>
    have hspace : c ≠ ' ' := by
      rintro rfl
      exact Bool.false_ne_true (hg.symm.trans rfl)
    rw [quotedWord, hk]
    dsimp only [List.cons_append]
    rw [isGapOrBreak_printable hp hspace, if_neg Bool.false_ne_true, if_neg Bool.false_ne_true,
      if_neg hquote, if_neg hslash]
    rfl
  | escaped h =>
    have hnext : (k.advance 1).rest = c :: rest :=
      Cursor.rest_advance (show k.rest = ['\\'] ++ _ from hk)
    have hbreak : isBreak c = false := by
      rcases h with rfl | rfl | rfl <;> decide
    have hesc : escape (c :: rest) = .ok (c, 1) := by
      rcases h with rfl | rfl | rfl <;> rfl
    rw [quotedWord, hk]
    dsimp only [List.cons_append, List.nil_append]
    rw [show isGapOrBreak '\\' = false from rfl, if_neg Bool.false_ne_true,
      if_neg Bool.false_ne_true, if_neg (by decide), if_pos rfl, Cursor.isAt_cons hnext, hbreak,
      if_neg Bool.false_ne_true, hesc]
    dsimp only
    rw [Cursor.advance_advance]
    rfl
  | @code last h =>
    have hnext : (k.advance 1).rest = 'u' :: '0' :: '0' :: Json.hexChar (c.toNat / 16) ::
        last :: rest := Cursor.rest_advance (show k.rest = ['\\'] ++ _ from hk)
    rw [quotedWord, hk]
    dsimp only [List.cons_append, List.nil_append]
    rw [show isGapOrBreak '\\' = false from rfl, if_neg Bool.false_ne_true,
      if_neg Bool.false_ne_true, if_neg (by decide), if_pos rfl, Cursor.isAt_cons hnext,
      show isBreak 'u' = false from rfl, if_neg Bool.false_ne_true, escape_code (by omega) h]
    dsimp only
    rw [Cursor.advance_advance]
    rfl

/-- A word goes up to the next space or quote. -/
theorem quotedWord_glyphs {gs : List Glyph} (h : ∀ g ∈ gs, isSpaceGlyph g = false) {d : Char}
    (hd : d = ' ' ∨ d = '\"') {rounds : Nat} (hrounds : gs.length < rounds) {k : Cursor}
    {rest : List Char} (hk : k.rest = gs.flatMap Glyph.chars ++ d :: rest) (done : List Char) :
    quotedWord false rounds done k =
      .ok ((gs.map Glyph.char).reverse ++ done, false,
        k.advance (gs.flatMap Glyph.chars).length) := by
  induction gs generalizing rounds done k with
  | nil =>
    obtain ⟨rounds, rfl⟩ := Nat.exists_eq_add_of_le' (Nat.zero_lt_of_lt hrounds)
    rw [List.flatMap_nil, List.nil_append] at hk
    rw [quotedWord, hk]
    rcases hd with rfl | rfl <;> rfl
  | cons g gs ih =>
    obtain ⟨rounds, rfl⟩ := Nat.exists_eq_add_of_le' (Nat.zero_lt_of_lt hrounds)
    rw [List.flatMap_cons, List.append_assoc] at hk
    rw [quotedWord_glyph (h g List.mem_cons_self) hk,
      ih (fun f hf => h f (List.mem_cons_of_mem _ hf)) (Nat.lt_of_succ_lt_succ hrounds)
        (Cursor.rest_advance hk), List.map_cons, List.reverse_cons, List.append_assoc,
      List.singleton_append, Cursor.advance_advance, List.flatMap_cons, List.length_append]

/-- Spaces are written as they are. -/
theorem flatMap_spaces {gs : List Glyph} (h : ∀ g ∈ gs, isSpaceGlyph g = true) :
    gs.flatMap Glyph.chars = gs.map Glyph.char := by
  induction gs with
  | nil => rfl
  | cons g gs ih =>
    have hg := h g List.mem_cons_self
    rw [List.flatMap_cons, List.map_cons, ih fun f hf => h f (List.mem_cons_of_mem _ hf),
      beq_iff_eq.1 hg, char_of_isSpaceGlyph hg, List.singleton_append]

/-- Spaces between words are a fold that is kept. -/
theorem fold_spaces {gs : List Glyph} (hne : gs ≠ []) (h : ∀ g ∈ gs, isSpaceGlyph g = true)
    {k : Cursor} {d : Char} {rest : List Char} (hk : k.rest = gs.flatMap Glyph.chars ++ d :: rest)
    (hd : isGapOrBreak d = false) (margin rounds : Nat) :
    fold margin (rounds + 2) {} k =
      .ok ({ blanks := gs.map Glyph.char }, k.advance (gs.flatMap Glyph.chars).length) := by
  have hspaces := flatMap_spaces h
  have hgap : isGap d = false := (Bool.or_eq_false_iff.1 hd).1
  have hbreak : isBreak d = false := (Bool.or_eq_false_iff.1 hd).2
  have hall : ∀ c ∈ gs.flatMap Glyph.chars, isGap c = true := by
    rw [hspaces]
    intro c hc
    obtain ⟨g, hg, rfl⟩ := List.mem_map.1 hc
    rw [char_of_isSpaceGlyph (h g hg)]
    rfl
  have hend := Cursor.rest_advance hk
  have hrun : k.run isGap = (gs.map Glyph.char, k.advance (gs.flatMap Glyph.chars).length) := by
    rw [Cursor.run, hk, List.span_eq_takeWhile_dropWhile, List.takeWhile_append_of_pos hall,
      List.dropWhile_append_of_pos hall,
      List.takeWhile_cons_of_neg (by rw [hgap]; exact Bool.false_ne_true),
      List.dropWhile_cons_of_neg (by rw [hgap]; exact Bool.false_ne_true), List.append_nil]
    show (gs.flatMap Glyph.chars, (⟨d :: rest, _, _, _⟩ : Cursor)) = _
    rw [← hend, hspaces]
    rfl
  obtain ⟨cs, hcs⟩ : ∃ cs, k.rest = ' ' :: cs := by
    cases gs with
    | nil => exact absurd rfl hne
    | cons g gs =>
      rw [List.flatMap_cons, beq_iff_eq.1 (h g List.mem_cons_self)] at hk
      exact ⟨_, hk⟩
  rw [fold, hcs]
  dsimp only
  rw [if_pos (by rfl), if_neg Bool.false_ne_true, hrun]
  dsimp only
  rw [fold, hend]
  dsimp only
  rw [hgap, if_neg Bool.false_ne_true, hbreak, if_neg Bool.false_ne_true, List.nil_append]

/-- Behind the spaces at its beginning, what is left of a string begins with no space. -/
theorem inner_eq_cons {gs : List Glyph} (h : ∀ g ∈ gs.head?, isSpaceGlyph g = false)
    (rest : List Char) : ∃ d cs, gs.flatMap Glyph.chars ++ '\"' :: rest = d :: cs ∧
      isGapOrBreak d = false := by
  cases gs with
  | nil => exact ⟨'\"', rest, rfl, rfl⟩
  | cons g gs =>
    obtain ⟨c, cs, hp, hw⟩ := g
    have hg := h _ rfl
    cases hw with
    | plain hquote hslash =>
      have hspace : c ≠ ' ' := by
        rintro rfl
        exact Bool.false_ne_true (hg.symm.trans rfl)
      exact ⟨c, _, rfl, isGapOrBreak_printable hp hspace⟩
    | escaped _ => exact ⟨'\\', _, rfl, rfl⟩
    | code _ => exact ⟨'\\', _, rfl, rfl⟩

/-- The first word of a string, the spaces behind it, and what is left.  Only behind spaces is
something left. -/
theorem exists_word (gs : List Glyph) : ∃ word spaces left, gs = word ++ (spaces ++ left) ∧
    (∀ g ∈ word, isSpaceGlyph g = false) ∧ (∀ g ∈ spaces, isSpaceGlyph g = true) ∧
    (∀ g ∈ left.head?, isSpaceGlyph g = false) ∧ (spaces = [] → left = []) := by
  induction gs with
  | nil => exact ⟨[], [], [], rfl, by simp, by simp, by simp, fun _ => rfl⟩
  | cons g gs ih =>
    obtain ⟨word, spaces, left, rfl, hword, hspaces, hleft, hlast⟩ := ih
    cases hg : isSpaceGlyph g with
    | false =>
      exact ⟨g :: word, spaces, left, rfl, List.forall_mem_cons.2 ⟨hg, hword⟩, hspaces, hleft,
        hlast⟩
    | true =>
      cases word with
      | nil =>
        exact ⟨[], g :: spaces, left, rfl, by simp, List.forall_mem_cons.2 ⟨hg, hspaces⟩, hleft,
          fun h => absurd h (List.cons_ne_nil _ _)⟩
      | cons f word =>
        refine ⟨[], [g], f :: word ++ (spaces ++ left), rfl, by simp, by simpa using hg, ?_,
          fun h => absurd h (List.cons_ne_nil _ _)⟩
        intro e he
        obtain rfl : f = e := Option.some.inj he
        exact hword f List.mem_cons_self

/-- The words of a string and the spaces between them, up to the closing quote. -/
theorem quotedWords_glyphs {gs : List Glyph} {rounds : Nat} (hrounds : gs.length < rounds)
    {k : Cursor} {rest : List Char} (hk : k.rest = gs.flatMap Glyph.chars ++ '\"' :: rest)
    (hcolumn : 0 < k.column) (done : List Char) :
    quotedWords false rounds done k =
      .ok ((gs.map Glyph.char).reverse ++ done,
        k.advance ((gs.flatMap Glyph.chars).length + 1)) := by
  induction rounds generalizing gs done k with
  | zero => exact absurd hrounds (Nat.not_lt_zero _)
  | succ rounds ih =>
    have hsome : k.rest.isEmpty = false := by
      rw [hk, List.isEmpty_eq_false_iff]
      exact List.append_ne_nil_of_right_ne_nil _ (List.cons_ne_nil _ _)
    rw [quotedWords, Cursor.atDocumentMark_of_column hcolumn, hsome, Bool.or_false,
      if_neg Bool.false_ne_true]
    obtain ⟨word, spaces, left, rfl, hword, hspaces, hleft, hlast⟩ := exists_word gs
    rw [List.length_append, List.length_append] at hrounds
    rw [List.flatMap_append, List.flatMap_append, List.append_assoc, List.append_assoc] at hk
    have hbehind := Cursor.rest_advance hk
    cases spaces with
    | nil =>
      obtain rfl := hlast rfl
      rw [quotedWord_glyphs hword (.inr rfl) (by omega) hk]
      dsimp only
      rw [Cursor.isAt_cons hbehind, if_pos (by rfl), Cursor.advance_advance]
      simp only [List.append_nil]
    | cons g spaces =>
      rw [List.length_cons] at hrounds
      obtain ⟨rounds, rfl⟩ := Nat.exists_eq_add_of_le' (show 1 ≤ rounds by omega)
      obtain ⟨d, cs, hd, hgap⟩ := inner_eq_cons hleft rest
      have hspace : ((g :: spaces).flatMap Glyph.chars ++
          (left.flatMap Glyph.chars ++ '\"' :: rest)) =
          ' ' :: (spaces.flatMap Glyph.chars ++ (left.flatMap Glyph.chars ++ '\"' :: rest)) := by
        rw [List.flatMap_cons, beq_iff_eq.1 (hspaces g List.mem_cons_self)]
        rfl
      have hleftAt := Cursor.rest_advance hbehind
      rw [hspace] at hk
      rw [quotedWord_glyphs hword (.inl rfl) (by omega) hk]
      dsimp only
      rw [Cursor.isAt_cons (hbehind.trans hspace), if_neg (by decide),
        fold_spaces (List.cons_ne_nil _ _) hspaces (hd ▸ hbehind) hgap]
      dsimp only
      rw [ih (by omega) hleftAt (Nat.add_pos_left (Nat.add_pos_left hcolumn _) _),
        Cursor.advance_advance, Cursor.advance_advance]
      simp only [Fold.text, Bool.false_eq_true, if_false, List.map_append, List.reverse_append,
        List.append_assoc, List.flatMap_append, List.length_append, Nat.add_assoc]

/-- A quoted scalar is the string that is written. -/
theorem quoted_chars {s : Spelling} {k : Cursor} {rest : List Char}
    (hk : k.rest = s.chars ++ rest) :
    quoted false k = .ok (s.text, k.advance s.chars.length) := by
  have hinner : (k.advance 1).rest = s.glyphs.flatMap Glyph.chars ++ '\"' :: rest := by
    have hquote : k.rest = ['\"'] ++ (s.glyphs.flatMap Glyph.chars ++ '\"' :: rest) := by
      rw [hk, Spelling.chars, Spelling.inner]
      simp only [List.cons_append, List.append_assoc, List.nil_append]
    exact Cursor.rest_advance hquote
  have hlen : s.glyphs.length < k.rest.length + 1 := by
    have hglyphs := s.length_glyphs_le
    rw [hk, List.length_append, Spelling.length_chars]
    omega
  rw [quoted, quotedWords_glyphs hlen hinner (Nat.add_pos_right _ Nat.one_pos),
    Cursor.advance_advance, Spelling.length_chars, Spelling.inner, List.append_nil]
  show Except.ok (String.ofList (s.glyphs.map Glyph.char).reverse.reverse, _) = _
  rw [List.reverse_reverse, Nat.add_comm 1, Nat.add_assoc]
  rfl

end Lexeme
end Yaml
end GlyphLine

import GlyphLine.Proofs.Text.Pieces
import GlyphLine.Proofs.Token.Queries
import Mathlib.Data.List.Basic

/-!
# How tokens are taken from a text

A separator cuts a text into two parts, and the tokens of the text are those of the first
part followed by those of the second.  Nothing that is written behind a separator can
change a token in front of it.  A word between separators is a token if it begins with
the mark; so tokens that hold no separator are read back from a text in which they stand
one after the other.

* `extract_append_separator`: the tokens on both sides of a separator.
* `isSeparator_eq_false_of_mem_extract`: no token holds a separator.
* `isWellFormed_append_iff`: a well-formed token stays so under token characters only.
* `extract_join`: well-formed tokens are read back.
-/

namespace GlyphLine

namespace Token

/-! ## Tokens on both sides of a separator -/

/-- No token holds a separator. -/
theorem isSeparator_eq_false_of_mem_extract {text u : String} (hu : u ∈ extract text) {c : Char}
    (hc : c ∈ u.toList) : Text.isSeparator c = false := by
  obtain ⟨p, hp, rfl⟩ := List.mem_map.mp hu
  rw [String.toList_ofList] at hc
  exact Text.cut_eq_false_of_mem_pieces (List.mem_filter.mp hp).1 hc

theorem extractChars_append_cons {c : Char} (hc : Text.isSeparator c = true) (a b : List Char) :
    extractChars (a ++ c :: b) = extractChars a ++ extractChars b := by
  rw [extractChars, Text.pieces_append_cons hc, List.filter_append]
  rfl

/-- The tokens of two texts with a separator between them. -/
theorem extract_append_separator {s : Char} (hs : Text.isSeparator s = true) (a b : String) :
    extract (a ++ String.singleton s ++ b) = extract a ++ extract b := by
  have hchars : (a ++ String.singleton s ++ b).toList = a.toList ++ s :: b.toList := by
    rw [String.toList_append, String.toList_append, String.toList_singleton, List.append_assoc]
    rfl
  rw [extract, hchars, extractChars_append_cons hs, List.map_append]
  rfl

/-- A word that begins with the mark is the one token of its text. -/
theorem extract_word {w : String} (hword : ∀ c ∈ w.toList, Text.isSeparator c = false)
    (hmark : isToken w.toList = true) : extract w = [w] := by
  rw [extract, extractChars, Text.pieces_eq_singleton hword, List.filter_singleton, hmark,
    cond_true, List.map_singleton, String.ofList_toList]

/-! ## Well-formed tokens -/

/-- A string consists only of token characters. -/
def HasTokenChars (s : String) : Prop := ∀ c ∈ s.toList, isTokenChar c = true

instance (s : String) : Decidable (HasTokenChars s) :=
  decidable_of_iff (s.toList.all isTokenChar = true) List.all_eq_true

theorem isWellFormedChars_iff {cs : List Char} :
    isWellFormedChars cs = true ↔
      ∃ d body, cs = mark :: d :: body ∧ ∀ c ∈ d :: body, isTokenChar c = true := by
  match cs with
  | [] => simp [isWellFormedChars]
  | [_] => simp [isWellFormedChars]
  | c :: d :: body =>
    rw [isWellFormedChars, Bool.and_eq_true, beq_iff_eq, List.all_eq_true]
    constructor
    · rintro ⟨rfl, hall⟩
      exact ⟨d, body, rfl, hall⟩
    · rintro ⟨d', body', heq, hall⟩
      obtain ⟨rfl, rfl, rfl⟩ : c = mark ∧ d = d' ∧ body = body' := by simpa using heq
      exact ⟨rfl, hall⟩

/-- What is written behind a well-formed token keeps it well formed if it consists of
token characters, and only then. -/
theorem isWellFormed_append_iff {u v : String} (hu : isWellFormed u = true) :
    isWellFormed (u ++ v) = true ↔ HasTokenChars v := by
  obtain ⟨d, body, hchars, hall⟩ := isWellFormedChars_iff.mp hu
  have happend : (u ++ v).toList = mark :: d :: (body ++ v.toList) := by
    rw [String.toList_append, hchars]
    rfl
  rw [isWellFormed, happend, isWellFormedChars, Bool.and_eq_true, beq_self_eq_true,
    List.all_eq_true, and_iff_right rfl]
  constructor
  · exact fun h c hc => h c (List.mem_cons_of_mem d (List.mem_append_right body hc))
  · intro h c hc
    rcases List.mem_append.mp (List.cons_append.symm ▸ hc : c ∈ (d :: body) ++ v.toList) with hc | hc
    · exact hall c hc
    · exact h c hc

/-- Letters and digits are printable and of one byte. -/
theorem toNat_bounds_of_isAlphanum {c : Char} (h : c.isAlphanum = true) :
    0x20 < c.toNat ∧ c.toNat < 0x7F := by
  have hrange : ∀ {a b : Char}, 0x20 < a.toNat → b.toNat < 0x7F → a.val ≤ c.val → c.val ≤ b.val →
      0x20 < c.toNat ∧ c.toNat < 0x7F :=
    fun ha hb hac hcb => ⟨Nat.lt_of_lt_of_le ha hac, Nat.lt_of_le_of_lt hcb hb⟩
  rcases (Bool.or_eq_true _ _).mp h with hletter | hdigit
  · rcases (Bool.or_eq_true _ _).mp hletter with hupper | hlower
    · have hc : 'A'.val ≤ c.val ∧ c.val ≤ 'Z'.val := of_decide_eq_true hupper
      exact hrange (by decide) (by decide) hc.1 hc.2
    · obtain ⟨ha, hz⟩ := (Bool.and_eq_true _ _).mp hlower
      have ha : 'a'.val ≤ c.val := of_decide_eq_true ha
      have hz : c.val ≤ 'z'.val := of_decide_eq_true hz
      exact hrange (by decide) (by decide) ha hz
  · obtain ⟨h0, h9⟩ := (Bool.and_eq_true _ _).mp hdigit
    have h0 : '0'.val ≤ c.val := of_decide_eq_true h0
    have h9 : c.val ≤ '9'.val := of_decide_eq_true h9
    exact hrange (by decide) (by decide) h0 h9

/-- Token characters are printable and of one byte. -/
theorem toNat_bounds_of_isTokenChar {c : Char} (h : isTokenChar c = true) :
    0x20 < c.toNat ∧ c.toNat < 0x7F := by
  rw [isTokenChar, Bool.or_eq_true, List.contains_iff_mem] at h
  rcases h with halnum | hsign
  · exact toNat_bounds_of_isAlphanum halnum
  · simp only [List.mem_cons, List.not_mem_nil, or_false] at hsign
    rcases hsign with rfl | rfl | rfl | rfl | rfl | rfl | rfl | rfl | rfl <;> decide

/-- No token character is a separator. -/
theorem isSeparator_eq_false {c : Char} (h : isTokenChar c = true) :
    Text.isSeparator c = false := by
  have hc := toNat_bounds_of_isTokenChar h
  simp only [Text.isSeparator, Text.isBlank, Bool.or_eq_false_iff, Bool.and_eq_false_iff,
    decide_eq_false_iff_not, beq_eq_false_iff_ne]
  omega

theorem isSeparator_eq_false_of_mem {u : String} (h : isWellFormed u = true) :
    ∀ c ∈ u.toList, Text.isSeparator c = false := by
  obtain ⟨d, body, hchars, hall⟩ := isWellFormedChars_iff.mp h
  intro c hc
  rw [hchars] at hc
  rcases List.mem_cons.mp hc with rfl | hc
  · decide
  · exact isSeparator_eq_false (hall c hc)

theorem isToken_of_isWellFormed {u : String} (h : isWellFormed u = true) :
    isToken u.toList = true := by
  obtain ⟨d, body, hchars, -⟩ := isWellFormedChars_iff.mp h
  rw [hchars]
  rfl

/-- Well-formed tokens with blanks between them are the tokens of the text. -/
theorem extract_join : ∀ {us : List String}, (∀ u ∈ us, isWellFormed u = true) →
    extract (Text.join " " us) = us
  | [], _ => by decide
  | [u], h => extract_word (isSeparator_eq_false_of_mem (h u List.mem_cons_self))
      (isToken_of_isWellFormed (h u List.mem_cons_self))
  | u :: v :: us, h => by
    have hu := h u List.mem_cons_self
    have hblank : (" " : String) = String.singleton ' ' := rfl
    rw [Text.join, hblank, extract_append_separator (by decide), ← hblank,
      extract_word (isSeparator_eq_false_of_mem hu) (isToken_of_isWellFormed hu),
      extract_join fun w hw => h w (List.mem_cons_of_mem u hw)]
    rfl

end Token
end GlyphLine

import GlyphLine.Proofs.Text.Utf8

/-!
# Decoding bytes that need not be a text

The parts of a sequence of bytes are the characters of its text, with a replacement for each
part that is no character.  Two things hold of them whatever the bytes are.

A byte below 128 is a part of its own: no continuation byte is that small, so a character that
has been begun in front of it is broken off there.  Hence such a byte cuts the bytes into two
sequences that are decoded each for itself.

A part that is a character stands in the bytes as the bytes of this character.  The narrower
ranges behind some of the lead bytes see to it: what a lead byte and its continuation bytes
amount to is a character, and is not one that fewer bytes would do for.

## Main statements

* `parts_append_cons`: a byte below 128 cuts the parts in two.
* `cons_eq_of_headPart`: a part that is a character is the bytes of this character.
* `isInfix_of_isInfix_parts`: characters one after the other among the parts are their bytes one
  after the other.
* `mem_decodeLossy_of_ne_encode`: bytes that are no text leave a replacement character.
-/

namespace GlyphLine
namespace Text

/-! ## Parts one after the other -/

theorem partsAfter_eq (read : List (Option Char)) (bytes : List UInt8) :
    partsAfter read bytes = read.reverse ++ parts bytes := by
  induction hn : bytes.length using Nat.strongRecOn generalizing read bytes with
  | ind n ih =>
    cases bytes with
    | nil => rw [parts, partsAfter, partsAfter, List.reverse_nil, List.append_nil]
    | cons b rest =>
      have hlen : (headPart b rest).2.length < n := by
        have := headPart_length b rest
        rw [← hn, List.length_cons]
        omega
      rw [parts, partsAfter, partsAfter, ih _ hlen _ _ rfl, ih _ hlen _ _ rfl]
      simp

theorem parts_nil : parts [] = [] := by
  rw [parts, partsAfter, List.reverse_nil]

theorem parts_cons (b : UInt8) (rest : List UInt8) :
    parts (b :: rest) = (headPart b rest).1 :: parts (headPart b rest).2 := by
  rw [parts, partsAfter, partsAfter_eq, List.reverse_singleton, List.singleton_append]

theorem toList_decodeLossy (bytes : List UInt8) :
    (decodeLossy bytes).toList = (parts bytes).map fun p => p.getD '\uFFFD' := by
  rw [decodeLossy, String.toList_ofList]

/-! ## Lead bytes -/

/-- The four kinds of lead bytes: how many continuation bytes follow, between which bounds the
first of them lies, and the bits that the lead byte holds.  The bounds keep out overlong forms,
surrogates and what lies above the last character. -/
inductive Lead (b : UInt8) : Nat → UInt8 → UInt8 → Nat → Prop
  | one (h : b.toNat < 0x80) : Lead b 0 0 0 b.toNat
  | two {v : Nat} (h : 2 ≤ v ∧ v < 32) (hb : b.toNat = v + 0xC0) : Lead b 1 0x80 0xBF v
  | three {v : Nat} {low high : UInt8} (h : v < 16) (hb : b.toNat = v + 0xE0)
      (hrange : 0x80 ≤ low.toNat ∧ high.toNat ≤ 0xBF) (hlow : v = 0 → 0xA0 ≤ low.toNat)
      (hhigh : v = 13 → high.toNat ≤ 0x9F) : Lead b 2 low high v
  | four {v : Nat} {low high : UInt8} (h : v < 5) (hb : b.toNat = v + 0xF0)
      (hrange : 0x80 ≤ low.toNat ∧ high.toNat ≤ 0xBF) (hlow : v = 0 → 0x90 ≤ low.toNat)
      (hhigh : v = 4 → high.toNat ≤ 0x8F) : Lead b 3 low high v

theorem lead_of_leadByte {b low high : UInt8} {n value : Nat}
    (h : leadByte b = some (n, low, high, value)) : Lead b n low high value := by
  have hlt {k : UInt8} (hk : b < k) : b.toNat < k.toNat := UInt8.lt_iff_toNat_lt.1 hk
  have hge {k : UInt8} (hk : ¬ b < k) : k.toNat ≤ b.toNat :=
    Nat.not_lt.1 fun hn => hk (UInt8.lt_iff_toNat_lt.2 hn)
  have hne {k : UInt8} (hk : ¬ b = k) : b.toNat ≠ k.toNat := fun he => hk (UInt8.toNat_inj.1 he)
  unfold leadByte at h
  split at h
  · next hone =>
    cases h
    exact .one (hlt hone)
  split at h
  · cases h
  split at h
  · next hlow hhigh =>
    have hlow : 0xC2 ≤ b.toNat := hge hlow
    have hhigh : b.toNat < 0xE0 := hlt hhigh
    cases h
    exact .two (by omega) (by omega)
  split at h
  · next heq =>
    cases h
    subst heq
    exact .three (by decide) (by decide) (by decide) (by decide) (by decide)
  split at h
  · next heq =>
    cases h
    subst heq
    exact .three (by decide) (by decide) (by decide) (by decide) (by decide)
  split at h
  · next hlow hfirst hsurrogate hhigh =>
    have hlow : 0xE0 ≤ b.toNat := hge hlow
    have hfirst : b.toNat ≠ 0xE0 := hne hfirst
    have hsurrogate : b.toNat ≠ 0xED := hne hsurrogate
    have hhigh : b.toNat < 0xF0 := hlt hhigh
    cases h
    exact .three (by omega) (by omega) (by decide) (by omega) (by omega)
  split at h
  · next heq =>
    cases h
    subst heq
    exact .four (by decide) (by decide) (by decide) (by decide) (by decide)
  split at h
  · next hlow hfirst hhigh =>
    have hlow : 0xF0 ≤ b.toNat := hge hlow
    have hfirst : b.toNat ≠ 0xF0 := hne hfirst
    have hhigh : b.toNat < 0xF4 := hlt hhigh
    cases h
    exact .four (by omega) (by omega) (by decide) (by omega) (by omega)
  split at h
  · next heq =>
    cases h
    subst heq
    exact .four (by decide) (by decide) (by decide) (by decide) (by decide)
  · cases h

/-- Where continuation bytes follow, they are no smaller than 128. -/
theorem Lead.low {b low high : UInt8} {n value : Nat} (h : Lead b n low high value) :
    n = 0 ∨ 0x80 ≤ low.toNat := by
  cases h with
  | one => exact .inl rfl
  | two => exact .inr (by decide)
  | three _ _ hrange => exact .inr hrange.1
  | four _ _ hrange => exact .inr hrange.1

/-! ## A byte below 128 -/

section Below

variable {s : UInt8} (hs : s.toNat < 0x80)

include hs

/-- Continuation bytes are taken from what stands in front of a byte below 128. -/
theorem continuation_append {n : Nat} {low : UInt8} (hlow : n = 0 ∨ 0x80 ≤ low.toNat)
    (high : UInt8) (value : Nat) (a b : List UInt8) :
    continuation n low high value (a ++ s :: b) =
      ((continuation n low high value a).1, (continuation n low high value a).2 ++ s :: b) := by
  induction n generalizing low high value a with
  | zero => rw [continuation, continuation]
  | succ n ih =>
    have hlow : 0x80 ≤ low.toNat := hlow.resolve_left (Nat.succ_ne_zero n)
    cases a with
    | nil =>
      have hnot : ¬ (decide (low ≤ s) && decide (s ≤ high)) = true := by
        simp only [Bool.and_eq_true, decide_eq_true_eq, UInt8.le_iff_toNat_le]
        omega
      rw [List.nil_append]
      exact (if_neg hnot : continuation (n + 1) low high value (s :: b) = (none, s :: b))
    | cons c a =>
      rw [List.cons_append, continuation, continuation]
      split
      · exact ih (.inr (by decide)) ..
      · rfl

theorem headPart_append (c : UInt8) (a b : List UInt8) :
    headPart c (a ++ s :: b) = ((headPart c a).1, (headPart c a).2 ++ s :: b) := by
  rw [headPart, headPart]
  cases hlead : leadByte c with
  | none => rfl
  | some lead =>
    obtain ⟨n, low, high, value⟩ := lead
    exact continuation_append hs (lead_of_leadByte hlead).low high value a b

/-- A byte below 128 is a part of its own. -/
theorem headPart_below (rest : List UInt8) :
    headPart s rest = (some (Char.ofNat s.toNat), rest) := by
  have hlead : leadByte s = some (0, 0, 0, s.toNat) := if_pos (UInt8.lt_iff_toNat_lt.2 hs)
  rw [headPart, hlead]
  rfl

/-- A byte below 128 cuts the parts in two. -/
theorem parts_append_cons (a b : List UInt8) :
    parts (a ++ s :: b) = parts a ++ some (Char.ofNat s.toNat) :: parts b := by
  induction hn : a.length using Nat.strongRecOn generalizing a with
  | ind n ih =>
    cases a with
    | nil => rw [List.nil_append, parts_cons, headPart_below hs, parts_nil, List.nil_append]
    | cons c a =>
      have hlen : (headPart c a).2.length < n := by
        have := headPart_length c a
        rw [← hn, List.length_cons]
        omega
      rw [List.cons_append, parts_cons, headPart_append hs, ih _ hlen _ rfl, parts_cons,
        List.cons_append]

/-- What stands in front of a byte below 128 and what stands behind it is decoded each for
itself. -/
theorem decodeLossy_append_cons (a b : List UInt8) :
    decodeLossy (a ++ s :: b) =
      decodeLossy a ++ String.singleton (Char.ofNat s.toNat) ++ decodeLossy b := by
  rw [decodeLossy, parts_append_cons hs, List.map_append, List.map_cons, String.ofList_append,
    String.ofList_cons, ← String.append_assoc]
  rfl

end Below

/-! ## Characters among the parts -/

/-- The continuation bytes of a character, one by one. -/
theorem exists_of_continuation {n : Nat} {low high : UInt8} {value : Nat} {bytes rest : List UInt8}
    {c : Char} (h : continuation (n + 1) low high value bytes = (some c, rest)) :
    ∃ b tail, bytes = b :: tail ∧ low.toNat ≤ b.toNat ∧ b.toNat ≤ high.toNat ∧
      continuation n 0x80 0xBF (value * 64 + b.toNat % 64) tail = (some c, rest) := by
  cases bytes with
  | nil =>
    rw [continuation] at h
    cases h
  | cons b tail =>
    rw [continuation] at h
    split at h
    · next hrange =>
      rw [Bool.and_eq_true, decide_eq_true_eq, decide_eq_true_eq, UInt8.le_iff_toNat_le,
        UInt8.le_iff_toNat_le] at hrange
      exact ⟨b, tail, rfl, hrange.1, hrange.2, h⟩
    · cases h

/-- No more bytes are owed. -/
theorem eq_of_continuation_zero {low high : UInt8} {value : Nat} {bytes rest : List UInt8}
    {c : Char} (h : continuation 0 low high value bytes = (some c, rest)) :
    Char.ofNat value = c ∧ bytes = rest := by
  rw [continuation] at h
  cases h
  exact ⟨rfl, rfl⟩

/-- A number that is no surrogate and not above the last character is that of its character. -/
theorem toNat_charOfNat {n : Nat} (h : n < 0xD800 ∨ (0xDFFF < n ∧ n < 0x110000)) :
    (Char.ofNat n).val.toNat = n := by
  have hvalid : n.isValidChar := h
  rw [Char.ofNat, dif_pos hvalid]
  rfl

/-- The one byte of a character. -/
theorem utf8EncodeChar_one {n : Nat} (h : n < 0x80) :
    String.utf8EncodeChar (Char.ofNat n) = [UInt8.ofNat n] := by
  rw [String.utf8EncodeChar, toNat_charOfNat (by omega)]
  exact if_pos (by omega)

/-- Bytes that hold the bits of a character are its bytes. -/
theorem utf8EncodeChar_two {n : Nat} (b b1 : UInt8) (hlow : 0x80 ≤ n) (hhigh : n < 0x800)
    (h0 : n / 64 % 32 + 0xC0 = b.toNat) (h1 : n % 64 + 0x80 = b1.toNat) :
    String.utf8EncodeChar (Char.ofNat n) = [b, b1] := by
  rw [String.utf8EncodeChar, toNat_charOfNat (by omega), if_neg (by omega), if_pos (by omega), h0,
    h1, UInt8.ofNat_toNat, UInt8.ofNat_toNat]

theorem utf8EncodeChar_three {n : Nat} (b b1 b2 : UInt8) (hlow : 0x800 ≤ n) (hhigh : n < 0x10000)
    (hvalid : n < 0xD800 ∨ 0xDFFF < n) (h0 : n / 4096 % 16 + 0xE0 = b.toNat)
    (h1 : n / 64 % 64 + 0x80 = b1.toNat) (h2 : n % 64 + 0x80 = b2.toNat) :
    String.utf8EncodeChar (Char.ofNat n) = [b, b1, b2] := by
  rw [String.utf8EncodeChar, toNat_charOfNat (by omega), if_neg (by omega), if_neg (by omega),
    if_pos (by omega), h0, h1, h2, UInt8.ofNat_toNat, UInt8.ofNat_toNat, UInt8.ofNat_toNat]

theorem utf8EncodeChar_four {n : Nat} (b b1 b2 b3 : UInt8) (hlow : 0x10000 ≤ n)
    (hhigh : n < 0x110000) (h0 : n / 262144 % 8 + 0xF0 = b.toNat)
    (h1 : n / 4096 % 64 + 0x80 = b1.toNat) (h2 : n / 64 % 64 + 0x80 = b2.toNat)
    (h3 : n % 64 + 0x80 = b3.toNat) :
    String.utf8EncodeChar (Char.ofNat n) = [b, b1, b2, b3] := by
  rw [String.utf8EncodeChar, toNat_charOfNat (by omega), if_neg (by omega), if_neg (by omega),
    if_neg (by omega), h0, h1, h2, h3, UInt8.ofNat_toNat, UInt8.ofNat_toNat, UInt8.ofNat_toNat,
    UInt8.ofNat_toNat]

/-- A part that is a character is the bytes of this character. -/
theorem cons_eq_of_headPart {b : UInt8} {bytes rest : List UInt8} {c : Char}
    (h : headPart b bytes = (some c, rest)) : b :: bytes = String.utf8EncodeChar c ++ rest := by
  have hbounds : (0x80 : UInt8).toNat = 0x80 ∧ (0xBF : UInt8).toNat = 0xBF := ⟨rfl, rfl⟩
  rw [headPart] at h
  cases hlead : leadByte b with
  | none =>
    rw [hlead] at h
    cases h
  | some lead =>
    obtain ⟨n, low, high, value⟩ := lead
    rw [hlead] at h
    dsimp only at h
    cases lead_of_leadByte hlead with
    | one hb =>
      obtain ⟨rfl, rfl⟩ := eq_of_continuation_zero h
      rw [utf8EncodeChar_one hb, UInt8.ofNat_toNat, List.singleton_append]
    | two hvalue hb =>
      obtain ⟨b1, tail, rfl, hlow1, hhigh1, h⟩ := exists_of_continuation h
      obtain ⟨rfl, rfl⟩ := eq_of_continuation_zero h
      rw [utf8EncodeChar_two b b1 (by omega) (by omega) (by omega) (by omega)]
      rfl
    | three hvalue hb hrange hlow hhigh =>
      obtain ⟨b1, tail, rfl, hlow1, hhigh1, h⟩ := exists_of_continuation h
      obtain ⟨b2, tail, rfl, hlow2, hhigh2, h⟩ := exists_of_continuation h
      obtain ⟨rfl, rfl⟩ := eq_of_continuation_zero h
      rw [utf8EncodeChar_three b b1 b2 (by omega) (by omega) (by omega)
        (by omega) (by omega) (by omega)]
      rfl
    | four hvalue hb hrange hlow hhigh =>
      obtain ⟨b1, tail, rfl, hlow1, hhigh1, h⟩ := exists_of_continuation h
      obtain ⟨b2, tail, rfl, hlow2, hhigh2, h⟩ := exists_of_continuation h
      obtain ⟨b3, tail, rfl, hlow3, hhigh3, h⟩ := exists_of_continuation h
      obtain ⟨rfl, rfl⟩ := eq_of_continuation_zero h
      rw [utf8EncodeChar_four b b1 b2 b3 (by omega) (by omega)
        (by omega) (by omega) (by omega) (by omega)]
      rfl

/-! ## Texts among the bytes -/

theorem isSuffix_continuation (n : Nat) (low high : UInt8) (value : Nat) (bytes : List UInt8) :
    (continuation n low high value bytes).2 <:+ bytes := by
  induction n generalizing low high value bytes with
  | zero => exact List.suffix_rfl
  | succ n ih =>
    cases bytes with
    | nil => exact List.suffix_rfl
    | cons b bytes =>
      rw [continuation]
      split
      · exact (ih ..).trans (List.suffix_cons b bytes)
      · exact List.suffix_rfl

/-- What is left behind the first part stands at the end of the bytes. -/
theorem isSuffix_headPart (b : UInt8) (bytes : List UInt8) : (headPart b bytes).2 <:+ bytes := by
  rw [headPart]
  cases leadByte b with
  | none => exact List.suffix_rfl
  | some lead => exact isSuffix_continuation ..

/-- Characters at the beginning of the parts are their bytes at the beginning of the bytes. -/
theorem exists_of_parts_eq_append {cs : List Char} {ps : List (Option Char)} {bytes : List UInt8}
    (h : parts bytes = cs.map some ++ ps) :
    ∃ rest, bytes = cs.flatMap String.utf8EncodeChar ++ rest ∧ parts rest = ps := by
  induction cs generalizing bytes with
  | nil => exact ⟨bytes, rfl, h⟩
  | cons c cs ih =>
    cases bytes with
    | nil =>
      rw [parts_nil] at h
      cases h
    | cons b bytes =>
      rw [parts_cons, List.map_cons, List.cons_append] at h
      obtain ⟨hhead, htail⟩ := List.cons.inj h
      obtain ⟨rest, hrest, hps⟩ := ih htail
      refine ⟨rest, ?_, hps⟩
      rw [List.flatMap_cons, List.append_assoc, ← hrest]
      exact cons_eq_of_headPart (Prod.ext hhead rfl)

/-- Characters one after the other among the parts are their bytes one after the other among
the bytes. -/
theorem isInfix_of_isInfix_parts {cs : List Char} {bytes : List UInt8}
    (h : cs.map some <:+: parts bytes) : cs.flatMap String.utf8EncodeChar <:+: bytes := by
  obtain ⟨before, behind, hparts⟩ := h
  induction before generalizing bytes with
  | nil =>
    obtain ⟨rest, rfl, _⟩ := exists_of_parts_eq_append (hparts.symm.trans (List.append_assoc ..))
    exact (List.prefix_append _ rest).isInfix
  | cons p before ih =>
    cases bytes with
    | nil =>
      rw [parts_nil] at hparts
      cases hparts
    | cons b bytes =>
      rw [parts_cons, List.cons_append, List.cons_append] at hparts
      have hsuffix := (isSuffix_headPart b bytes).trans (List.suffix_cons b bytes)
      exact (ih (List.cons.inj hparts).2).trans hsuffix.isInfix

theorem map_some_of_all_isSome {α : Type} {ps : List (Option α)}
    (h : ps.all Option.isSome = true) : (ps.filterMap id).map some = ps := by
  induction ps with
  | nil => rfl
  | cons p ps ih =>
    cases p with
    | none => cases h
    | some a => exact congrArg (some a :: ·) (ih h)

/-- Bytes are those of the text that they are decoded to, if they are a text. -/
theorem encode_of_decode? {bytes : List UInt8} {s : String} (h : decode? bytes = some s) :
    encode s = bytes := by
  rw [decode?] at h
  split at h
  · next hall =>
    cases h
    have hsome : parts bytes = ((parts bytes).filterMap id).map some ++ [] := by
      rw [List.append_nil, map_some_of_all_isSome hall]
    obtain ⟨rest, hbytes, hrest⟩ := exists_of_parts_eq_append hsome
    have hnil : rest = [] := by
      cases rest with
      | nil => rfl
      | cons b rest =>
        rw [parts_cons] at hrest
        cases hrest
    rw [hnil, List.append_nil] at hbytes
    rw [encode_eq_flatMap, String.toList_ofList, ← hbytes]
  · cases h

/-- Bytes that are no text leave a replacement character in the text that is made of them. -/
theorem mem_decodeLossy_of_ne_encode {bytes : List UInt8} (h : ∀ s, encode s ≠ bytes) :
    '\uFFFD' ∈ (decodeLossy bytes).toList := by
  have hnone : ¬ (parts bytes).all Option.isSome = true := by
    intro hall
    exact h _ (encode_of_decode? (if_pos hall : decode? bytes = some _))
  obtain ⟨p, hp, hsome⟩ := List.all_eq_false.1 (Bool.eq_false_iff.2 hnone)
  rw [toList_decodeLossy]
  refine List.mem_map.2 ⟨p, hp, ?_⟩
  rw [Option.not_isSome_iff_eq_none.1 hsome]
  rfl

end Text
end GlyphLine

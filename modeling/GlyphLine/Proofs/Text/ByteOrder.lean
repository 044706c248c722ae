import GlyphLine.Proofs.Text.Utf8

/-!
# The order of texts and the order of their bytes

Texts are ordered by the code points of their characters, the first difference being decisive.
Encoded texts can be compared by their bytes in the same way, and the order is the same: UTF-8
writes a greater character with a greater byte at the first place where its bytes differ.

That two characters differ before the bytes of one of them end is what makes this work.  If the
bytes of a character began those of another one, it would depend on what follows which of the two
texts is the lesser one.

* `utf8EncodeChar_append_lt`: the bytes of a lesser character come first, **whatever follows**.
* `encode_lt_encode_iff`: texts are ordered as their bytes are.
-/

namespace GlyphLine
namespace Text

/-! ## Bytes of two characters -/

theorem ofNat_lt_ofNat {m n : Nat} (hn : n < 256) (h : m < n) : UInt8.ofNat m < UInt8.ofNat n := by
  rw [UInt8.lt_iff_toNat_lt, toNat_ofNat_of_lt hn, toNat_ofNat_of_lt (Nat.lt_trans h hn)]
  exact h

/-- Bytes that are given by numbers are compared by the first numbers that differ. -/
theorem ofNat_cons_lt {m n : Nat} {x y : List UInt8} (hn : n < 256)
    (h : m < n ∨ m = n ∧ x < y) : UInt8.ofNat m :: x < UInt8.ofNat n :: y := by
  rw [List.cons_lt_cons_iff]
  rcases h with h | ⟨rfl, h⟩
  · exact .inl (ofNat_lt_ofNat hn h)
  · exact .inr ⟨rfl, h⟩

/-- A lesser number is less without its last six bits, or in these. -/
theorem div_lt_or_mod_lt {m n : Nat} (h : m < n) :
    m / 64 < n / 64 ∨ m / 64 = n / 64 ∧ m % 64 < n % 64 := by
  omega

section

variable {m n : Nat} (h : m < n) (x y : List UInt8)
include h

theorem two_bytes_lt (hn : n ≤ 0x7FF) :
    UInt8.ofNat (m / 64 % 32 + 0xC0) :: UInt8.ofNat (m % 64 + 0x80) :: x <
      UInt8.ofNat (n / 64 % 32 + 0xC0) :: UInt8.ofNat (n % 64 + 0x80) :: y := by
  refine ofNat_cons_lt (by omega) ?_
  rcases div_lt_or_mod_lt h with hlead | ⟨hlead, hlast⟩
  · exact .inl (by omega)
  · exact .inr ⟨by rw [hlead], ofNat_cons_lt (by omega) (.inl (by omega))⟩

theorem three_bytes_lt (hn : n ≤ 0xFFFF) :
    UInt8.ofNat (m / 4096 % 16 + 0xE0) :: UInt8.ofNat (m / 64 % 64 + 0x80) ::
        UInt8.ofNat (m % 64 + 0x80) :: x <
      UInt8.ofNat (n / 4096 % 16 + 0xE0) :: UInt8.ofNat (n / 64 % 64 + 0x80) ::
        UInt8.ofNat (n % 64 + 0x80) :: y := by
  refine ofNat_cons_lt (by omega) ?_
  rcases div_lt_or_mod_lt h with hfront | ⟨hfront, hlast⟩
  · rcases div_lt_or_mod_lt hfront with hlead | ⟨hlead, hsecond⟩
    · exact .inl (by omega)
    · exact .inr ⟨by omega, ofNat_cons_lt (by omega) (.inl (by omega))⟩
  · refine .inr ⟨by omega, ofNat_cons_lt (by omega) (.inr ⟨by rw [hfront], ?_⟩)⟩
    exact ofNat_cons_lt (by omega) (.inl (by omega))

theorem four_bytes_lt (hn : n < 0x110000) :
    UInt8.ofNat (m / 262144 % 8 + 0xF0) :: UInt8.ofNat (m / 4096 % 64 + 0x80) ::
        UInt8.ofNat (m / 64 % 64 + 0x80) :: UInt8.ofNat (m % 64 + 0x80) :: x <
      UInt8.ofNat (n / 262144 % 8 + 0xF0) :: UInt8.ofNat (n / 4096 % 64 + 0x80) ::
        UInt8.ofNat (n / 64 % 64 + 0x80) :: UInt8.ofNat (n % 64 + 0x80) :: y := by
  refine ofNat_cons_lt (by omega) ?_
  rcases div_lt_or_mod_lt h with hfront | ⟨hfront, hlast⟩
  · rcases div_lt_or_mod_lt hfront with hlead | ⟨hlead, hthird⟩
    · rcases div_lt_or_mod_lt hlead with hfirst | ⟨hfirst, hsecond⟩
      · exact .inl (by omega)
      · exact .inr ⟨by omega, ofNat_cons_lt (by omega) (.inl (by omega))⟩
    · refine .inr ⟨by omega, ofNat_cons_lt (by omega) (.inr ⟨by omega, ?_⟩)⟩
      exact ofNat_cons_lt (by omega) (.inl (by omega))
  · refine .inr ⟨by omega, ofNat_cons_lt (by omega) (.inr ⟨by omega, ?_⟩)⟩
    refine ofNat_cons_lt (by omega) (.inr ⟨by rw [hfront], ?_⟩)
    exact ofNat_cons_lt (by omega) (.inl (by omega))

end

/-- The bytes of a lesser character come before those of a greater one, whatever follows. -/
theorem utf8EncodeChar_append_lt {c d : Char} (h : c < d) (x y : List UInt8) :
    String.utf8EncodeChar c ++ x < String.utf8EncodeChar d ++ y := by
  have hlt : c.val.toNat < d.val.toNat := UInt32.lt_iff_toNat_lt.mp (Char.lt_def.mp h)
  have hd : d.val.toNat < 0x110000 := by
    have := toNat_bounds d
    show d.toNat < 0x110000
    omega
  rw [String.utf8EncodeChar, String.utf8EncodeChar]
  -- more bytes begin with a greater one; with as many bytes the first difference decides
  by_cases hc1 : c.val.toNat ≤ 0x7F
  · rw [if_pos hc1]
    by_cases hd1 : d.val.toNat ≤ 0x7F
    · rw [if_pos hd1]
      exact ofNat_cons_lt (by omega) (.inl hlt)
    · rw [if_neg hd1]
      split
      · exact ofNat_cons_lt (by omega) (.inl (by omega))
      · split
        · exact ofNat_cons_lt (by omega) (.inl (by omega))
        · exact ofNat_cons_lt (by omega) (.inl (by omega))
  · have hd1 : ¬ d.val.toNat ≤ 0x7F := by omega
    rw [if_neg hc1, if_neg hd1]
    by_cases hc2 : c.val.toNat ≤ 0x7FF
    · rw [if_pos hc2]
      by_cases hd2 : d.val.toNat ≤ 0x7FF
      · rw [if_pos hd2]
        exact two_bytes_lt hlt x y hd2
      · rw [if_neg hd2]
        split
        · exact ofNat_cons_lt (by omega) (.inl (by omega))
        · exact ofNat_cons_lt (by omega) (.inl (by omega))
    · have hd2 : ¬ d.val.toNat ≤ 0x7FF := by omega
      rw [if_neg hc2, if_neg hd2]
      by_cases hc3 : c.val.toNat ≤ 0xFFFF
      · rw [if_pos hc3]
        by_cases hd3 : d.val.toNat ≤ 0xFFFF
        · rw [if_pos hd3]
          exact three_bytes_lt hlt x y hd3
        · rw [if_neg hd3]
          exact ofNat_cons_lt (by omega) (.inl (by omega))
      · have hd3 : ¬ d.val.toNat ≤ 0xFFFF := by omega
        rw [if_neg hc3, if_neg hd3]
        exact four_bytes_lt hlt x y hd

/-! ## Texts -/

theorem utf8EncodeChar_ne_nil (c : Char) : String.utf8EncodeChar c ≠ [] := by
  refine List.ne_nil_of_length_pos ?_
  rw [String.length_utf8EncodeChar]
  exact c.utf8Size_pos

theorem flatMap_utf8EncodeChar_lt : ∀ {cs ds : List Char}, cs < ds →
    cs.flatMap String.utf8EncodeChar < ds.flatMap String.utf8EncodeChar
  | _, [], h => absurd h (List.not_lt_nil _)
  | [], d :: ds, _ => by
    rw [List.flatMap_cons]
    obtain ⟨b, bs, hb⟩ := List.exists_cons_of_ne_nil (utf8EncodeChar_ne_nil d)
    rw [hb]
    exact List.nil_lt_cons ..
  | c :: cs, d :: ds, h => by
    rw [List.flatMap_cons, List.flatMap_cons]
    rcases List.cons_lt_cons_iff.mp h with hc | ⟨rfl, hrest⟩
    · exact utf8EncodeChar_append_lt hc _ _
    · exact List.append_left_lt (flatMap_utf8EncodeChar_lt hrest)

/-- **Texts are ordered as their bytes are.** -/
theorem encode_lt_encode_iff {s t : String} : encode s < encode t ↔ s < t := by
  have hlt {s t : String} (h : s < t) : encode s < encode t := by
    rw [encode_eq_flatMap, encode_eq_flatMap]
    exact flatMap_utf8EncodeChar_lt (String.lt_iff.mp h)
  refine ⟨fun h => ?_, hlt⟩
  rcases Std.lt_trichotomy s t with hst | rfl | hts
  · exact hst
  · exact absurd h (List.lt_irrefl _)
  · exact absurd h (List.lt_asymm (hlt hts))

end Text
end GlyphLine

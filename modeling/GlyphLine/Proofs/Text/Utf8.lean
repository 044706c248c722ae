import GlyphLine.Text.Utf8
import Mathlib.Data.List.TakeDrop

/-!
# Decoding undoes encoding

The bytes of a character are one lead byte with the continuation bytes that it announces.
The lead byte narrows the range of the first of them just where a character leaves it
open, so that the part which begins with the lead byte is the character.

## Main statements

* `headPart_utf8EncodeChar`: the first part of the bytes of a character, in front of any
  others.
* `decode?_encode`: a text is decoded from its bytes.
-/

namespace GlyphLine
namespace Text

/-! ## The bytes of a text -/

theorem toList_loop (bs : ByteArray) (i : Nat) (done : List UInt8) :
    ByteArray.toList.loop bs i done = done.reverse ++ bs.data.toList.drop i := by
  fun_induction ByteArray.toList.loop bs i done with
  | case1 i done hlt ih =>
    have hlen : i < bs.data.toList.length := by simpa using hlt
    have hget : bs.get! i = bs.data.toList[i] := by
      show bs.data[i]! = bs.data.toList[i]
      rw [getElem!_pos bs.data i hlt, Array.getElem_toList]
    rw [ih, List.drop_eq_getElem_cons hlen, hget, List.reverse_cons, List.append_assoc,
      List.singleton_append]
  | case2 i done hlt =>
    have hlen : bs.data.toList.length ≤ i := by simpa using hlt
    rw [List.drop_eq_nil_of_le hlen, List.append_nil]

/-- The bytes of a text are those of its characters, one after the other. -/
theorem encode_eq_flatMap (s : String) : encode s = s.toList.flatMap String.utf8EncodeChar := by
  have hbytes : s.toUTF8 = (s.toList.flatMap String.utf8EncodeChar).toByteArray := by
    rw [String.toUTF8_eq_toByteArray, ← List.utf8Encode, ← String.toByteArray_ofList,
      String.ofList_toList]
  rw [encode, hbytes, ByteArray.toList, toList_loop, List.reverse_nil, List.nil_append,
    List.drop_zero]
  simp

/-! ## Lead bytes and continuation bytes -/

theorem toNat_ofNat_of_lt {n : Nat} (h : n < 256) : (UInt8.ofNat n).toNat = n := by
  rw [UInt8.toNat_ofNat']
  exact Nat.mod_eq_of_lt h

/-- A continuation byte in its range adds six bits. -/
theorem continuation_cons {n t : Nat} {low high : UInt8} (ht : t < 256) (hlow : low.toNat ≤ t)
    (hhigh : t ≤ high.toNat) (value : Nat) (rest : List UInt8) :
    continuation (n + 1) low high value (UInt8.ofNat t :: rest) =
      continuation n 0x80 0xBF (value * 64 + t % 64) rest := by
  have hle : (decide (low ≤ UInt8.ofNat t) && decide (UInt8.ofNat t ≤ high)) = true := by
    rw [Bool.and_eq_true, decide_eq_true_eq, decide_eq_true_eq, UInt8.le_iff_toNat_le,
      UInt8.le_iff_toNat_le, toNat_ofNat_of_lt ht]
    exact ⟨hlow, hhigh⟩
  rw [continuation, if_pos hle, toNat_ofNat_of_lt ht]

/-- A continuation byte that holds the six bits `x % 64`. -/
theorem continuation_tail {n : Nat} (x value : Nat) (rest : List UInt8) :
    continuation (n + 1) 0x80 0xBF value (UInt8.ofNat (x % 64 + 128) :: rest) =
      continuation n 0x80 0xBF (value * 64 + x % 64) rest := by
  have hlow : (0x80 : UInt8).toNat = 128 := rfl
  have hhigh : (0xBF : UInt8).toNat = 191 := rfl
  have hbits : (x % 64 + 128) % 64 = x % 64 := by omega
  rw [continuation_cons (by omega) (by omega) (by omega), hbits]

/-- The bytes below 128 announce nothing. -/
theorem leadByte_one : ∀ n < 0x80, leadByte (UInt8.ofNat n) = some (0, 0, 0, n) := by
  decide +kernel

/-- The lead bytes of two; the first two of them would be overlong. -/
theorem leadByte_two : ∀ n < 30,
    leadByte (UInt8.ofNat (n + 2 + 0xC0)) = some (1, 0x80, 0xBF, n + 2) := by
  decide +kernel

/-- The lead bytes of three, with the narrower ranges behind the first one and behind that
of the surrogates. -/
theorem leadByte_three : ∀ n < 16,
    leadByte (UInt8.ofNat (n + 0xE0)) =
      some (2, if n = 0 then 0xA0 else 0x80, if n = 13 then 0x9F else 0xBF, n) := by
  decide +kernel

/-- The lead bytes of four, with the narrower ranges behind the first and the last one. -/
theorem leadByte_four : ∀ n < 5,
    leadByte (UInt8.ofNat (n + 0xF0)) =
      some (3, if n = 0 then 0x90 else 0x80, if n = 4 then 0x8F else 0xBF, n) := by
  decide +kernel

/-! ## Characters -/

/-- A character is no surrogate and no number above the last character. -/
theorem toNat_bounds (c : Char) : c.toNat < 0xD800 ∨ (0xDFFF < c.toNat ∧ c.toNat < 0x110000) := by
  have h := c.valid
  exact h

theorem headPart_two {v : Nat} (hlow : 0x80 ≤ v) (hhigh : v ≤ 0x7FF) (rest : List UInt8) :
    headPart (UInt8.ofNat (v / 64 % 32 + 0xC0)) (UInt8.ofNat (v % 64 + 0x80) :: rest) =
      (some (Char.ofNat v), rest) := by
  have hlead := leadByte_two (v / 64 % 32 - 2) (by omega)
  have hsub : v / 64 % 32 - 2 + 2 = v / 64 % 32 := by omega
  have hsum : v / 64 % 32 * 64 + v % 64 = v := by omega
  rw [hsub] at hlead
  rw [headPart, hlead]
  show continuation 1 0x80 0xBF (v / 64 % 32) _ = _
  rw [continuation_tail, continuation, hsum]

theorem headPart_three {v : Nat} (hlow : 0x800 ≤ v) (hhigh : v ≤ 0xFFFF)
    (hvalid : v < 0xD800 ∨ 0xDFFF < v) (rest : List UInt8) :
    headPart (UInt8.ofNat (v / 4096 % 16 + 0xE0)) (UInt8.ofNat (v / 64 % 64 + 0x80) ::
      UInt8.ofNat (v % 64 + 0x80) :: rest) = (some (Char.ofNat v), rest) := by
  have hsum : (v / 4096 % 16 * 64 + v / 64 % 64) * 64 + v % 64 = v := by omega
  have hbits : (v / 64 % 64 + 0x80) % 64 = v / 64 % 64 := by omega
  rw [headPart, leadByte_three _ (Nat.mod_lt _ (by omega))]
  show continuation 2 _ _ (v / 4096 % 16) _ = _
  rw [continuation_cons (by omega), hbits, continuation_tail, continuation, hsum]
  · -- overlong forms would lie below
    split
    · show 0xA0 ≤ _
      omega
    · show 0x80 ≤ _
      omega
  · -- surrogates would lie above
    split
    · show _ ≤ 0x9F
      omega
    · show _ ≤ 0xBF
      omega

theorem headPart_four {v : Nat} (hlow : 0x10000 ≤ v) (hhigh : v < 0x110000)
    (rest : List UInt8) :
    headPart (UInt8.ofNat (v / 262144 % 8 + 0xF0)) (UInt8.ofNat (v / 4096 % 64 + 0x80) ::
      UInt8.ofNat (v / 64 % 64 + 0x80) :: UInt8.ofNat (v % 64 + 0x80) :: rest) =
      (some (Char.ofNat v), rest) := by
  have hsum : ((v / 262144 % 8 * 64 + v / 4096 % 64) * 64 + v / 64 % 64) * 64 + v % 64 = v := by
    omega
  have hbits : (v / 4096 % 64 + 0x80) % 64 = v / 4096 % 64 := by omega
  rw [headPart, leadByte_four _ (by omega)]
  show continuation 3 _ _ (v / 262144 % 8) _ = _
  rw [continuation_cons (by omega), hbits, continuation_tail, continuation_tail, continuation,
    hsum]
  · -- overlong forms would lie below
    split
    · show 0x90 ≤ _
      omega
    · show 0x80 ≤ _
      omega
  · -- numbers above the last character would lie above
    split
    · show _ ≤ 0x8F
      omega
    · show _ ≤ 0xBF
      omega

/-- The first part of the bytes of a character is the character. -/
theorem headPart_utf8EncodeChar (c : Char) (rest : List UInt8) :
    ∃ b bs, String.utf8EncodeChar c = b :: bs ∧ headPart b (bs ++ rest) = (some c, rest) := by
  have hchar : Char.ofNat c.toNat = c := Char.ofNat_toNat c
  have hvalid := toNat_bounds c
  have hval : c.val.toNat = c.toNat := rfl
  rw [String.utf8EncodeChar, hval]
  by_cases h1 : c.toNat ≤ 0x7F
  · refine ⟨_, _, if_pos h1, ?_⟩
    rw [headPart, leadByte_one c.toNat (by omega)]
    show (some (Char.ofNat c.toNat), rest) = _
    rw [hchar]
  · rw [if_neg h1]
    by_cases h2 : c.toNat ≤ 0x7FF
    · refine ⟨_, _, if_pos h2, ?_⟩
      rw [List.singleton_append, headPart_two (by omega) h2, hchar]
    · rw [if_neg h2]
      by_cases h3 : c.toNat ≤ 0xFFFF
      · refine ⟨_, _, if_pos h3, ?_⟩
        rw [List.cons_append, List.singleton_append,
          headPart_three (by omega) h3 (by omega), hchar]
      · refine ⟨_, _, if_neg h3, ?_⟩
        rw [List.cons_append, List.cons_append, List.singleton_append,
          headPart_four (by omega) (by omega), hchar]

/-! ## Texts -/

theorem partsAfter_utf8EncodeChar (read : List (Option Char)) (c : Char) (rest : List UInt8) :
    partsAfter read (String.utf8EncodeChar c ++ rest) = partsAfter (some c :: read) rest := by
  obtain ⟨b, bs, hbytes, hpart⟩ := headPart_utf8EncodeChar c rest
  rw [hbytes, List.cons_append, partsAfter, hpart]

/-- The parts of the bytes of a text are its characters. -/
theorem partsAfter_flatMap (read : List (Option Char)) (cs : List Char) :
    partsAfter read (cs.flatMap String.utf8EncodeChar) = read.reverse ++ cs.map some := by
  induction cs generalizing read with
  | nil => rw [List.flatMap_nil, partsAfter, List.map_nil, List.append_nil]
  | cons c cs ih =>
    rw [List.flatMap_cons, partsAfter_utf8EncodeChar, ih, List.reverse_cons, List.append_assoc,
      List.singleton_append, List.map_cons]

theorem parts_encode (s : String) : parts (encode s) = s.toList.map some := by
  rw [parts, encode_eq_flatMap, partsAfter_flatMap, List.reverse_nil, List.nil_append]

/-- A text is decoded from its bytes. -/
theorem decode?_encode (s : String) : decode? (encode s) = some s := by
  have hall : (s.toList.map some).all Option.isSome = true := by
    rw [List.all_map]
    exact List.all_eq_true.2 fun _ _ => rfl
  have hchars : (s.toList.map some).filterMap id = s.toList := by
    rw [List.filterMap_map]
    exact List.filterMap_some
  rw [decode?, parts_encode, if_pos hall, hchars, String.ofList_toList]

end Text
end GlyphLine

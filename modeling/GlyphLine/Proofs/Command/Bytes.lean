import GlyphLine.Proofs.Command.Lint
import GlyphLine.Proofs.Text.Lossy
import GlyphLine.Proofs.Token.Words

/-!
# Tokens of bytes

What is linted is given as bytes, which need not be a text.  Nothing is refused for this: what
cannot be decoded is replaced, and a replacement character makes a token malformed.

The separators of one byte are below 128, so that bytes which cannot be decoded do not reach
over them: they spoil no token but the one that they stand in.  And they cannot make a
well-formed token of what is none, since such a token is decoded from its own bytes.

* `IsSeparatorByte`: the separators of one byte.
* `tokensOf`: the tokens of bytes.
* `undecodable_bytes_forge_no_token`: the main statement.
-/

namespace GlyphLine
namespace Command

open Token

/-- The separators of one byte: white space and the four information separators. -/
def IsSeparatorByte (b : UInt8) : Prop :=
  (0x09 ≤ b.toNat ∧ b.toNat ≤ 0x0D) ∨ (0x1C ≤ b.toNat ∧ b.toNat ≤ 0x20)

/-- The tokens of the text that is made of bytes. -/
def tokensOf (bytes : List UInt8) : List String := extract (Text.decodeLossy bytes)

/-- The character that stands for what cannot be decoded. -/
def replacement : Char := '\uFFFD'

/-! ## Separators -/

theorem lt_of_isSeparatorByte {b : UInt8} (h : IsSeparatorByte b) : b.toNat < 0x80 := by
  rw [IsSeparatorByte] at h
  omega

/-- A separator of one byte is one as a character. -/
theorem isSeparator_of_isSeparatorByte {b : UInt8} (h : IsSeparatorByte b) :
    Text.isSeparator (Char.ofNat b.toNat) = true := by
  have hlt := lt_of_isSeparatorByte h
  have hchar : (Char.ofNat b.toNat).toNat = b.toNat := Text.toNat_charOfNat (by omega)
  rw [IsSeparatorByte] at h
  simp only [Text.isSeparator, Text.isBlank, hchar, Bool.or_eq_true, Bool.and_eq_true,
    decide_eq_true_eq, beq_iff_eq]
  omega

/-- The bytes in front of a separator and those behind it have their tokens each for
themselves. -/
theorem tokensOf_append_cons {s : UInt8} (hs : IsSeparatorByte s) (a b : List UInt8) :
    tokensOf (a ++ s :: b) = tokensOf a ++ tokensOf b := by
  rw [tokensOf, Text.decodeLossy_append_cons (lt_of_isSeparatorByte hs),
    extract_append_separator (isSeparator_of_isSeparatorByte hs)]
  rfl

/-! ## Well-formed tokens -/

/-- A well-formed token holds no replacement character. -/
theorem replacement_not_mem {u : String} (h : isWellFormed u = true) :
    replacement ∉ u.toList := by
  obtain ⟨d, body, hchars, hall⟩ := isWellFormedChars_iff.1 h
  intro hmem
  rw [hchars] at hmem
  rcases List.mem_cons.1 hmem with heq | hmem
  · exact absurd heq (by decide)
  · exact absurd (hall _ hmem) (by decide)

/-- Parts of whose text no character is a replacement are all characters. -/
theorem eq_map_some {ps : List (Option Char)} {cs : List Char}
    (h : cs = ps.map fun p => p.getD replacement) (hcs : replacement ∉ cs) :
    ps = cs.map some := by
  induction ps generalizing cs with
  | nil =>
    rw [h]
    rfl
  | cons p ps ih =>
    subst h
    rw [List.map_cons, List.mem_cons, not_or] at hcs
    cases p with
    | none => exact absurd rfl hcs.1
    | some c => exact congrArg (some c :: ·) (ih rfl hcs.2)

/-- A well-formed token stands among the bytes as its own bytes. -/
theorem encode_isInfix_of_isWellFormed {bytes : List UInt8} {u : String} (hu : u ∈ tokensOf bytes)
    (h : isWellFormed u = true) : Text.encode u <:+: bytes := by
  have hinfix := isInfix_of_mem_extract hu
  rw [Text.toList_decodeLossy] at hinfix
  obtain ⟨ps, hps, hchars⟩ := List.infix_map_iff.1 hinfix
  rw [eq_map_some hchars (replacement_not_mem h)] at hps
  rw [Text.encode_eq_flatMap]
  exact Text.isInfix_of_isInfix_parts hps

/-! ## The bytes of a run -/

/-- The text that is linted is made of the bytes that are given. -/
theorem readLinted_eq_ok {s : Machine} {path : Option String} {bytes : List UInt8}
    (h : linted s path = .ok bytes) :
    ((readLinted path).on s).1 = .ok (Text.decodeLossy bytes) := by
  obtain ⟨t, _, hread⟩ := on_readLinted s path
  rw [h] at hread
  rw [hread]

/-- **Bytes that cannot be decoded neither hide a token nor forge one.**  The text that is linted
is made of the bytes that are given.  At a separator of one byte its tokens fall into those of
the bytes in front and those of the bytes behind.  In a piece between two such separators that
is no text, a replacement character stands for what cannot be decoded, and every token with such
a character is malformed.  A well-formed token stands among the bytes as its own bytes. -/
theorem undecodable_bytes_forge_no_token :
    (∀ (s : Machine) (path : Option String) (bytes : List UInt8), linted s path = .ok bytes →
      ((readLinted path).on s).1 = .ok (Text.decodeLossy bytes)) ∧
    (∀ (a b : List UInt8) (s : UInt8), IsSeparatorByte s →
      tokensOf (a ++ s :: b) = tokensOf a ++ tokensOf b) ∧
    (∀ (a piece b : List UInt8) (s t : UInt8), IsSeparatorByte s → IsSeparatorByte t →
      (∀ text : String, Text.encode text ≠ piece) →
        tokensOf (a ++ s :: (piece ++ t :: b)) = tokensOf a ++ (tokensOf piece ++ tokensOf b) ∧
        replacement ∈ (Text.decodeLossy piece).toList ∧
        ∀ u ∈ tokensOf piece, replacement ∈ u.toList →
          isWellFormed u = false ∧ ∀ v, isWellFormed v = true → u ≠ v) ∧
    (∀ (bytes : List UInt8) (u : String), u ∈ tokensOf bytes → isWellFormed u = true →
      Text.encode u <:+: bytes) := by
  refine ⟨fun s path bytes h => readLinted_eq_ok h, fun a b s hs => tokensOf_append_cons hs a b,
    fun a piece b s t hs ht hpiece => ⟨?_, Text.mem_decodeLossy_of_ne_encode hpiece, ?_⟩,
    fun bytes u hu h => encode_isInfix_of_isWellFormed hu h⟩
  · rw [tokensOf_append_cons hs, tokensOf_append_cons ht]
  · intro u _ hmem
    have hmalformed : ¬ isWellFormed u = true := fun h => replacement_not_mem h hmem
    exact ⟨Bool.eq_false_iff.2 hmalformed, fun v hv heq => hmalformed (heq ▸ hv)⟩

/-- Between two tokens, a mark with a letter and a byte that begins a character without an end. -/
def spoiledBytes : List UInt8 :=
  [0x7E, 0x49, 0x43, 0x45, 0x2D, 0x20, 0x7E, 0x50, 0xC3, 0x0A, 0x7E, 0x50, 0x31]

/-- The token in the middle is malformed; the others are found as they are. -/
theorem undecodable_bytes_forge_no_token_spoiled :
    let s : Machine := { volume := ⟨[]⟩, input := spoiledBytes }
    linted s none = .ok spoiledBytes ∧
      ((readLinted none).on s).1 = .ok (Text.decodeLossy spoiledBytes) ∧
      IsSeparatorByte 0x20 ∧ IsSeparatorByte 0x0A ∧
      (∀ text, Text.encode text ≠ [0x7E, 0x50, 0xC3]) ∧
      tokensOf spoiledBytes = ["~ICE-", "~P\uFFFD", "~P1"] ∧ isWellFormed "~P\uFFFD" = false ∧
      isWellFormed "~P1" = true ∧ Text.encode "~P1" <:+: spoiledBytes := by
  intro s
  have hinput : linted s none = .ok spoiledBytes := by rfl
  have hspace : IsSeparatorByte 0x20 := .inr (by decide)
  have hfeed : IsSeparatorByte 0x0A := .inl (by decide)
  have hpiece (text : String) : Text.encode text ≠ [0x7E, 0x50, 0xC3] := by
    intro h
    have hnone : Text.decode? [0x7E, 0x50, 0xC3] = none := by decide +kernel
    rw [← h, Text.decode?_encode] at hnone
    cases hnone
  obtain ⟨hread, -, hbetween, hkept⟩ := undecodable_bytes_forge_no_token
  obtain ⟨htokens, -, hmalformed⟩ :=
    hbetween [0x7E, 0x49, 0x43, 0x45, 0x2D] _ [0x7E, 0x50, 0x31] 0x20 0x0A hspace hfeed hpiece
  have hspoiled : "~P\uFFFD" ∈ tokensOf [0x7E, 0x50, 0xC3] := by decide +kernel
  have hall : tokensOf spoiledBytes = ["~ICE-", "~P\uFFFD", "~P1"] :=
    htokens.trans (by decide +kernel)
  have hwell : isWellFormed "~P1" = true := by decide +kernel
  exact ⟨hinput, hread s none _ hinput, hspace, hfeed, hpiece, hall,
    (hmalformed _ hspoiled (by decide +kernel)).1, hwell,
    hkept _ _ (by rw [hall]; decide) hwell⟩

end Command
end GlyphLine

import GlyphLine.Json.Lexeme
import GlyphLine.Json.Printer
import GlyphLine.Proofs.Text.Decimal

/-!
# Reading undoes writing on strings and whole numbers

A string is read back whatever characters it has: each of them is written so that one
step of the reader takes it.  A whole number is read back if it fits into sixty-four
bits and nothing follows it that could belong to it.

## Main statements

* `string_stringChars`: a string, from behind its opening quote on.
* `number_numberChars`: a whole number.
-/

namespace GlyphLine
namespace Json
namespace Lexeme

open Text

/-! ## Strings -/

theorem hexDigit?_hexChar {n : Nat} (h : n < 16) : hexDigit? (hexChar n) = some n := by
  have all : ∀ n < 16, hexDigit? (hexChar n) = some n := by decide
  exact all n h

/-- A digit is a small letter or a capital one. -/
theorem hexDigit?_of_letter {n : Nat} (h : n < 16) {c : Char}
    (hc : c = hexChar n ∨ c = (hexChar n).toUpper) : hexDigit? c = some n := by
  have capital : ∀ n < 16, hexDigit? (hexChar n).toUpper = some n := by decide
  rcases hc with rfl | rfl
  · exact hexDigit?_hexChar h
  · exact capital n h

/-- A character is read back from the four digits of its code point, which are two zeros and
two others, the last of them a small letter or a capital one. -/
theorem escaped_code {c last : Char} (hc : c.toNat < 256)
    (h : last = hexChar (c.toNat % 16) ∨ last = (hexChar (c.toNat % 16)).toUpper)
    (rest : List Char) :
    escaped ('u' :: '0' :: '0' :: hexChar (c.toNat / 16) :: last :: rest) = .ok (c, rest) := by
  have hzero : hexDigit? '0' = some 0 := rfl
  have hhigh : hexDigit? (hexChar (c.toNat / 16)) = some (c.toNat / 16) :=
    hexDigit?_hexChar (by omega)
  have hlow : hexDigit? last = some (c.toNat % 16) := hexDigit?_of_letter (by omega) h
  have hsum : c.toNat / 16 * 16 + c.toNat % 16 = c.toNat := by omega
  have hunit : codeUnit ('0' :: '0' :: hexChar (c.toNat / 16) :: last :: rest) =
      .ok (c.toNat, rest) := by
    simp [codeUnit, hzero, hhigh, hlow, hsum]
  have hlead : isLeading c.toNat = false := by
    rw [isLeading, decide_eq_false (by omega), Bool.false_and]
  have htrail : isTrailing c.toNat = false := by
    rw [isTrailing, decide_eq_false (by omega), Bool.false_and]
  simp [escaped, escapedUnits, hunit, hlead, htrail]

/-- One step of the reader takes what a character is written as. -/
theorem stringSteps_stringChar (steps : Nat) (done : List Char) (c : Char) (rest : List Char) :
    stringSteps (steps + 1) done (stringChar c ++ rest) = stringSteps steps (c :: done) rest := by
  have short (d : Char) (hu : d ≠ 'u') (he : shortEscape? d = some c) :
      stringSteps (steps + 1) done ('\\' :: d :: rest) = stringSteps steps (c :: done) rest := by
    have hesc : escaped (d :: rest) = .ok (c, rest) := by
      unfold escaped
      split
      · next heq => exact absurd heq (List.cons_ne_nil _ _)
      · next heq => exact absurd (List.cons.inj heq).1 hu
      · next heq =>
        obtain ⟨rfl, rfl⟩ := List.cons.inj heq
        rw [he]
    rw [stringSteps, if_neg (by decide), if_pos rfl, hesc]
  unfold stringChar
  split
  · next h => exact short '\"' (by decide) (by rw [h]; rfl)
  split
  · next h => exact short '\\' (by decide) (by rw [h]; rfl)
  split
  · next h => exact short 'b' (by decide) (h ▸ rfl)
  split
  · next h => exact short 't' (by decide) (h ▸ rfl)
  split
  · next h => exact short 'n' (by decide) (h ▸ rfl)
  split
  · next h => exact short 'f' (by decide) (h ▸ rfl)
  split
  · next h => exact short 'r' (by decide) (h ▸ rfl)
  split
  · next h =>
    -- the remaining control characters have no letter of their own
    show stringSteps (steps + 1) done ('\\' :: 'u' :: '0' :: '0' :: hexChar (c.toNat / 16) ::
      hexChar (c.toNat % 16) :: rest) = _
    rw [stringSteps, if_neg (by decide), if_pos rfl,
      escaped_code (by omega) (.inl rfl)]
  · next hquote hslash _ _ _ _ _ hcontrol =>
    rw [List.singleton_append, stringSteps, if_neg hquote, if_neg hslash,
      if_neg (by simpa [isControl] using hcontrol)]

/-- With more steps than characters the whole string is read. -/
theorem stringSteps_flatMap {steps : Nat} {cs : List Char} (h : cs.length < steps)
    (done rest : List Char) :
    stringSteps steps done (cs.flatMap stringChar ++ '\"' :: rest) =
      .ok (done.reverse ++ cs, rest) := by
  induction cs generalizing steps done with
  | nil =>
    obtain ⟨steps, rfl⟩ := Nat.exists_eq_add_of_lt h
    rw [List.flatMap_nil, List.nil_append, List.append_nil]
    show stringSteps (List.length [] + steps + 1) done ('\"' :: rest) = _
    rw [stringSteps, if_pos rfl]
  | cons c cs ih =>
    cases steps with
    | zero => exact absurd h (Nat.not_lt_zero _)
    | succ steps =>
      rw [List.flatMap_cons, List.append_assoc, stringSteps_stringChar,
        ih (Nat.lt_of_succ_lt_succ h), List.reverse_cons, List.append_assoc,
        List.singleton_append]

/-- A string is read back from behind its opening quote on. -/
theorem string_stringChars {budget : Nat} {s : String} (h : s.toList.length < budget)
    (rest : List Char) :
    string budget (s.toList.flatMap stringChar ++ '\"' :: rest) = .ok (s, rest) := by
  rw [string, stringSteps_flatMap h, List.reverse_nil, List.nil_append]
  show Except.ok (String.ofList s.toList, rest) = .ok (s, rest)
  rw [String.ofList_toList]

theorem stringChar_ne_nil (c : Char) : stringChar c ≠ [] := by
  unfold stringChar
  repeat' split
  all_goals exact List.cons_ne_nil _ _

/-- A string is written with at least as many characters as it has. -/
theorem length_le_flatMap_stringChar (cs : List Char) :
    cs.length ≤ (cs.flatMap stringChar).length := by
  induction cs with
  | nil => exact Nat.le_refl 0
  | cons c cs ih =>
    have hpos := List.length_pos_iff.2 (stringChar_ne_nil c)
    rw [List.flatMap_cons, List.length_append, List.length_cons]
    omega

/-! ## Whole numbers -/

/-- Nothing follows that could belong to a number. -/
def EndsNumber (rest : List Char) : Prop :=
  ∀ c ∈ rest.head?, c.isDigit = false ∧ c ≠ '.' ∧ c ≠ 'e' ∧ c ≠ 'E'

/-- Digits of which the number fits are counted to the end. -/
theorem ofWhole_digits {ds : List Char} (h : digitsValue ds ≤ wordLimit) :
    Significand.ofWhole ds = ⟨digitsValue ds, 0, false⟩ := by
  induction ds using List.reverseRecOn with
  | nil => rfl
  | append_singleton ds d ih =>
    have hlast : digitsValue (ds ++ [d]) = digitsValue ds * 10 + digitValue d := by
      rw [digitsValue, List.foldl_append]
      rfl
    rw [hlast] at h ⊢
    have hds := ih (by omega)
    rw [Significand.ofWhole] at hds ⊢
    rw [List.foldl_append, hds]
    have htakes : (⟨digitsValue ds, 0, false⟩ : Significand).takes d = true := by
      show (!false && decide (digitsValue ds * 10 + digitValue d ≤ wordLimit)) = true
      rw [decide_eq_true h]
      rfl
    show Significand.whole _ d = _
    rw [Significand.whole, if_pos htakes]
    rfl

theorem afterWhole_of_endsNumber {negative : Bool} {sig : Significand} {rest : List Char}
    (h : EndsNumber rest) :
    afterWhole negative sig rest = (ofWhole negative sig).map fun n => (n, rest) := by
  cases rest with
  | nil => rfl
  | cons c rest =>
    obtain ⟨_, hpoint, hsmall, hbig⟩ := h c rfl
    unfold afterWhole
    split
    · next heq => exact absurd (List.cons.inj heq).1 hpoint
    · next heq => exact absurd (List.cons.inj heq).1 hsmall
    · next heq => exact absurd (List.cons.inj heq).1 hbig
    · rfl

/-- The digits of a natural number that fits are read as this number. -/
theorem unsigned_toDigits (negative : Bool) {n : Nat} (hn : n ≤ wordLimit) {rest : List Char}
    (h : EndsNumber rest) :
    unsigned negative (Nat.toDigits 10 n ++ rest) =
      (ofWhole negative ⟨n, 0, false⟩).map fun m => (m, rest) := by
  have hdigit : ∀ c ∈ rest.head?, c.isDigit = false := fun c hc => (h c hc).1
  by_cases hzero : n = 0
  · subst hzero
    have hsig : Significand.ofWhole ['0'] = ⟨0, 0, false⟩ := rfl
    show unsigned negative ('0' :: rest) = _
    unfold unsigned
    dsimp only
    rw [if_pos rfl]
    cases rest with
    | nil => exact afterWhole_of_endsNumber h
    | cons d rest =>
      dsimp only
      rw [if_neg (by simp [hdigit d rfl]), hsig]
      exact afterWhole_of_endsNumber h
  · have hall : ∀ c ∈ Nat.toDigits 10 n, c.isDigit = true := fun c hc =>
      Nat.isDigit_of_mem_toDigits (by omega) (by omega) hc
    have hhead := head?_toDigits (Nat.pos_of_ne_zero hzero)
    have hsig : Significand.ofWhole (Nat.toDigits 10 n) = ⟨n, 0, false⟩ := by
      rw [ofWhole_digits (by rwa [digitsValue_toDigits]), digitsValue_toDigits]
    cases hds : Nat.toDigits 10 n with
    | nil => exact absurd hds Nat.toDigits_ne_nil
    | cons c ds =>
      rw [hds] at hall hhead hsig
      have hc : c.isDigit = true := hall c List.mem_cons_self
      have hspan : (ds ++ rest).span Char.isDigit = (ds, rest) :=
        span_isDigit (fun d hd => hall d (List.mem_cons_of_mem _ hd)) hdigit
      rw [List.cons_append]
      unfold unsigned
      dsimp only
      rw [if_neg (hhead c rfl), if_pos hc, hspan, hsig]
      exact afterWhole_of_endsNumber h

/-- A digit begins no negative number. -/
theorem number_of_isDigit {c : Char} (h : c.isDigit = true) (s : List Char) :
    number (c :: s) = unsigned false (c :: s) := by
  unfold number
  split
  · next heq =>
    obtain rfl := (List.cons.inj heq).1
    exact absurd h (by decide)
  · rfl

theorem numberChars_ofNat (n : Nat) : numberChars (.whole (n : Int)) = Nat.toDigits 10 n := by
  rw [numberChars, ← Nat.toList_repr]
  rfl

theorem numberChars_neg (n : Nat) :
    numberChars (.whole (Int.negSucc n)) = '-' :: Nat.toDigits 10 (n + 1) := by
  rw [numberChars, ← Nat.toList_repr]
  show ("-" ++ (n + 1).repr).toList = _
  rw [String.toList_append]
  rfl

/-- A whole number that fits into sixty-four bits is read back. -/
theorem number_numberChars {n : Int} (hn : Width.fits 64 n = true) {rest : List Char}
    (h : EndsNumber rest) :
    number (numberChars (.whole n) ++ rest) = .ok (.whole n, rest) := by
  have hbounds : -(2 ^ 63 : Int) ≤ n ∧ n < 2 ^ 64 := by
    simp only [Width.fits, Width.isSigned, Width.isUnsigned, Bool.or_eq_true,
      Bool.and_eq_true, decide_eq_true_eq] at hn
    have hbig : (Width.size 64 : Int) = 2 ^ 64 := by decide
    have hhalf : (Width.size (64 - 1) : Int) = 2 ^ 63 := by decide
    omega
  have hlimit : (wordLimit : Int) = 2 ^ 64 - 1 := by decide
  cases n with
  | ofNat n =>
    have hle : n ≤ wordLimit := by
      have hlt : (n : Int) < 2 ^ 64 := hbounds.2
      omega
    have hnumber : number (Nat.toDigits 10 n ++ rest) =
        unsigned false (Nat.toDigits 10 n ++ rest) := by
      cases hc : Nat.toDigits 10 n with
      | nil => exact absurd hc Nat.toDigits_ne_nil
      | cons c ds =>
        refine number_of_isDigit ?_ _
        exact Nat.isDigit_of_mem_toDigits (b := 10) (n := n) (by omega) (by omega)
          (hc ▸ List.mem_cons_self)
    show number (numberChars (.whole (n : Int)) ++ rest) = _
    rw [numberChars_ofNat, hnumber, unsigned_toDigits false hle h]
    rfl
  | negSucc n =>
    have hsize : (Width.size 63 : Int) = 2 ^ 63 := by decide
    have hlow := hbounds.1
    have hle : n + 1 ≤ Width.size 63 := by omega
    have hplain : ¬ (⟨n + 1, 0, false⟩ : Significand).full = true := Bool.false_ne_true
    rw [numberChars_neg, List.cons_append, number,
      unsigned_toDigits true (by omega) h, ofWhole, if_neg hplain, if_pos rfl,
      if_neg (by simpa using hle)]
    rfl

/-- A whole number is written with a sign or a digit at its beginning. -/
theorem numberChars_eq_cons (n : Int) :
    ∃ c cs, numberChars (.whole n) = c :: cs ∧ (c = '-' ∨ c.isDigit = true) := by
  cases n with
  | ofNat n =>
    show ∃ c cs, numberChars (.whole (n : Int)) = c :: cs ∧ _
    rw [numberChars_ofNat]
    cases hc : Nat.toDigits 10 n with
    | nil => exact absurd hc Nat.toDigits_ne_nil
    | cons c ds =>
      refine ⟨c, ds, rfl, .inr ?_⟩
      exact Nat.isDigit_of_mem_toDigits (b := 10) (n := n) (by omega) (by omega)
        (hc ▸ List.mem_cons_self)
  | negSucc n => exact ⟨'-', _, numberChars_neg n, .inl rfl⟩

/-- What begins a number is no other character than a sign or a digit. -/
theorem ne_of_beginsNumber {c d : Char} (h : c = '-' ∨ c.isDigit = true) (hminus : d ≠ '-')
    (hdigit : d.isDigit = false) : c ≠ d := by
  rintro rfl
  rcases h with h | h
  · exact hminus h
  · exact Bool.false_ne_true (hdigit ▸ h)

/-- What begins a number is no white space. -/
theorem isSpace_of_beginsNumber {c : Char} (h : c = '-' ∨ c.isDigit = true) :
    isSpace c = false := by
  have hspace := ne_of_beginsNumber h (d := ' ') (by decide) (by decide)
  have hfeed := ne_of_beginsNumber h (d := '\n') (by decide) (by decide)
  have htab := ne_of_beginsNumber h (d := '\t') (by decide) (by decide)
  have hreturn := ne_of_beginsNumber h (d := '\r') (by decide) (by decide)
  simp [isSpace, hspace, hfeed, htab, hreturn]

end Lexeme
end Json
end GlyphLine

import GlyphLine.Proofs.Json.Accepted
import GlyphLine.Proofs.Json.Syntax
import Mathlib.Data.List.TakeWhile

/-!
# Numbers, read and skipped

A written number is read, and skipped, up to its end wherever it stands in front of something
that could not belong to it.  What the reader makes of it, a number or a fault, depends on the
written number only.  Skipping has no fault for a written number: there is no number too large
for it.

Conversely, what is skipped as a number is a written number, and whatever the reader accepts as
a number is skipped up to the same place.

## Main statements

* `exists_number`: a written number is read, **whatever follows it**.
* `skipNumber_chars`: a written number is skipped.
* `exists_numeral`: what is skipped as a number is one.
* `skipNumber_of_number`: what is read as a number is skipped as one.
-/

namespace GlyphLine
namespace Json
namespace Lexeme

open Text

/-! ## Written numbers -/

/-- Digits end where something begins that could not belong to a number. -/
theorem span_digits (d : Digits) {rest : List Char} (h : ∀ c ∈ rest.head?, c.isDigit = false) :
    (d.chars ++ rest).span Char.isDigit = (d.chars, rest) :=
  span_isDigit d.isDigit h

theorem EndsNumber.isDigit_head {rest : List Char} (h : EndsNumber rest) :
    ∀ c ∈ rest.head?, c.isDigit = false := fun c hc => (h c hc).1

/-- Between the letter and the digits of an exponent there is just its sign. -/
theorem exponentSign_tail (e : Exponent) (rest : List Char) :
    exponentSign (e.tail ++ rest) = (e.below, e.digits.chars ++ rest) := by
  obtain ⟨capital, sign, d⟩ := e
  rcases sign with _ | _ | _
  · -- a digit is no sign
    show exponentSign (d.first :: (d.others ++ rest)) = (false, d.first :: (d.others ++ rest))
    have hd : d.first.isDigit = true := d.isDigit _ List.mem_cons_self
    unfold exponentSign
    split
    · next heq =>
      rw [(List.cons.inj heq).1] at hd
      exact absurd hd (by decide)
    · next heq =>
      rw [(List.cons.inj heq).1] at hd
      exact absurd hd (by decide)
    · rfl
  · rfl
  · rfl

theorem exists_exponent (negative : Bool) (sig : Significand) (e : Exponent) :
    ∃ r : Except Fault Number, ∀ rest, EndsNumber rest →
      exponent negative sig (e.tail ++ rest) = r.map fun n => (n, rest) := by
  let power : Int := digitsValue e.digits.chars
  refine ⟨(ofParts negative sig.value
    (sig.exponent + if e.below then -power else power)).map .double, fun rest hrest => ?_⟩
  rw [exponent, exponentSign_tail]
  dsimp only
  rw [span_digits e.digits hrest.isDigit_head]
  show Except.map _ (ofParts negative sig.value _) = _
  cases ofParts negative sig.value (sig.exponent + if e.below then -power else power) with
  | error f => rfl
  | ok d => rfl

/-- The letter of an exponent is one of two. -/
theorem letter_eq (e : Exponent) : e.letter = 'e' ∨ e.letter = 'E' := by
  obtain ⟨_ | _, _, _⟩ := e
  · exact .inl rfl
  · exact .inr rfl

theorem isDigit_head_exponentChars (e : Option Exponent) {rest : List Char}
    (h : EndsNumber rest) :
    ∀ c ∈ (Numeral.exponentChars e ++ rest).head?, c.isDigit = false := by
  cases e with
  | none => exact h.isDigit_head
  | some e =>
    intro c hc
    obtain rfl : e.letter = c := Option.some.inj hc
    rcases letter_eq e with he | he
    · rw [he]
      rfl
    · rw [he]
      rfl

theorem exists_fraction (negative : Bool) (sig : Significand) (d : Digits)
    (e : Option Exponent) :
    ∃ r : Except Fault Number, ∀ rest, EndsNumber rest →
      fraction negative sig (d.chars ++ (Numeral.exponentChars e ++ rest)) =
        r.map fun n => (n, rest) := by
  cases e with
  | none =>
    let sig' := sig.withFraction d.chars
    refine ⟨(ofParts negative sig'.value sig'.exponent).map .double, fun rest hrest => ?_⟩
    rw [fraction, span_digits d (isDigit_head_exponentChars none hrest)]
    dsimp only [Numeral.exponentChars, List.nil_append, Digits.chars]
    have hparts : (ofParts negative sig'.value sig'.exponent).map (fun d => (Number.double d, rest))
        = ((ofParts negative sig'.value sig'.exponent).map .double).map fun n => (n, rest) := by
      cases ofParts negative sig'.value sig'.exponent with
      | error f => rfl
      | ok d => rfl
    cases rest with
    | nil => exact hparts
    | cons c rest =>
      obtain ⟨_, _, hsmall, hbig⟩ := hrest c rfl
      split
      · next heq => exact absurd heq (List.cons_ne_nil _ _)
      · next heq _ => exact absurd heq (List.cons_ne_nil _ _)
      · next heq _ => exact absurd (List.cons.inj heq).1 hsmall
      · next heq _ => exact absurd (List.cons.inj heq).1 hbig
      · exact hparts
  | some e =>
    obtain ⟨r, hr⟩ := exists_exponent negative (sig.withFraction d.chars) e
    refine ⟨r, fun rest hrest => ?_⟩
    rw [fraction, span_digits d (isDigit_head_exponentChars (some e) hrest), ← hr rest hrest]
    dsimp only [Numeral.exponentChars, List.cons_append]
    rcases letter_eq e with he | he
    · rw [he]
      rfl
    · rw [he]
      rfl

theorem exists_afterWhole (negative : Bool) (sig : Significand) (n : Numeral) :
    ∃ r : Except Fault Number, ∀ rest, EndsNumber rest →
      afterWhole negative sig (n.tailChars ++ rest) = r.map fun n => (n, rest) := by
  obtain ⟨_, _, _, f, e⟩ := n
  cases f with
  | some d =>
    obtain ⟨r, hr⟩ := exists_fraction negative sig d e
    refine ⟨r, fun rest hrest => ?_⟩
    rw [← hr rest hrest, ← List.append_assoc]
    rfl
  | none =>
    cases e with
    | none => exact ⟨ofWhole negative sig, fun rest hrest => afterWhole_of_endsNumber hrest⟩
    | some e =>
      obtain ⟨r, hr⟩ := exists_exponent negative sig e
      refine ⟨r, fun rest hrest => ?_⟩
      rw [← hr rest hrest]
      show afterWhole negative sig (e.letter :: (e.tail ++ rest)) = _
      rcases letter_eq e with he | he
      · rw [he]
        rfl
      · rw [he]
        rfl

/-- What stands behind the digits before the point begins with no digit. -/
theorem isDigit_head_tailChars (n : Numeral) {rest : List Char} (h : EndsNumber rest) :
    ∀ c ∈ (n.tailChars ++ rest).head?, c.isDigit = false := by
  obtain ⟨_, _, _, f, e⟩ := n
  cases f with
  | some d =>
    intro c hc
    obtain rfl : '.' = c := Option.some.inj hc
    rfl
  | none => exact isDigit_head_exponentChars e h

theorem exists_unsigned (negative : Bool) (n : Numeral) :
    ∃ r : Except Fault Number, ∀ rest, EndsNumber rest →
      unsigned negative (n.unsignedChars ++ rest) = r.map fun n => (n, rest) := by
  obtain ⟨r, hr⟩ := exists_afterWhole negative (.ofWhole n.whole.chars) n
  refine ⟨r, fun rest hrest => ?_⟩
  have hhead := isDigit_head_tailChars n hrest
  rw [Numeral.unsignedChars, List.append_assoc, ← hr rest hrest]
  show unsigned negative (n.whole.first :: (n.whole.others ++ (n.tailChars ++ rest))) = _
  unfold unsigned
  dsimp only
  by_cases hzero : n.whole.first = '0'
  · rw [if_pos hzero, Digits.chars, n.proper hzero, hzero, List.nil_append]
    split
    · next c _ heq =>
      rw [heq] at hhead
      rw [if_neg (by rw [hhead c rfl]; exact Bool.false_ne_true)]
    · next heq => rw [heq]
  · rw [if_neg hzero, if_pos (n.whole.isDigit _ List.mem_cons_self),
      span_isDigit (fun c hc => n.whole.isDigit c (List.mem_cons_of_mem _ hc)) hhead]
    rfl

/-- What begins a number without its sign is a digit. -/
theorem isDigit_head_unsignedChars (n : Numeral) :
    ∃ c cs, n.unsignedChars = c :: cs ∧ c.isDigit = true :=
  ⟨n.whole.first, _, rfl, n.whole.isDigit _ List.mem_cons_self⟩

/-- A written number is read up to its end, with the same result whatever follows. -/
theorem exists_number (n : Numeral) :
    ∃ r : Except Fault Number, ∀ rest, EndsNumber rest →
      number (n.chars ++ rest) = r.map fun n => (n, rest) := by
  obtain ⟨r, hr⟩ := exists_unsigned n.negative n
  refine ⟨r, fun rest hrest => ?_⟩
  rw [← hr rest hrest, Numeral.chars]
  cases n.negative with
  | true => rfl
  | false =>
    obtain ⟨c, cs, hcs, hc⟩ := isDigit_head_unsignedChars n
    rw [if_neg Bool.false_ne_true, hcs, List.cons_append, number_of_isDigit hc]

/-- A number is written with a sign or a digit at its beginning. -/
theorem numeral_eq_cons (n : Numeral) :
    ∃ c cs, n.chars = c :: cs ∧ (c = '-' ∨ c.isDigit = true) := by
  rw [Numeral.chars]
  split
  · exact ⟨'-', _, rfl, .inl rfl⟩
  · obtain ⟨c, cs, hcs, hc⟩ := isDigit_head_unsignedChars n
    exact ⟨c, cs, hcs, .inr hc⟩

/-! ## Written numbers, skipped -/

theorem skipDigits_chars (d : Digits) {rest : List Char}
    (h : ∀ c ∈ rest.head?, c.isDigit = false) : skipDigits (d.chars ++ rest) = .ok rest := by
  rw [skipDigits, span_digits d h]
  rfl

theorem skipExponent_tail (e : Exponent) {rest : List Char} (h : EndsNumber rest) :
    skipExponent (e.tail ++ rest) = .ok rest := by
  rw [skipExponent, exponentSign_tail]
  exact skipDigits_chars e.digits h.isDigit_head

theorem skipFraction_chars (d : Digits) (e : Option Exponent) {rest : List Char}
    (h : EndsNumber rest) :
    skipFraction (d.chars ++ (Numeral.exponentChars e ++ rest)) = .ok rest := by
  rw [skipFraction, skipDigits_chars d (isDigit_head_exponentChars e h)]
  cases e with
  | none =>
    rw [Numeral.exponentChars, List.nil_append]
    split
    · next heq => exact absurd rfl (h 'e' (by rw [Except.ok.inj heq]; rfl)).2.2.1
    · next heq => exact absurd rfl (h 'E' (by rw [Except.ok.inj heq]; rfl)).2.2.2
    · rfl
  | some e =>
    rw [← skipExponent_tail e h]
    dsimp only [Numeral.exponentChars, List.cons_append]
    rcases letter_eq e with he | he
    · rw [he]
      rfl
    · rw [he]
      rfl

theorem skipAfterWhole_tailChars (n : Numeral) {rest : List Char} (h : EndsNumber rest) :
    skipAfterWhole (n.tailChars ++ rest) = .ok rest := by
  obtain ⟨_, _, _, f, e⟩ := n
  cases f with
  | some d =>
    rw [← skipFraction_chars d e h, ← List.append_assoc]
    rfl
  | none =>
    cases e with
    | none =>
      show skipAfterWhole rest = _
      cases rest with
      | nil => rfl
      | cons c rest =>
        obtain ⟨_, hpoint, hsmall, hbig⟩ := h c rfl
        unfold skipAfterWhole
        split
        · next heq => exact absurd (List.cons.inj heq).1 hpoint
        · next heq => exact absurd (List.cons.inj heq).1 hsmall
        · next heq => exact absurd (List.cons.inj heq).1 hbig
        · rfl
    | some e =>
      rw [← skipExponent_tail e h]
      show skipAfterWhole (e.letter :: (e.tail ++ rest)) = _
      rcases letter_eq e with he | he
      · rw [he]
        rfl
      · rw [he]
        rfl

theorem skipUnsigned_chars (n : Numeral) {rest : List Char} (h : EndsNumber rest) :
    skipUnsigned (n.unsignedChars ++ rest) = .ok rest := by
  have hhead := isDigit_head_tailChars n h
  have htail := skipAfterWhole_tailChars n h
  rw [Numeral.unsignedChars, List.append_assoc]
  show skipUnsigned (n.whole.first :: (n.whole.others ++ (n.tailChars ++ rest))) = _
  unfold skipUnsigned
  dsimp only
  by_cases hzero : n.whole.first = '0'
  · rw [if_pos hzero, n.proper hzero, List.nil_append]
    split
    · next c _ heq =>
      rw [heq] at hhead
      rw [if_neg (by rw [hhead c rfl]; exact Bool.false_ne_true), htail]
    · next heq =>
      rw [heq] at htail
      exact htail
  · have hothers : ∀ c ∈ n.whole.others, c.isDigit = true := fun c hc =>
      n.whole.isDigit c (List.mem_cons_of_mem _ hc)
    have hdrop : (n.whole.others ++ (n.tailChars ++ rest)).dropWhile Char.isDigit =
        n.tailChars ++ rest := by
      have hspan := span_isDigit hothers hhead
      rw [List.span_eq_takeWhile_dropWhile] at hspan
      exact congrArg Prod.snd hspan
    rw [if_neg hzero, if_pos (n.whole.isDigit _ List.mem_cons_self), hdrop, htail]

theorem skipNumber_of_isDigit {c : Char} (h : c.isDigit = true) (s : List Char) :
    skipNumber (c :: s) = skipUnsigned (c :: s) := by
  unfold skipNumber
  split
  · next heq =>
    obtain rfl := (List.cons.inj heq).1
    exact absurd h (by decide)
  · rfl

/-- A written number is skipped, however large it is. -/
theorem skipNumber_chars (n : Numeral) {rest : List Char} (h : EndsNumber rest) :
    skipNumber (n.chars ++ rest) = .ok rest := by
  have hskip := skipUnsigned_chars n h
  rw [Numeral.chars]
  split
  · exact hskip
  · obtain ⟨c, cs, hcs, hc⟩ := isDigit_head_unsignedChars n
    rw [hcs, List.cons_append] at hskip ⊢
    rw [skipNumber_of_isDigit hc, hskip]

/-! ## What is skipped is a number -/

theorem exists_digits {s rest : List Char} (h : skipDigits s = .ok rest) :
    ∃ d : Digits, s = d.chars ++ rest := by
  have hsplit := List.takeWhile_append_dropWhile (p := Char.isDigit) (l := s)
  have hall : ∀ c ∈ s.takeWhile Char.isDigit, c.isDigit = true :=
    fun c hc => List.mem_takeWhile_imp hc
  rw [skipDigits, List.span_eq_takeWhile_dropWhile] at h
  cases htake : s.takeWhile Char.isDigit with
  | nil =>
    rw [htake] at h
    cases h
  | cons c cs =>
    rw [htake] at h hsplit hall
    obtain rfl := Except.ok.inj h
    exact ⟨⟨c, cs, hall⟩, hsplit.symm⟩

theorem exists_exponentTail {s rest : List Char} (h : skipExponent s = .ok rest)
    (capital : Bool) : ∃ e : Exponent, e.capital = capital ∧ s = e.tail ++ rest := by
  rw [skipExponent] at h
  unfold exponentSign at h
  split at h
  · obtain ⟨d, hd⟩ := exists_digits h
    exact ⟨⟨capital, some false, d⟩, rfl, congrArg ('+' :: ·) hd⟩
  · obtain ⟨d, hd⟩ := exists_digits h
    exact ⟨⟨capital, some true, d⟩, rfl, congrArg ('-' :: ·) hd⟩
  · obtain ⟨d, hd⟩ := exists_digits h
    exact ⟨⟨capital, none, d⟩, rfl, hd⟩

/-- Behind its letter an exponent stands. -/
theorem exists_exponentChars {s rest : List Char} (h : skipExponent s = .ok rest)
    (capital : Bool) :
    ∃ e, (if capital then 'E' else 'e') :: s = Numeral.exponentChars e ++ rest := by
  obtain ⟨e, rfl, rfl⟩ := exists_exponentTail h capital
  exact ⟨some e, rfl⟩

theorem exists_fractionChars {s rest : List Char} (h : skipFraction s = .ok rest) :
    ∃ (d : Digits) (e : Option Exponent), s = d.chars ++ (Numeral.exponentChars e ++ rest) := by
  unfold skipFraction at h
  split at h
  · next hdigits =>
    obtain ⟨d, rfl⟩ := exists_digits hdigits
    obtain ⟨e, he⟩ := exists_exponentChars h false
    exact ⟨d, e, congrArg (d.chars ++ ·) he⟩
  · next hdigits =>
    obtain ⟨d, rfl⟩ := exists_digits hdigits
    obtain ⟨e, he⟩ := exists_exponentChars h true
    exact ⟨d, e, congrArg (d.chars ++ ·) he⟩
  · obtain ⟨d, rfl⟩ := exists_digits h
    exact ⟨d, none, rfl⟩

/-- Any digits before the point can stand in front of what is skipped behind them. -/
theorem exists_numeral_of_skipAfterWhole {s rest : List Char} (h : skipAfterWhole s = .ok rest)
    (negative : Bool) (whole : Digits) (proper : whole.first = '0' → whole.others = []) :
    ∃ n : Numeral, n.negative = negative ∧ whole.chars ++ s = n.unsignedChars ++ rest := by
  unfold skipAfterWhole at h
  have behind (f : Option Digits) (e : Option Exponent)
      (hs : s = (⟨negative, whole, proper, f, e⟩ : Numeral).tailChars ++ rest) :
      ∃ n : Numeral, n.negative = negative ∧ whole.chars ++ s = n.unsignedChars ++ rest :=
    ⟨⟨negative, whole, proper, f, e⟩, rfl, by rw [hs, Numeral.unsignedChars, List.append_assoc]⟩
  split at h
  · obtain ⟨d, e, rfl⟩ := exists_fractionChars h
    exact behind (some d) e (by rw [← List.append_assoc]; rfl)
  · obtain ⟨e, he⟩ := exists_exponentChars h false
    exact behind none e he
  · obtain ⟨e, he⟩ := exists_exponentChars h true
    exact behind none e he
  · exact behind none none (Except.ok.inj h)

theorem exists_numeral_of_skipUnsigned {s rest : List Char} (h : skipUnsigned s = .ok rest)
    (negative : Bool) :
    ∃ n : Numeral, n.negative = negative ∧ s = n.unsignedChars ++ rest := by
  let zero : Digits := ⟨'0', [], fun c hc => by rw [List.mem_singleton.1 hc]; rfl⟩
  unfold skipUnsigned at h
  split at h
  · cases h
  · next c s =>
    split at h
    · next hzero =>
      subst hzero
      have htail : skipAfterWhole s = .ok rest := by
        split at h
        · split at h
          · cases h
          · exact h
        · exact h
      exact exists_numeral_of_skipAfterWhole htail negative zero fun _ => rfl
    · next hzero =>
      split at h
      · next hc =>
        have hall : ∀ d ∈ c :: s.takeWhile Char.isDigit, d.isDigit = true := fun d hd =>
          (List.mem_cons.1 hd).elim (fun heq => heq ▸ hc) fun hd => List.mem_takeWhile_imp hd
        obtain ⟨n, hn, heq⟩ := exists_numeral_of_skipAfterWhole h negative ⟨c, _, hall⟩
          fun hc => absurd hc hzero
        refine ⟨n, hn, ?_⟩
        rw [← heq]
        exact congrArg (c :: ·) List.takeWhile_append_dropWhile.symm
      · cases h

/-- What is skipped as a number is a number. -/
theorem exists_numeral {s rest : List Char} (h : skipNumber s = .ok rest) :
    ∃ n : Numeral, s = n.chars ++ rest := by
  unfold skipNumber at h
  split at h
  · obtain ⟨n, hn, rfl⟩ := exists_numeral_of_skipUnsigned h true
    refine ⟨n, ?_⟩
    rw [Numeral.chars, hn]
    rfl
  · obtain ⟨n, hn, rfl⟩ := exists_numeral_of_skipUnsigned h false
    refine ⟨n, ?_⟩
    rw [Numeral.chars, hn]
    rfl

/-! ## What is read as a number is skipped as one -/

theorem skipExponent_of_exponent {negative : Bool} {sig : Significand} {s rest : List Char}
    {n : Number} (h : exponent negative sig s = .ok (n, rest)) : skipExponent s = .ok rest := by
  rw [exponent] at h
  rw [skipExponent, skipDigits]
  dsimp only at h
  generalize (exponentSign s).2.span Char.isDigit = run at h ⊢
  obtain ⟨_ | ⟨d, ds⟩, behind⟩ := run
  · cases behind with
    | nil => cases h
    | cons c cs => cases h
  · obtain ⟨_, -, heq⟩ := map_eq_ok_iff.1 h
    cases heq
    rfl

theorem skipFraction_of_fraction {negative : Bool} {sig : Significand} {s rest : List Char}
    {n : Number} (h : fraction negative sig s = .ok (n, rest)) : skipFraction s = .ok rest := by
  rw [fraction] at h
  rw [skipFraction, skipDigits]
  dsimp only at h
  generalize s.span Char.isDigit = run at h ⊢
  obtain ⟨_ | ⟨d, ds⟩, behind⟩ := run
  · cases behind with
    | nil => cases h
    | cons c cs => cases h
  · dsimp only at h ⊢
    split at h
    · cases h
    · cases h
    · exact skipExponent_of_exponent h
    · exact skipExponent_of_exponent h
    · next hsmall hbig _ _ =>
      obtain ⟨_, -, heq⟩ := map_eq_ok_iff.1 h
      cases heq
      split
      · next heq => exact absurd (Except.ok.inj heq) (hsmall _)
      · next heq => exact absurd (Except.ok.inj heq) (hbig _)
      · rfl

theorem skipAfterWhole_of_afterWhole {negative : Bool} {sig : Significand} {s rest : List Char}
    {n : Number} (h : afterWhole negative sig s = .ok (n, rest)) :
    skipAfterWhole s = .ok rest := by
  unfold afterWhole at h
  unfold skipAfterWhole
  split at h
  · exact skipFraction_of_fraction h
  · exact skipExponent_of_exponent h
  · exact skipExponent_of_exponent h
  · obtain ⟨_, -, heq⟩ := map_eq_ok_iff.1 h
    cases heq
    rfl

theorem skipUnsigned_of_unsigned {negative : Bool} {s rest : List Char} {n : Number}
    (h : unsigned negative s = .ok (n, rest)) : skipUnsigned s = .ok rest := by
  unfold unsigned at h
  unfold skipUnsigned
  split at h
  · cases h
  · next c s =>
    split at h
    · next hzero =>
      rw [if_pos hzero]
      split at h
      · next d _ =>
        split at h
        · cases h
        · next hd =>
          rw [if_neg hd, skipAfterWhole_of_afterWhole h]
      · exact skipAfterWhole_of_afterWhole h
    · next hzero =>
      rw [if_neg hzero]
      split at h
      · next hc =>
        rw [if_pos hc]
        rw [List.span_eq_takeWhile_dropWhile] at h
        exact skipAfterWhole_of_afterWhole h
      · cases h

/-- What is read as a number is skipped as one, up to the same place. -/
theorem skipNumber_of_number {s rest : List Char} {n : Number} (h : number s = .ok (n, rest)) :
    skipNumber s = .ok rest := by
  unfold number at h
  unfold skipNumber
  split at h
  · exact skipUnsigned_of_unsigned h
  · exact skipUnsigned_of_unsigned h

end Lexeme
end Json
end GlyphLine

import GlyphLine.Proofs.Text.Decimal
import GlyphLine.Timestamp
import Mathlib.Data.List.TakeWhile

/-!
# Reading undoes writing on timestamps

The written form of a timestamp is cut into fields of fixed width, a fraction of at most
nine digits and an offset.  Each part is read back from in front of whatever follows it,
and the parts put together are the timestamp, which exists since it is one.

## Main statements

* `number?_digits`: fields of fixed width.
* `nanosecondsOf_fractionDigits`: the zeros that the writer drops at the end of a
  fraction are the ones that the reader supplies.
* `offset?_offsetChars`: offsets.
* `ofText?_text`: a whole timestamp.
-/

namespace GlyphLine
namespace Timestamp

open Calendar Text

/-! ## Fields of fixed width -/

@[simp] theorem length_digits (n value : Nat) : (digits n value).length = n := by
  induction n generalizing value with
  | zero => rfl
  | succ n ih => rw [digits, List.length_append, ih, List.length_singleton]

theorem isDigit_of_mem_digits {n value : Nat} {c : Char} (h : c ∈ digits n value) :
    c.isDigit = true := by
  induction n generalizing value with
  | zero => exact absurd h List.not_mem_nil
  | succ n ih =>
    rw [digits, List.mem_append, List.mem_singleton] at h
    rcases h with h | rfl
    · exact ih h
    · rw [Nat.isDigit_digitChar]
      exact decide_eq_true (Nat.mod_lt value (by omega))

theorem digitsValue_digits {n value : Nat} (h : value < 10 ^ n) :
    digitsValue (digits n value) = value := by
  induction n generalizing value with
  | zero =>
    rw [Nat.pow_zero] at h
    rw [digits, digitsValue_nil]
    omega
  | succ n ih =>
    have hdiv : value / 10 < 10 ^ n := by
      rw [Nat.pow_succ] at h
      exact Nat.div_lt_of_lt_mul (by omega)
    have hlast : digitsValue [Nat.digitChar (value % 10)] = value % 10 := by
      rw [← List.nil_append [_], digitsValue, List.foldl_append]
      show 0 * 10 + digitValue (Nat.digitChar (value % 10)) = value % 10
      rw [digitValue_digitChar (Nat.mod_lt value (by omega)), Nat.zero_mul, Nat.zero_add]
    rw [digits, digitsValue_append, ih hdiv, hlast, List.length_singleton]
    omega

/-- A field of fixed width is read back, whatever follows it. -/
theorem number?_digits {n value : Nat} (h : value < 10 ^ n) (rest : List Char) :
    number? n (digits n value ++ rest) = some (value, rest) := by
  have htake : (digits n value ++ rest).take n = digits n value :=
    List.take_left' (length_digits n value)
  have hdrop : (digits n value ++ rest).drop n = rest :=
    List.drop_left' (length_digits n value)
  have hall : (digits n value).all Char.isDigit = true :=
    List.all_eq_true.2 fun c hc => isDigit_of_mem_digits hc
  simp only [number?, htake, hdrop, length_digits, hall, digitsValue_digits h, decide_true,
    Bool.and_self, if_true]

@[simp] theorem after?_cons (c : Char) (rest : List Char) : after? c (c :: rest) = some rest :=
  if_pos rfl

/-! ## Fractions -/

/-- The digits of a fraction and the zeros that are dropped from it are the nine digits of
the nanoseconds. -/
theorem exists_digits_eq (nanosecond : Nat) :
    ∃ k, digits 9 nanosecond = fractionDigits nanosecond ++ List.replicate k '0' := by
  refine ⟨((digits 9 nanosecond).reverse.takeWhile (· == '0')).length, ?_⟩
  have hzeros : (digits 9 nanosecond).reverse.takeWhile (· == '0') =
      List.replicate ((digits 9 nanosecond).reverse.takeWhile (· == '0')).length '0' := by
    refine List.eq_replicate_iff.2 ⟨rfl, fun c hc => ?_⟩
    have hbeq : (c == '0') = true := List.mem_takeWhile_imp (p := (· == '0')) hc
    exact eq_of_beq hbeq
  rw [fractionDigits, ← List.reverse_replicate, ← hzeros, ← List.reverse_append,
    List.takeWhile_append_dropWhile, List.reverse_reverse]

theorem isDigit_of_mem_fractionDigits {nanosecond : Nat} {c : Char}
    (h : c ∈ fractionDigits nanosecond) : c.isDigit = true := by
  obtain ⟨k, hk⟩ := exists_digits_eq nanosecond
  have hmem : c ∈ digits 9 nanosecond := by
    rw [hk]
    exact List.mem_append_left _ h
  exact isDigit_of_mem_digits hmem

theorem nanosecondsOf_fractionDigits {nanosecond : Nat} (h : nanosecond < 1000000000) :
    nanosecondsOf (fractionDigits nanosecond) = nanosecond := by
  obtain ⟨k, hk⟩ := exists_digits_eq nanosecond
  have hlen : (fractionDigits nanosecond).length + k = 9 := by
    rw [← length_digits 9 nanosecond, hk, List.length_append, List.length_replicate]
  have htake : (fractionDigits nanosecond).take 9 = fractionDigits nanosecond :=
    List.take_of_length_le (by omega)
  have hzeros : 9 - (fractionDigits nanosecond).length = k := by omega
  simp only [nanosecondsOf, htake, hzeros]
  calc digitsValue (fractionDigits nanosecond) * 10 ^ k
      = digitsValue (fractionDigits nanosecond ++ List.replicate k '0') :=
        (digitsValue_append_zeros _ k).symm
    _ = digitsValue (digits 9 nanosecond) := by rw [hk]
    _ = nanosecond := digitsValue_digits (by omega)

/-- Only of no nanoseconds all digits are dropped. -/
theorem fractionDigits_ne_nil {nanosecond : Nat} (h : nanosecond < 1000000000)
    (hne : nanosecond ≠ 0) : fractionDigits nanosecond ≠ [] := by
  intro hnil
  refine hne ?_
  rw [← nanosecondsOf_fractionDigits h, hnil]
  rfl

/-- A fraction, or none, is read back in front of anything that begins neither with a digit
nor with a point. -/
theorem fraction?_fractionDigits {nanosecond : Nat} (h : nanosecond < 1000000000)
    {rest : List Char} (hd : ∀ c ∈ rest.head?, c.isDigit = false)
    (hp : ∀ c ∈ rest.head?, c ≠ '.') :
    fraction? ((if nanosecond = 0 then [] else '.' :: fractionDigits nanosecond) ++ rest) =
      some (nanosecond, rest) := by
  by_cases hzero : nanosecond = 0
  · rw [if_pos hzero, List.nil_append, hzero]
    cases rest with
    | nil => rfl
    | cons c rest =>
      have hc : c ≠ '.' := hp c rfl
      unfold fraction?
      split
      · next heq => exact absurd (List.cons.inj heq).1 hc
      · rfl
  · rw [if_neg hzero, List.cons_append, fraction?,
      span_isDigit (fun c hc => isDigit_of_mem_fractionDigits hc) hd]
    show (if (fractionDigits nanosecond).isEmpty then none
      else some (nanosecondsOf (fractionDigits nanosecond), rest)) = some (nanosecond, rest)
    rw [if_neg (by simpa using fractionDigits_ne_nil h hzero),
      nanosecondsOf_fractionDigits h]

/-! ## Offsets -/

/-- An offset begins with its sign or its letter. -/
theorem head?_offsetChars {offset : Int} {c : Char} (h : c ∈ (offsetChars offset).head?) :
    c = 'Z' ∨ c = '-' ∨ c = '+' := by
  rw [offsetChars] at h
  split at h
  · exact .inl (Option.some.inj h).symm
  · have hc : (if offset < 0 then '-' else '+') = c := Option.some.inj h
    split at hc
    · exact .inr (.inl hc.symm)
    · exact .inr (.inr hc.symm)

/-- An offset is read from its sign, its hours and its minutes. -/
theorem offset?_cons {sign : Char} {cs ds : List Char} {hours minutes : Nat}
    (hsign : sign = '+' ∨ sign = '-') (hhours : number? 2 cs = some (hours, ':' :: ds))
    (hminutes : number? 2 ds = some (minutes, [])) (hh : hours < 24) (hm : minutes < 60) :
    offset? (sign :: cs) =
      some (if sign = '-' then -((hours : Int) * 60 + minutes) else hours * 60 + minutes) := by
  have hbound : (([] : List Char).isEmpty && decide (hours < 24) && decide (minutes < 60)) =
      true := by
    rw [decide_eq_true hh, decide_eq_true hm]
    rfl
  have hread : (sign = '+' || sign = '-') = true := by
    rcases hsign with rfl | rfl <;> rfl
  rw [offset?, if_pos hread, hhours]
  · show (number? 2 ds >>= fun p => if p.2.isEmpty && hours < 24 && p.1 < 60 then
      some (if sign = '-' then -((hours : Int) * 60 + p.1) else hours * 60 + p.1)
      else none) = _
    rw [hminutes]
    exact if_pos hbound
  all_goals
    -- the offset without minutes is a single letter, and no sign
    rintro rfl -
    revert hsign
    decide

theorem offset?_offsetChars {offset : Int} (h : isOffset offset = true) :
    offset? (offsetChars offset) = some offset := by
  have hlt : offset.natAbs < 24 * 60 := of_decide_eq_true h
  by_cases hzero : offset = 0
  · rw [offsetChars, if_pos hzero, hzero]
    rfl
  · have hhours : number? 2 (digits 2 (offset.natAbs / 60) ++ ':' ::
        digits 2 (offset.natAbs % 60)) =
        some (offset.natAbs / 60, ':' :: digits 2 (offset.natAbs % 60)) :=
      number?_digits (by omega) _
    have hminutes : number? 2 (digits 2 (offset.natAbs % 60)) =
        some (offset.natAbs % 60, []) := by
      rw [← List.append_nil (digits 2 (offset.natAbs % 60))]
      exact number?_digits (by omega) []
    have hh : offset.natAbs / 60 < 24 := by omega
    have hm : offset.natAbs % 60 < 60 := by omega
    rw [offsetChars, if_neg hzero]
    by_cases hneg : offset < 0
    · rw [if_pos hneg]
      have hread := offset?_cons (.inr rfl) hhours hminutes hh hm
      rw [List.cons_append, hread, if_pos rfl]
      congr 1
      omega
    · rw [if_neg hneg]
      have hread := offset?_cons (.inl rfl) hhours hminutes hh hm
      rw [List.cons_append, hread, if_neg (by decide)]
      congr 1
      omega

/-! ## Timestamps -/

theorem of?_self (t : Timestamp) :
    of? t.year t.month t.day t.hour t.minute t.second t.nanosecond t.offset = some t :=
  dif_pos ⟨t.exists_date, t.exists_time, t.exists_offset⟩

/-- The ranges of the parts of a date. -/
theorem date_bounds (t : Timestamp) : t.year < 10 ^ 4 ∧ t.month < 10 ^ 2 ∧ t.day < 10 ^ 2 := by
  have h := t.exists_date
  have hdays : daysIn t.year t.month ≤ 31 := by
    unfold daysIn
    split
    case h_1 => split <;> omega
    all_goals omega
  simp only [isDate, Bool.and_eq_true, decide_eq_true_eq] at h
  omega

/-- The ranges of the parts of a time of day. -/
theorem time_bounds (t : Timestamp) :
    t.hour < 10 ^ 2 ∧ t.minute < 10 ^ 2 ∧ t.second < 60 ∧ t.nanosecond < 1000000000 := by
  have h := t.exists_time
  simp only [isTime, Bool.and_eq_true, decide_eq_true_eq] at h
  omega

/-- A timestamp is read back from its written form. -/
theorem ofText?_text (t : Timestamp) : ofText? t.text = some t := by
  obtain ⟨hyear, hmonth, hday⟩ := t.date_bounds
  obtain ⟨hhour, hminute, hsecond, hnano⟩ := t.time_bounds
  have hdigit : ∀ c ∈ (offsetChars t.offset).head?, c.isDigit = false := by
    intro c hc
    rcases head?_offsetChars hc with rfl | rfl | rfl <;> rfl
  have hpoint : ∀ c ∈ (offsetChars t.offset).head?, c ≠ '.' := by
    intro c hc
    rcases head?_offsetChars hc with rfl | rfl | rfl <;> decide
  have hsep (rest : List Char) : afterSeparator? ('T' :: rest) = some rest := rfl
  have hsecs : t.second < 10 ^ 2 := by omega
  have hsixty : t.second ≠ 60 := by omega
  rw [ofText?, text, String.toList_ofList]
  simp only [chars, ofChars?, date?, time?, List.append_assoc, List.cons_append,
    number?_digits hyear, number?_digits hmonth, number?_digits hday, number?_digits hhour,
    number?_digits hminute, number?_digits hsecs,
    after?_cons, hsep, fraction?_fractionDigits hnano hdigit hpoint,
    offset?_offsetChars t.exists_offset, Option.bind_eq_bind, Option.bind_some, if_neg hsixty,
    of?_self]

end Timestamp
end GlyphLine

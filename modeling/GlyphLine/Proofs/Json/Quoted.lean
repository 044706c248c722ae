import GlyphLine.Proofs.Json.Accepted
import GlyphLine.Proofs.Json.Syntax

/-!
# Strings, read and skipped

A written string is read, from behind its opening quote on, as the text that it means; if it
means none, that is a fault, and which one does not depend on what follows.  It is skipped in
either case: skipping looks at the digits of a code unit, and not at what the unit stands for.

Conversely, what is read or skipped as a string is a written string.

## Main statements

* `string_quoted`, `skipString_quoted`: a written string is read and skipped.
* `exists_quoted_of_string`, `exists_quoted_of_skipString`: what is read or skipped is one.
-/

namespace GlyphLine
namespace Json
namespace Lexeme

/-! ## Code units -/

theorem isSome_hexDigit?_iff {c : Char} : (hexDigit? c).isSome = true ↔ IsHexDigit c := by
  unfold hexDigit? IsHexDigit
  split
  · next h => simp [h]
  · next h =>
    split
    · next h' => simpa [h] using Or.inl (by simpa using h')
    · next h' =>
      split
      · next h'' => simpa [h] using Or.inr (by simpa using h'')
      · next h'' => simpa [h] using ⟨by simpa using h', by simpa using h''⟩

/-- A digit has a value. -/
theorem hexDigit?_of_isHexDigit {c : Char} (h : IsHexDigit c) :
    hexDigit? c = some ((hexDigit? c).getD 0) := by
  obtain ⟨n, hn⟩ := Option.isSome_iff_exists.1 (isSome_hexDigit?_iff.2 h)
  rw [hn]
  rfl

theorem codeUnit_unit (u : CodeUnit) (rest : List Char) :
    codeUnit (u.a :: u.b :: u.c :: u.d :: rest) = .ok (u.value, rest) := by
  obtain ⟨a, b, c, d, ha, hb, hc, hd⟩ := u
  have hall : [a, b, c, d].mapM hexDigit? = some [(hexDigit? a).getD 0, (hexDigit? b).getD 0,
      (hexDigit? c).getD 0, (hexDigit? d).getD 0] := by
    rw [List.mapM_cons, List.mapM_cons, List.mapM_cons, List.mapM_cons, List.mapM_nil,
      hexDigit?_of_isHexDigit ha, hexDigit?_of_isHexDigit hb, hexDigit?_of_isHexDigit hc,
      hexDigit?_of_isHexDigit hd]
    rfl
  have htake : (a :: b :: c :: d :: rest).take 4 = [a, b, c, d] := rfl
  rw [codeUnit, htake, hall]
  rfl

/-- As many values as there are characters are read, and the characters are digits. -/
theorem length_of_mapM_hexDigit? {cs : List Char} {ns : List Nat}
    (h : cs.mapM hexDigit? = some ns) : cs.length = ns.length ∧ ∀ c ∈ cs, IsHexDigit c := by
  induction cs generalizing ns with
  | nil =>
    rw [List.mapM_nil] at h
    obtain rfl : [] = ns := Option.some.inj h
    exact ⟨rfl, fun c hc => absurd hc List.not_mem_nil⟩
  | cons c cs ih =>
    rw [List.mapM_cons, Option.bind_eq_bind, Option.bind_eq_some_iff] at h
    obtain ⟨n, hn, h⟩ := h
    rw [Option.bind_eq_bind, Option.bind_eq_some_iff] at h
    obtain ⟨ms, hms, h⟩ := h
    obtain rfl : n :: ms = ns := Option.some.inj h
    obtain ⟨hlen, hall⟩ := ih hms
    refine ⟨congrArg (· + 1) hlen, fun d hd => ?_⟩
    rcases List.mem_cons.1 hd with rfl | hd
    · exact isSome_hexDigit?_iff.1 (by rw [hn]; rfl)
    · exact hall d hd

/-- A code unit is read from four digits. -/
theorem exists_unit {s rest : List Char} {n : Nat} (h : codeUnit s = .ok (n, rest)) :
    ∃ u : CodeUnit, s = u.a :: u.b :: u.c :: u.d :: rest := by
  unfold codeUnit at h
  split at h
  · next w x y z hdigits =>
    obtain ⟨hlen, hall⟩ := length_of_mapM_hexDigit? hdigits
    obtain rfl : s.drop 4 = rest := (Prod.mk.inj (Except.ok.inj h)).2
    match s, hlen, hall with
    | a :: b :: c :: d :: s, _, hall =>
      exact ⟨⟨a, b, c, d, hall a (by simp), hall b (by simp), hall c (by simp), hall d (by simp)⟩,
        rfl⟩
  · split at h
    · cases h
    · cases h

/-! ## Written strings -/

/-- Behind a backslash stand just the letters that stand for a character. -/
theorem mem_shortEscapes_iff {c : Char} : c ∈ shortEscapes ↔ (shortEscape? c).isSome = true := by
  unfold shortEscape?
  split
  all_goals simp_all [shortEscapes]

theorem ne_u_of_mem_shortEscapes {c : Char} (h : c ∈ shortEscapes) : c ≠ 'u' := by
  rintro rfl
  exact absurd h (by decide)

/-- A short escape is read as its character. -/
theorem escaped_short {c : Char} (h : c ∈ shortEscapes) (rest : List Char) :
    escaped (c :: rest) = .ok ((shortEscape? c).getD c, rest) := by
  obtain ⟨d, hd⟩ := Option.isSome_iff_exists.1 (mem_shortEscapes_iff.1 h)
  unfold escaped
  split
  · next heq => exact absurd heq (List.cons_ne_nil _ _)
  · next heq => exact absurd (List.cons.inj heq).1 (ne_u_of_mem_shortEscapes h)
  · next heq =>
    obtain ⟨rfl, rfl⟩ := List.cons.inj heq
    rw [hd]
    rfl

/-- What a code unit is read as depends on whether it is the first or the second one of two. -/
theorem escaped_unit (u : CodeUnit) (rest : List Char) :
    escaped ('u' :: u.a :: u.b :: u.c :: u.d :: rest) =
      if isTrailing u.value then .error .loneSurrogate
      else if isLeading u.value then
        (trailingUnit rest).map fun m => (Quoted.pair u.value m.1, m.2)
      else .ok (Char.ofNat u.value, rest) := by
  rw [escaped, escapedUnits, codeUnit_unit]
  rfl

theorem trailingUnit_unit (v : CodeUnit) (rest : List Char) :
    trailingUnit ((Piece.unit v).chars ++ rest) =
      if isTrailing v.value then .ok (v.value, rest) else .error .loneSurrogate := by
  show trailingUnit ('\\' :: 'u' :: v.a :: v.b :: v.c :: v.d :: rest) = _
  rw [trailingUnit, codeUnit_unit]

/-- Where no code unit stands, there is no second one of two. -/
theorem trailingUnit_pieces {ps : List Piece} (h : ∀ u qs, ps = .unit u :: qs → False)
    (rest : List Char) :
    trailingUnit (ps.flatMap Piece.chars ++ '\"' :: rest) = .error .endOfEscape := by
  match ps with
  | [] => rfl
  | .unit u :: qs => exact (h u qs rfl).elim
  | .short c hc :: qs =>
    show trailingUnit ('\\' :: c :: (qs.flatMap Piece.chars ++ '\"' :: rest)) = _
    unfold trailingUnit
    split
    · next heq => exact absurd heq (List.cons_ne_nil _ _)
    · next heq => exact absurd (List.cons.inj heq).2 (List.cons_ne_nil _ _)
    · next heq =>
      exact absurd (List.cons.inj (List.cons.inj heq).2).1 (ne_u_of_mem_shortEscapes hc)
    · rfl
  | .plain c hc :: qs =>
    show trailingUnit (c :: (qs.flatMap Piece.chars ++ '\"' :: rest)) = _
    unfold trailingUnit
    split
    · next heq => exact absurd heq (List.cons_ne_nil _ _)
    · next heq => exact absurd (List.cons.inj heq).1 hc.2.1
    · next heq => exact absurd (List.cons.inj heq).1 hc.2.1
    · rfl

theorem stringSteps_unit_ok {steps : Nat} {done s rest : List Char} {u : CodeUnit} {d : Char}
    (h : escaped ('u' :: u.a :: u.b :: u.c :: u.d :: s) = .ok (d, rest)) :
    stringSteps (steps + 1) done ((Piece.unit u).chars ++ s) =
      stringSteps steps (d :: done) rest := by
  show stringSteps (steps + 1) done ('\\' :: 'u' :: u.a :: u.b :: u.c :: u.d :: s) = _
  rw [stringSteps, if_neg (by decide), if_pos rfl, h]

theorem stringSteps_unit_error {steps : Nat} {done s : List Char} {u : CodeUnit} {f : Fault}
    (h : escaped ('u' :: u.a :: u.b :: u.c :: u.d :: s) = .error f) :
    stringSteps (steps + 1) done ((Piece.unit u).chars ++ s) = .error f := by
  show stringSteps (steps + 1) done ('\\' :: 'u' :: u.a :: u.b :: u.c :: u.d :: s) = _
  rw [stringSteps, if_neg (by decide), if_pos rfl, h]

/-- A character that has been read is the first of those that are meant. -/
theorem map_reverse_cons (m : Except Fault (List Char)) (c : Char) (done rest : List Char) :
    (m.map fun cs => ((c :: done).reverse ++ cs, rest)) =
      (m.map (c :: ·)).map fun cs => (done.reverse ++ cs, rest) := by
  cases m with
  | error f => rfl
  | ok cs =>
    show Except.ok ((c :: done).reverse ++ cs, rest) = .ok (done.reverse ++ c :: cs, rest)
    rw [List.reverse_cons, List.append_assoc, List.singleton_append]

theorem length_flatMap_pieces (p : Piece) (ps : List Piece) {steps : Nat}
    (h : ((p :: ps).flatMap Piece.chars).length ≤ steps) :
    ∃ k, steps = k + 1 ∧ (ps.flatMap Piece.chars).length ≤ k := by
  have hp : 0 < p.chars.length := by
    cases p with
    | plain c hc => exact Nat.zero_lt_one
    | short c hc => exact Nat.zero_lt_two
    | unit u => exact Nat.zero_lt_succ 5
  rw [List.flatMap_cons, List.length_append] at h
  exact ⟨steps - 1, by omega, by omega⟩

/-- The pieces of a string are read as the characters that they mean. -/
theorem stringSteps_pieces {ps : List Piece} {steps : Nat}
    (h : (ps.flatMap Piece.chars).length ≤ steps) (done rest : List Char) :
    stringSteps (steps + 1) done (ps.flatMap Piece.chars ++ '\"' :: rest) =
      (Quoted.meaning ps).map fun cs => (done.reverse ++ cs, rest) := by
  -- by the cases of `Quoted.meaning`: the fourth to the seventh have two code units in a row
  induction ps using Quoted.meaning.induct generalizing steps done with
  | case1 =>
    show stringSteps (steps + 1) done ('\"' :: rest) = .ok (done.reverse ++ [], rest)
    rw [stringSteps, if_pos rfl, List.append_nil]
  | case2 c hc ps ih =>
    obtain ⟨steps, rfl, hps⟩ := length_flatMap_pieces _ ps h
    rw [Quoted.meaning, ← map_reverse_cons, ← ih hps]
    show stringSteps (steps + 2) done (c :: (ps.flatMap Piece.chars ++ '\"' :: rest)) = _
    rw [stringSteps, if_neg hc.1, if_neg hc.2.1, if_neg (by rw [hc.2.2]; exact Bool.false_ne_true)]
  | case3 c hc ps ih =>
    obtain ⟨steps, rfl, hps⟩ := length_flatMap_pieces _ ps h
    rw [Quoted.meaning, ← map_reverse_cons, ← ih hps]
    show stringSteps (steps + 2) done ('\\' :: c :: (ps.flatMap Piece.chars ++ '\"' :: rest)) = _
    rw [stringSteps, if_neg (by decide), if_pos rfl, escaped_short hc]
  | case4 u v ps htrail =>
    rw [Quoted.meaning, if_pos htrail, List.flatMap_cons, List.append_assoc]
    exact stringSteps_unit_error (by rw [escaped_unit, if_pos htrail])
  | case5 u v ps htrail hlead hv ih =>
    obtain ⟨steps, rfl, hsecond⟩ := length_flatMap_pieces _ _ h
    obtain ⟨steps, rfl, hps⟩ := length_flatMap_pieces _ ps hsecond
    rw [Quoted.meaning, if_neg htrail, if_pos hlead, if_pos hv, ← map_reverse_cons,
      ← ih (Nat.le_succ_of_le hps), List.flatMap_cons, List.append_assoc]
    refine stringSteps_unit_ok ?_
    rw [escaped_unit, if_neg htrail, if_pos hlead, List.flatMap_cons, List.append_assoc,
      trailingUnit_unit, if_pos hv]
    rfl
  | case6 u v ps htrail hlead hv =>
    rw [Quoted.meaning, if_neg htrail, if_pos hlead, if_neg hv, List.flatMap_cons,
      List.append_assoc]
    refine stringSteps_unit_error ?_
    rw [escaped_unit, if_neg htrail, if_pos hlead, List.flatMap_cons, List.append_assoc,
      trailingUnit_unit, if_neg hv]
    rfl
  | case7 u v ps htrail hlead ih =>
    obtain ⟨steps, rfl, hps⟩ := length_flatMap_pieces _ _ h
    rw [Quoted.meaning, if_neg htrail, if_neg hlead, ← map_reverse_cons, ← ih hps,
      List.flatMap_cons, List.append_assoc]
    exact stringSteps_unit_ok (by rw [escaped_unit, if_neg htrail, if_neg hlead])
  | case8 u ps hne htrail =>
    rw [Quoted.meaning, if_pos htrail, List.flatMap_cons, List.append_assoc]
    · exact stringSteps_unit_error (by rw [escaped_unit, if_pos htrail])
    · exact hne
  | case9 u ps hne htrail hlead =>
    rw [Quoted.meaning, if_neg htrail, if_pos hlead, List.flatMap_cons, List.append_assoc]
    · refine stringSteps_unit_error ?_
      rw [escaped_unit, if_neg htrail, if_pos hlead, trailingUnit_pieces hne]
      rfl
    · exact hne
  | case10 u ps hne htrail hlead ih =>
    obtain ⟨steps, rfl, hps⟩ := length_flatMap_pieces _ _ h
    rw [Quoted.meaning, if_neg htrail, if_neg hlead, ← map_reverse_cons, ← ih hps,
      List.flatMap_cons, List.append_assoc]
    · exact stringSteps_unit_ok (by rw [escaped_unit, if_neg htrail, if_neg hlead])
    · exact hne

/-- A written string is read from behind its opening quote on. -/
theorem string_quoted {q : Quoted} {budget : Nat} (h : q.inner.length < budget)
    (rest : List Char) :
    Lexeme.string budget (q.inner ++ '\"' :: rest) = q.text.map fun t => (t, rest) := by
  obtain ⟨budget, rfl⟩ := Nat.exists_eq_add_of_le' (Nat.zero_lt_of_lt h)
  rw [Lexeme.string, Quoted.inner, stringSteps_pieces (Nat.le_of_lt_succ h), Quoted.text]
  cases Quoted.meaning q.pieces with
  | error f => rfl
  | ok cs => rfl

/-! ## Written strings, skipped -/

theorem skipEscape_unit (u : CodeUnit) (rest : List Char) :
    skipEscape ('u' :: u.a :: u.b :: u.c :: u.d :: rest) = .ok rest := by
  rw [skipEscape, codeUnit_unit]
  rfl

theorem skipEscape_short {c : Char} (h : c ∈ shortEscapes) (rest : List Char) :
    skipEscape (c :: rest) = .ok rest := by
  unfold skipEscape
  split
  · next heq => exact absurd heq (List.cons_ne_nil _ _)
  · next heq => exact absurd (List.cons.inj heq).1 (ne_u_of_mem_shortEscapes h)
  · next heq =>
    obtain ⟨rfl, rfl⟩ := List.cons.inj heq
    rw [if_pos (mem_shortEscapes_iff.1 h)]

/-- Each piece is skipped in one step. -/
theorem skipString_piece (budget : Nat) (p : Piece) (s : List Char) :
    skipString (budget + 1) (p.chars ++ s) = skipString budget s := by
  cases p with
  | plain c hc =>
    show skipString (budget + 1) (c :: s) = _
    rw [skipString, if_neg hc.1, if_neg hc.2.1, if_neg (by rw [hc.2.2]; exact Bool.false_ne_true)]
  | short c hc =>
    show skipString (budget + 1) ('\\' :: c :: s) = _
    rw [skipString, if_neg (by decide), if_pos rfl, skipEscape_short hc]
  | unit u =>
    show skipString (budget + 1) ('\\' :: 'u' :: u.a :: u.b :: u.c :: u.d :: s) = _
    rw [skipString, if_neg (by decide), if_pos rfl, skipEscape_unit]

/-- A written string is skipped, whatever it means. -/
theorem skipString_quoted {q : Quoted} {budget : Nat} (h : q.inner.length < budget)
    (rest : List Char) : skipString budget (q.inner ++ '\"' :: rest) = .ok rest := by
  obtain ⟨budget, rfl⟩ := Nat.exists_eq_add_of_le' (Nat.zero_lt_of_lt h)
  obtain ⟨ps⟩ := q
  have hle : (ps.flatMap Piece.chars).length ≤ budget := Nat.le_of_lt_succ h
  clear h
  show skipString (budget + 1) (ps.flatMap Piece.chars ++ '\"' :: rest) = _
  induction ps generalizing budget with
  | nil =>
    show skipString (budget + 1) ('\"' :: rest) = _
    rw [skipString, if_pos rfl]
  | cons p ps ih =>
    obtain ⟨budget, rfl, hps⟩ := length_flatMap_pieces p ps hle
    rw [List.flatMap_cons, List.append_assoc, skipString_piece, ih budget hps]

/-! ## What is read or skipped is a string -/

theorem exists_piece_of_skipEscape {s rest : List Char} (h : skipEscape s = .ok rest) :
    ∃ p : Piece, '\\' :: s = p.chars ++ rest := by
  unfold skipEscape at h
  split at h
  · cases h
  · obtain ⟨⟨n, _⟩, hn, rfl⟩ := map_eq_ok_iff.1 h
    obtain ⟨u, rfl⟩ := exists_unit hn
    exact ⟨.unit u, rfl⟩
  · next c s _ =>
    split at h
    · next hc =>
      cases h
      exact ⟨.short c (mem_shortEscapes_iff.2 hc), rfl⟩
    · cases h

theorem exists_piece_of_trailingUnit {s rest : List Char} {n : Nat}
    (h : trailingUnit s = .ok (n, rest)) : ∃ p : Piece, s = p.chars ++ rest := by
  unfold trailingUnit at h
  split at h
  · cases h
  · cases h
  · split at h
    · next hunit =>
      split at h
      · cases h
        obtain ⟨u, rfl⟩ := exists_unit hunit
        exact ⟨.unit u, rfl⟩
      · cases h
    · cases h
  · cases h

/-- An escape that is read is one piece or, if two code units stand for the character, two. -/
theorem exists_pieces_of_escaped {s rest : List Char} {c : Char}
    (h : escaped s = .ok (c, rest)) :
    ∃ ps : List Piece, '\\' :: s = ps.flatMap Piece.chars ++ rest := by
  unfold escaped at h
  split at h
  · cases h
  · unfold escapedUnits at h
    split at h
    · cases h
    · next hunit =>
      obtain ⟨u, rfl⟩ := exists_unit hunit
      split at h
      · cases h
      · split at h
        · obtain ⟨⟨m, _⟩, hm, heq⟩ := map_eq_ok_iff.1 h
          obtain rfl := (Prod.mk.inj heq).2
          obtain ⟨p, rfl⟩ := exists_piece_of_trailingUnit hm
          refine ⟨[.unit u, p], ?_⟩
          rw [List.flatMap_cons, List.flatMap_singleton, List.append_assoc]
          rfl
        · cases h
          refine ⟨[.unit u], ?_⟩
          rw [List.flatMap_singleton]
          rfl
  · next c s _ =>
    split at h
    · next hc =>
      cases h
      refine ⟨[.short c (mem_shortEscapes_iff.2 (by rw [hc]; rfl))], ?_⟩
      rw [List.flatMap_singleton]
      rfl
    · cases h

theorem inner_append (ps qs : List Piece) :
    Quoted.inner ⟨ps ++ qs⟩ = ps.flatMap Piece.chars ++ Quoted.inner ⟨qs⟩ :=
  List.flatMap_append

/-- What is read as a string is one. -/
theorem exists_quoted_of_string {budget : Nat} {s rest : List Char} {t : String}
    (h : Lexeme.string budget s = .ok (t, rest)) : ∃ q : Quoted, s = q.inner ++ '\"' :: rest := by
  obtain ⟨⟨cs, _⟩, hcs, heq⟩ := map_eq_ok_iff.1 h
  cases heq
  clear h
  generalize ([] : List Char) = done at hcs
  induction budget generalizing s done with
  | zero => cases hcs
  | succ budget ih =>
    cases s with
    | nil => cases hcs
    | cons c s =>
      rw [stringSteps] at hcs
      split at hcs
      · next hc =>
        cases hcs
        exact ⟨⟨[]⟩, congrArg (· :: rest) hc⟩
      split at hcs
      · next hc =>
        split at hcs
        · next hesc =>
          obtain ⟨ps, hps⟩ := exists_pieces_of_escaped hesc
          obtain ⟨⟨qs⟩, rfl⟩ := ih _ hcs
          refine ⟨⟨ps ++ qs⟩, ?_⟩
          rw [hc, hps, inner_append, List.append_assoc]
        · cases hcs
      · next hslash =>
        split at hcs
        · cases hcs
        · next hcontrol =>
          obtain ⟨⟨qs⟩, rfl⟩ := ih _ hcs
          have hc : c ≠ '\"' ∧ c ≠ '\\' ∧ isControl c = false :=
            ⟨by assumption, hslash, by simpa using hcontrol⟩
          exact ⟨⟨.plain c hc :: qs⟩, rfl⟩

/-- What is skipped as a string is one. -/
theorem exists_quoted_of_skipString {budget : Nat} {s rest : List Char}
    (h : skipString budget s = .ok rest) : ∃ q : Quoted, s = q.inner ++ '\"' :: rest := by
  induction budget generalizing s with
  | zero => cases h
  | succ budget ih =>
    cases s with
    | nil => cases h
    | cons c s =>
      rw [skipString] at h
      split at h
      · next hc =>
        cases h
        exact ⟨⟨[]⟩, congrArg (· :: rest) hc⟩
      · next hquote =>
        split at h
        · next hc =>
          split at h
          · next hesc =>
            obtain ⟨p, hp⟩ := exists_piece_of_skipEscape hesc
            obtain ⟨⟨qs⟩, rfl⟩ := ih h
            refine ⟨⟨[p] ++ qs⟩, ?_⟩
            rw [hc, hp, inner_append, List.flatMap_singleton, List.append_assoc]
          · cases h
        · next hslash =>
          split at h
          · cases h
          · next hcontrol =>
            obtain ⟨⟨qs⟩, rfl⟩ := ih h
            exact ⟨⟨.plain c ⟨hquote, hslash, by simpa using hcontrol⟩ :: qs⟩, rfl⟩

end Lexeme
end Json
end GlyphLine

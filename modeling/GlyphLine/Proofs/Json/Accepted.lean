import GlyphLine.Proofs.ByName
import GlyphLine.Proofs.Json.RoundTrip

/-!
# What reading a text gives

Whatever text a value has been read from, its whole numbers fit into sixty-four bits, its
lists and objects are nested no deeper than the reader counts, and the members of its
objects are in order.

A loop of the reader keeps what each of its rounds keeps; this is stated once for the
items of a list and once for the members of an object.

## Main definitions

* `Accepted`: the values that come out of the reader.

## Main statements

* `accepted_of_value`: what the reader gives at a depth.
* `accepted_of_parse`: what a whole text gives.
-/

namespace GlyphLine

/-- A number as a reader gives it: a whole number that fits into sixty-four bits, or any
double. -/
def Number.Readable : Number → Prop
  | .whole n => Width.fits 64 n = true
  | .double _ => True

namespace Json

open Lexeme

/-! ## Numbers -/

namespace Lexeme

theorem value_whole_le {s : Significand} (h : s.value ≤ wordLimit) (c : Char) :
    (s.whole c).value ≤ wordLimit := by
  rw [Significand.whole]
  split
  · next ht =>
    rw [Significand.takes, Bool.and_eq_true] at ht
    exact of_decide_eq_true ht.2
  · exact h

/-- However many digits there are, the whole number that is kept of them fits. -/
theorem value_ofWhole_le (digits : List Char) : (Significand.ofWhole digits).value ≤ wordLimit := by
  suffices h : ∀ s : Significand, s.value ≤ wordLimit →
      (digits.foldl Significand.whole s).value ≤ wordLimit from h _ (Nat.zero_le _)
  induction digits with
  | nil => exact fun s hs => hs
  | cons c digits ih => exact fun s hs => ih _ (value_whole_le hs c)

theorem readable_of_ofWhole {negative : Bool} {s : Significand} (hs : s.value ≤ wordLimit)
    {n : Number} (h : ofWhole negative s = .ok n) : n.Readable := by
  have hlimit : (wordLimit : Int) = Width.size 64 - 1 := by decide
  rw [ofWhole] at h
  split at h
  · obtain ⟨d, -, rfl⟩ := map_eq_ok_iff.1 h
    trivial
  split at h
  · split at h
    · cases h
      trivial
    · next hbig =>
      cases h
      show Width.fits 64 (-(s.value : Int)) = true
      have hle : s.value ≤ Width.size 63 := by
        simp only [Bool.or_eq_true, decide_eq_true_eq, not_or, Nat.not_lt] at hbig
        exact hbig.2
      have hsigned : Width.isSigned 64 (-(s.value : Int)) = true := by
        have hpos : 0 < Width.size 63 := by decide
        have hhalf : Width.size (64 - 1) = Width.size 63 := rfl
        simp only [Width.isSigned, Bool.and_eq_true, decide_eq_true_eq]
        omega
      rw [Width.fits, hsigned, Bool.true_or]
  · cases h
    show Width.fits 64 (s.value : Int) = true
    have hunsigned : Width.isUnsigned 64 (s.value : Int) = true := by
      simp only [Width.isUnsigned, Bool.and_eq_true, decide_eq_true_eq]
      omega
    rw [Width.fits, hunsigned, Bool.or_true]

/-- An exponent makes a double. -/
theorem readable_of_exponent {negative : Bool} {sig : Significand} {s rest : List Char}
    {n : Number} (h : exponent negative sig s = .ok (n, rest)) : n.Readable := by
  rw [exponent] at h
  dsimp only at h
  split at h
  · cases h
  · cases h
  · obtain ⟨d, -, hd⟩ := map_eq_ok_iff.1 h
    cases hd
    trivial

/-- A fraction makes a double. -/
theorem readable_of_fraction {negative : Bool} {sig : Significand} {s rest : List Char}
    {n : Number} (h : fraction negative sig s = .ok (n, rest)) : n.Readable := by
  rw [fraction] at h
  dsimp only at h
  split at h
  · cases h
  · cases h
  · exact readable_of_exponent h
  · exact readable_of_exponent h
  · obtain ⟨d, -, hd⟩ := map_eq_ok_iff.1 h
    cases hd
    trivial

theorem readable_of_afterWhole {negative : Bool} {sig : Significand}
    (hsig : sig.value ≤ wordLimit) {s rest : List Char} {n : Number}
    (h : afterWhole negative sig s = .ok (n, rest)) : n.Readable := by
  unfold afterWhole at h
  split at h
  · exact readable_of_fraction h
  · exact readable_of_exponent h
  · exact readable_of_exponent h
  · obtain ⟨m, hm, heq⟩ := map_eq_ok_iff.1 h
    cases heq
    exact readable_of_ofWhole hsig hm

theorem readable_of_unsigned {negative : Bool} {s rest : List Char} {n : Number}
    (h : unsigned negative s = .ok (n, rest)) : n.Readable := by
  unfold unsigned at h
  split at h
  · cases h
  split at h
  · split at h
    · split at h
      · cases h
      · exact readable_of_afterWhole (value_ofWhole_le _) h
    · exact readable_of_afterWhole (value_ofWhole_le _) h
  split at h
  · exact readable_of_afterWhole (value_ofWhole_le _) h
  · cases h

theorem readable_of_number {s rest : List Char} {n : Number}
    (h : number s = .ok (n, rest)) : n.Readable := by
  unfold number at h
  split at h
  · exact readable_of_unsigned h
  · exact readable_of_unsigned h

end Lexeme

/-! ## Loops -/

/-- If every item that is read has a property, all items of a list have it. -/
theorem forall_mem_of_items {α : Type} {P : α → Prop} {read : List Char → Read α}
    (hread : ∀ s a rest, read s = .ok (a, rest) → P a) {rounds : Nat} {first : Bool}
    {done : List α} {s : List Char} {as : List α} {rest : List Char}
    (h : items read rounds first done s = .ok (as, rest)) (hdone : ∀ a ∈ done, P a) :
    ∀ a ∈ as, P a := by
  induction rounds generalizing first done s with
  | zero => cases h
  | succ rounds ih =>
    rw [items] at h
    split at h
    · cases h
    · cases h
      exact fun a ha => hdone a (List.mem_reverse.1 ha)
    · split at h
      · cases h
      · next a _ ha =>
        refine ih h fun b hb => ?_
        rcases List.mem_cons.1 hb with rfl | hb
        · exact hread _ _ _ ha
        · exact hdone b hb

/-- What every member keeps, the whole object keeps. -/
theorem invariant_of_members {σ : Type} {I : σ → Prop} {size : Nat}
    {step : σ → String → List Char → Read σ}
    (hstep : ∀ state key s state' rest, I state → step state key s = .ok (state', rest) → I state')
    {rounds : Nat} {first : Bool} {state : σ} {s : List Char} {state' : σ} {rest : List Char}
    (h : members size step rounds first state s = .ok (state', rest)) (hstate : I state) :
    I state' := by
  induction rounds generalizing first state s with
  | zero => cases h
  | succ rounds ih =>
    rw [members] at h
    split at h
    · cases h
    · cases h
      exact hstate
    · split at h
      · cases h
      · split at h
        · cases h
        · next hs => exact ih h (hstep _ _ _ _ _ hstate hs)

/-! ## Values -/

/-- The values that come out of the reader. -/
structure Accepted (depth : Nat) (v : Json) : Prop where
  nested : Nested depth v
  readable : EachNumber Number.Readable v
  ordered : Ordered v

theorem accepted_array {depth : Nat} {vs : List Json} (h : ∀ v ∈ vs, Accepted depth v) :
    Accepted (depth + 1) (.array vs) :=
  ⟨.array fun v hv => (h v hv).nested, .array fun v hv => (h v hv).readable,
    .array fun v hv => (h v hv).ordered⟩

theorem accepted_object {depth : Nat} {ms : List (String × Json)} (hi : Increasing ms)
    (h : ∀ m ∈ ms, Accepted depth m.2) : Accepted (depth + 1) (.object ms) :=
  ⟨.object fun m hm => (h m hm).nested, .object fun m hm => (h m hm).readable,
    .object hi fun m hm => (h m hm).ordered⟩

theorem Accepted.of_array {depth : Nat} {vs : List Json} (h : Accepted (depth + 1) (.array vs)) :
    ∀ v ∈ vs, Accepted depth v := by
  obtain ⟨hn, hr, ho⟩ := h
  cases hn with
  | array hn =>
    cases ho with
    | array ho => exact fun v hv => ⟨hn v hv, hr.of_array v hv, ho v hv⟩

theorem Accepted.of_object {depth : Nat} {ms : List (String × Json)}
    (h : Accepted (depth + 1) (.object ms)) : ∀ m ∈ ms, Accepted depth m.2 := by
  obtain ⟨hn, hr, ho⟩ := h
  cases hn with
  | object hn =>
    cases ho with
    | object _ ho => exact fun m hm => ⟨hn m hm, hr.of_object m hm, ho m hm⟩

/-- Whatever the reader gives is accepted, at the depth at which it was read. -/
theorem accepted_of_value {size depth : Nat} {s : List Char} {v : Json} {rest : List Char}
    (h : value size depth s = .ok (v, rest)) : Accepted depth v := by
  induction depth using Nat.strongRecOn generalizing s v rest with
  | ind depth ih =>
    rw [value] at h
    split at h
    · cases h
    · obtain ⟨_, -, heq⟩ := map_eq_ok_iff.1 h
      cases heq
      exact ⟨.null, .null, .null⟩
    · obtain ⟨_, -, heq⟩ := map_eq_ok_iff.1 h
      cases heq
      exact ⟨.bool, .bool, .bool⟩
    · obtain ⟨_, -, heq⟩ := map_eq_ok_iff.1 h
      cases heq
      exact ⟨.bool, .bool, .bool⟩
    · obtain ⟨_, -, heq⟩ := map_eq_ok_iff.1 h
      cases heq
      exact ⟨.string, .string, .string⟩
    · -- the items have been read one level further in
      split at h
      · cases h
      · next depth =>
        obtain ⟨⟨vs, _⟩, hvs, heq⟩ := map_eq_ok_iff.1 h
        cases heq
        refine accepted_array (forall_mem_of_items (fun s a rest ha => ?_) hvs (by simp))
        exact ih depth (Nat.lt_succ_self depth) ha
    · -- each member is put among those before it, which stay in order
      split at h
      · cases h
      · next depth =>
        dsimp only at h
        obtain ⟨⟨ms, _⟩, hms, heq⟩ := map_eq_ok_iff.1 h
        cases heq
        have hinv : Increasing ms ∧ ∀ m ∈ ms, Accepted depth m.2 := by
          refine invariant_of_members (I := fun ms => Increasing ms ∧
            ∀ m ∈ ms, Accepted depth m.2) ?_ hms ⟨List.Pairwise.nil, by simp⟩
          rintro done key s state' rest ⟨hi, hdone⟩ hstep
          split at hstep
          · cases hstep
          · obtain ⟨⟨w, _⟩, hw, heq⟩ := map_eq_ok_iff.1 hstep
            cases heq
            refine ⟨increasing_putEntry key w hi, fun m hm => ?_⟩
            rcases mem_putEntry hm with rfl | hm
            · exact ih depth (Nat.lt_succ_self depth) hw
            · exact hdone m hm
        exact accepted_object hinv.1 hinv.2
    · split at h
      · obtain ⟨⟨n, _⟩, hn, heq⟩ := map_eq_ok_iff.1 h
        cases heq
        exact ⟨.number, .number (readable_of_number hn), .number⟩
      · cases h

/-- The value of a text is accepted. -/
theorem accepted_of_parse {text : String} {v : Json} (h : parse text = .ok v) :
    Accepted maxDepth v := by
  unfold parse Reader.run at h
  dsimp only at h
  split at h
  · cases h
  · next hv =>
    split at h
    · cases h
      exact accepted_of_value hv
    · cases h

end Json
end GlyphLine

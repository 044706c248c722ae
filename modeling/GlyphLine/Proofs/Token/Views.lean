import GlyphLine.Proofs.Text.ByteOrder
import GlyphLine.Proofs.Token.Queries

/-!
# The two views of a token set

A token set shows its tokens in their order, and the distinct ones in increasing order.  Rules ask
for first values in the one view and for the presence of tokens and beginnings in the other, and
take for granted that both are about the same tokens.

They are.  Which tokens there are is the same in both views, and all queries but that for a first
value ask for nothing else; a first value is one of the values, and there is one as soon as some
token has the beginning.  Values are in increasing order like the tokens they come from, since
texts with a common beginning are ordered as their rests are; they are put in order all the same.

* `valuesWith_ne_nil_iff`, `isSome_firstValue_iff`: when there are values.
* `valuesWith_eq`: cutting off the beginning keeps the tokens in order.
* `views_coherent`: **both views, and the queries on them, are about the same tokens**.
-/

namespace GlyphLine

/-- Texts with a common beginning are ordered as their rests are. -/
theorem append_lt_append_left_iff {start v w : String} : start ++ v < start ++ w ↔ v < w := by
  have hlt {v w : String} (h : v < w) : start ++ v < start ++ w := by
    rw [String.lt_iff, String.toList_append, String.toList_append]
    exact List.append_left_lt (String.lt_iff.mp h)
  refine ⟨fun h => ?_, hlt⟩
  rcases Std.lt_trichotomy v w with hvw | rfl | hwv
  · exact hvw
  · exact absurd h (String.lt_irrefl _)
  · exact absurd h (String.lt_asymm (hlt hwv))

/-- Strictly increasing texts are so by their bytes, too. -/
theorem pairwise_encode_lt {ss : List String} (h : ss.Pairwise (· < ·)) :
    ss.Pairwise fun s t => Text.encode s < Text.encode t :=
  h.imp fun hst => Text.encode_lt_encode_iff.mpr hst

namespace TokenSet

variable {t : TokenSet}

/-! ## Beginnings -/

/-- There are values if a token has the beginning. -/
theorem valuesWith_ne_nil_iff {start : String} :
    t.valuesWith start ≠ [] ↔ t.hasStart start = true := by
  rw [hasStart_iff]
  constructor
  · intro h
    obtain ⟨v, hv⟩ := List.exists_mem_of_ne_nil _ h
    exact ⟨v, mem_valuesWith.mp hv⟩
  · rintro ⟨v, hv⟩
    exact List.ne_nil_of_mem (mem_valuesWith.mpr hv)

/-- There is a first value if a token has the beginning. -/
theorem isSome_firstValue_iff {start : String} :
    (t.firstValue start).isSome = true ↔ t.hasStart start = true := by
  rw [Option.isSome_iff_ne_none, Ne, firstValue_eq_none_iff, hasStart_iff, not_forall]
  exact exists_congr fun v => Decidable.not_not

/-- A first value is one of the values. -/
theorem firstValue_mem_valuesWith {start v : String} (h : t.firstValue start = some v) :
    v ∈ t.valuesWith start :=
  mem_valuesWith.mpr (mem_of_firstValue h)

/-- The values of a kind come from the tokens in increasing order, so putting them in order
changes nothing. -/
theorem valuesWith_eq (start : String) :
    t.valuesWith start = t.unique.filterMap (Text.after? start) := by
  refine eq_of_pairwise_lt (pairwise_lt_distinct _) ?_ fun v => mem_distinct
  refine List.Pairwise.filterMap _ (fun u u' hlt v hv v' hv' => ?_) t.pairwise_lt_unique
  rw [Text.after?_eq_some_iff] at hv hv'
  subst hv hv'
  exact append_lt_append_left_iff.mp hlt

/-! ## Both views -/

/-- **Both views of a token set, and the queries on them, are about the same tokens.**  The
distinct tokens are strictly increasing by their bytes, and are the tokens in order.  There is a
first value of a kind if and only if a token is of this kind, and if and only if there are values
of this kind; the first one is one of them, they are what follows the beginning in some token, and
strictly increasing by their bytes, in the order of their tokens.  A base is there bare or as a
beginning with a colon.  The pressure is the greatest one that is declared. -/
theorem views_coherent (ss : List String) :
    let t : TokenSet := ⟨ss⟩
    (t.unique.Pairwise fun u v => Text.encode u < Text.encode v) ∧
    (∀ u, (u ∈ t.unique ↔ u ∈ ss) ∧ (t.contains u = true ↔ u ∈ t.unique)) ∧
    (∀ start,
      ((t.firstValue start).isSome = true ↔ t.hasStart start = true) ∧
      (t.hasStart start = true ↔ ∃ v, start ++ v ∈ ss) ∧
      (t.hasStart start = true ↔ ∃ u ∈ t.unique, Text.startsWith start u = true) ∧
      (t.hasStart start = true ↔ t.valuesWith start ≠ []) ∧
      (∀ v, t.firstValue start = some v → v ∈ t.valuesWith start) ∧
      (∀ v, v ∈ t.valuesWith start ↔ start ++ v ∈ ss) ∧
      t.valuesWith start = t.unique.filterMap (Text.after? start) ∧
      (t.valuesWith start).Pairwise fun v w => Text.encode v < Text.encode w) ∧
    (∀ base, t.hasBase base = true ↔ base ∈ ss ∨ t.hasStart (base ++ ":") = true) ∧
    (∀ p, t.pressure = some p ↔ p.token ∈ ss ∧ ∀ q : Pressure, q.token ∈ ss → q ≤ p) ∧
    (t.pressure = none ↔ ∀ p : Pressure, p.token ∉ ss) := by
  intro t
  refine ⟨pairwise_encode_lt t.pairwise_lt_unique, fun u => ⟨mem_unique, ?_⟩, fun start => ?_,
    fun base => hasBase_iff, fun p => pressure_eq_some_iff, pressure_eq_none_iff⟩
  · rw [contains_iff, mem_unique]
  · refine ⟨isSome_firstValue_iff, hasStart_iff, ?_, valuesWith_ne_nil_iff.symm,
      fun v => firstValue_mem_valuesWith, fun v => mem_valuesWith, valuesWith_eq start,
      pairwise_encode_lt (pairwise_lt_distinct _)⟩
    rw [hasStart, List.any_eq_true]

end TokenSet
end GlyphLine

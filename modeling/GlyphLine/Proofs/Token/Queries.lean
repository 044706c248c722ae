import GlyphLine.Proofs.ByName
import GlyphLine.Token.Set
import Mathlib.Data.List.Basic

/-!
# What the queries on a token set say

Every query on the tokens of a text is a statement about which strings are among them,
and these are the same in both views of a token set (`mem_unique`).  Most queries do not
look at the order of the tokens at all; `firstValue` is the only one that does, and only
when it is asked for more than whether there is a value.

* `after?_eq_some_iff`, `startsWith_iff`: beginnings of a string.
* `mem_distinct`, `pairwise_lt_distinct`, `distinct_congr`: the distinct strings of a
  list are fixed by which strings it has.
* `firstValue_eq_some_iff`, `firstValue_eq_none_iff`: the first value of a kind.
* `pressure_eq_some_iff`, `readyTier_eq_some_iff`: the levels in effect.
-/

namespace GlyphLine

namespace Text

/-- What follows a beginning is the rest of the string. -/
theorem after?_eq_some_iff {start s v : String} : after? start s = some v ↔ s = start ++ v := by
  rw [after?, Option.map_eq_some_iff]
  constructor
  · rintro ⟨r, hr, rfl⟩
    apply String.toList_inj.mp
    rw [← List.isPrefixOf?_eq_some_iff_append_eq.mp hr, String.toList_append,
      String.toList_ofList]
  · rintro rfl
    exact ⟨v.toList, List.isPrefixOf?_eq_some_iff_append_eq.mpr (String.toList_append ..).symm,
      String.ofList_toList⟩

theorem after?_eq_none_iff {start s : String} : after? start s = none ↔ ∀ v, s ≠ start ++ v := by
  rw [Option.eq_none_iff_forall_ne_some]
  exact forall_congr' fun v => not_congr after?_eq_some_iff

theorem startsWith_iff {start s : String} : startsWith start s = true ↔ ∃ v, s = start ++ v := by
  rw [startsWith, List.isPrefixOf_iff_prefix]
  constructor
  · rintro ⟨r, hr⟩
    refine ⟨String.ofList r, String.toList_inj.mp ?_⟩
    rw [String.toList_append, String.toList_ofList, hr]
  · rintro ⟨v, rfl⟩
    rw [String.toList_append]
    exact List.prefix_append ..

end Text

/-! ## Distinct strings -/

theorem mem_distinct {s : String} {ss : List String} : s ∈ distinct ss ↔ s ∈ ss := by
  rw [distinct, ByName.mem_names_ofList, List.map_map, List.mem_map]
  exact exists_eq_right

theorem pairwise_lt_distinct (ss : List String) : (distinct ss).Pairwise (· < ·) :=
  ByName.pairwise_lt_names _

/-- Strictly increasing lists with the same strings are equal. -/
theorem eq_of_pairwise_lt {ss ts : List String} (hs : ss.Pairwise (· < ·))
    (ht : ts.Pairwise (· < ·)) (h : ∀ s, s ∈ ss ↔ s ∈ ts) : ss = ts := by
  have hperm : ss.Perm ts :=
    (List.perm_ext_iff_of_nodup (hs.imp String.ne_of_lt) (ht.imp String.ne_of_lt)).mpr h
  exact hperm.eq_of_pairwise (fun a b _ _ hab hba => absurd hba (String.lt_asymm hab)) hs ht

/-- The distinct strings of a list do not depend on order and repetitions in it. -/
theorem distinct_congr {ss ts : List String} (h : ∀ s, s ∈ ss ↔ s ∈ ts) :
    distinct ss = distinct ts :=
  eq_of_pairwise_lt (pairwise_lt_distinct ss) (pairwise_lt_distinct ts) fun s => by
    rw [mem_distinct, mem_distinct, h]

namespace TokenSet

variable {t : TokenSet}

/-! ## Both views -/

theorem mem_unique {u : String} : u ∈ t.unique ↔ u ∈ t.ordered := mem_distinct

/-- The tokens as a set stand in increasing order, none of them twice. -/
theorem pairwise_lt_unique (t : TokenSet) : t.unique.Pairwise (· < ·) :=
  pairwise_lt_distinct t.ordered

/-! ## Queries that ask which tokens there are -/

theorem contains_iff {token : String} : t.contains token = true ↔ token ∈ t.ordered := by
  rw [contains, List.contains_iff_mem, mem_unique]

theorem isEmpty_iff : t.isEmpty = true ↔ t.ordered = [] := List.isEmpty_iff

theorem hasStart_iff {start : String} :
    t.hasStart start = true ↔ ∃ v, start ++ v ∈ t.ordered := by
  rw [hasStart, List.any_eq_true]
  constructor
  · rintro ⟨u, hu, hs⟩
    obtain ⟨v, rfl⟩ := Text.startsWith_iff.mp hs
    exact ⟨v, mem_unique.mp hu⟩
  · rintro ⟨v, hv⟩
    exact ⟨start ++ v, mem_unique.mpr hv, Text.startsWith_iff.mpr ⟨v, rfl⟩⟩

/-- A token with a value behind a colon is one that begins with the base and the colon. -/
theorem hasBase_iff {base : String} :
    t.hasBase base = true ↔ base ∈ t.ordered ∨ t.hasStart (base ++ ":") = true := by
  have hvalue (u : String) : (Text.after? base u).any (Text.startsWith ":") = true ↔
      Text.startsWith (base ++ ":") u = true := by
    rw [Option.any_eq_true, Text.startsWith_iff]
    simp only [Text.after?_eq_some_iff, Text.startsWith_iff]
    constructor
    · rintro ⟨_, rfl, v, rfl⟩
      exact ⟨v, String.append_assoc.symm⟩
    · rintro ⟨v, rfl⟩
      exact ⟨":" ++ v, String.append_assoc, v, rfl⟩
  rw [hasBase, Bool.or_eq_true, contains_iff, hasStart, List.any_eq_true, List.any_eq_true]
  exact or_congr_right (exists_congr fun u => and_congr_right fun _ => hvalue u)

theorem mem_valuesWith {start v : String} :
    v ∈ t.valuesWith start ↔ start ++ v ∈ t.ordered := by
  rw [valuesWith, mem_distinct, List.mem_filterMap]
  constructor
  · rintro ⟨u, hu, hv⟩
    rw [Text.after?_eq_some_iff] at hv
    exact hv ▸ mem_unique.mp hu
  · intro h
    exact ⟨start ++ v, mem_unique.mpr h, Text.after?_eq_some_iff.mpr rfl⟩

theorem mem_malformed {u : String} :
    u ∈ t.malformed ↔ u ∈ t.ordered ∧ Token.isWellFormed u = false := by
  rw [malformed, List.mem_filter, Bool.not_eq_true']

/-! ## First values -/

/-- The first value of a kind stands in a token before which no token is of this kind. -/
theorem firstValue_eq_some_iff {start v : String} :
    t.firstValue start = some v ↔
      ∃ before after, t.ordered = before ++ (start ++ v) :: after ∧
        ∀ u ∈ before, ∀ w, u ≠ start ++ w := by
  rw [firstValue, List.findSome?_eq_some_iff]
  constructor
  · rintro ⟨before, u, after, h, hu, hbefore⟩
    rw [Text.after?_eq_some_iff] at hu
    subst hu
    exact ⟨before, after, h, fun u hu => Text.after?_eq_none_iff.mp (hbefore u hu)⟩
  · rintro ⟨before, after, h, hbefore⟩
    exact ⟨before, start ++ v, after, h, Text.after?_eq_some_iff.mpr rfl,
      fun u hu => Text.after?_eq_none_iff.mpr (hbefore u hu)⟩

theorem firstValue_eq_none_iff {start : String} :
    t.firstValue start = none ↔ ∀ v, start ++ v ∉ t.ordered := by
  rw [firstValue, List.findSome?_eq_none_iff]
  constructor
  · intro h v hv
    exact Text.after?_eq_none_iff.mp (h _ hv) v rfl
  · intro h u hu
    exact Text.after?_eq_none_iff.mpr fun v hv => h v (hv ▸ hu)

/-- The token of a first value is there. -/
theorem mem_of_firstValue {start v : String} (h : t.firstValue start = some v) :
    start ++ v ∈ t.ordered := by
  obtain ⟨before, after, heq, -⟩ := firstValue_eq_some_iff.mp h
  rw [heq]
  exact List.mem_append_right before List.mem_cons_self

/-- A first value stays the first one when tokens are added at the end. -/
theorem firstValue_of_isPrefix {s : TokenSet} {start v : String} (h : s.ordered <+: t.ordered)
    (hv : s.firstValue start = some v) : t.firstValue start = some v :=
  h.findSome?_eq_some hv

/-! ## Levels in effect -/

theorem pairwise_descending : Pressure.descending.Pairwise (fun p q => q < p) := by decide

theorem mem_descending (p : Pressure) : p ∈ Pressure.descending := by cases p <;> decide

/-- The pressure in effect is the greatest one that is declared. -/
theorem pressure_eq_some_iff {p : Pressure} :
    t.pressure = some p ↔ p.token ∈ t.ordered ∧ ∀ q : Pressure, q.token ∈ t.ordered → q ≤ p := by
  rw [pressure, List.find?_eq_some_iff_append, contains_iff]
  refine and_congr_right fun hp => ⟨?_, fun hmax => ?_⟩
  · rintro ⟨before, after, heq, hbefore⟩ q hq
    have hq' : q ∈ before ++ p :: after := heq ▸ mem_descending q
    rcases List.mem_append.mp hq' with h | h
    · have hnot := hbefore q h
      rw [contains_iff.mpr hq] at hnot
      exact absurd hnot (by decide)
    · rcases List.mem_cons.mp h with rfl | h
      · exact Nat.le_refl _
      · have hpair := (heq ▸ pairwise_descending : (before ++ p :: after).Pairwise _)
        exact Nat.le_of_lt (List.rel_of_pairwise_cons (List.pairwise_append.mp hpair).2.1 h)
  · obtain ⟨before, after, heq⟩ := List.append_of_mem (mem_descending p)
    refine ⟨before, after, heq, fun q hq => ?_⟩
    have hpair := (heq ▸ pairwise_descending : (before ++ p :: after).Pairwise _)
    have hlt : p < q := (List.pairwise_append.mp hpair).2.2 q hq p List.mem_cons_self
    rw [Bool.not_eq_true', ← Bool.not_eq_true, contains_iff]
    exact fun h => Nat.not_le_of_lt hlt (hmax q h)

theorem pressure_eq_none_iff : t.pressure = none ↔ ∀ p : Pressure, p.token ∉ t.ordered := by
  rw [pressure, List.find?_eq_none]
  exact ⟨fun h p hp => h p (mem_descending p) (contains_iff.mpr hp),
    fun h p _ hp => h p (contains_iff.mp hp)⟩

/-- A freeze is in effect as soon as it is declared. -/
theorem pressure_eq_p3_iff : t.pressure = some .p3 ↔ "~P3" ∈ t.ordered := by
  rw [pressure_eq_some_iff]
  exact ⟨And.left, fun h => ⟨h, fun q _ => by cases q <;> decide⟩⟩

/-- The tier in effect is claimed, and no tier that comes before it is. -/
theorem readyTier_eq_some_iff {r : ReadyTier} :
    t.readyTier = some r ↔ r.token ∈ t.ordered ∧
      ∀ s ∈ ReadyTier.byPriority.takeWhile (· != r), s.token ∉ t.ordered := by
  simp only [readyTier, ReadyTier.byPriority, List.find?_cons, List.find?_nil, ← contains_iff]
  cases hc : t.contains ReadyTier.core.token <;> cases hu : t.contains ReadyTier.ui.token <;>
    cases hd : t.contains ReadyTier.demo.token <;> cases r <;> simp [hc, hu, hd]

/-- A token set has all four of its tokens, or the one that stands for them. -/
theorem rgcaAllPlus_iff :
    t.rgcaAllPlus = true ↔ "~RGCA+" ∈ t.ordered ∨ ∀ u ∈ rgcaTokens, u ∈ t.ordered := by
  rw [rgcaAllPlus, Bool.or_eq_true, contains_iff, List.all_eq_true]
  exact or_congr_right (forall₂_congr fun _ _ => contains_iff)

end TokenSet
end GlyphLine

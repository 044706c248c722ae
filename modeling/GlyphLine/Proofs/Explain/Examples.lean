import GlyphLine.Proofs.Explain.Registered
import GlyphLine.Proofs.Lint.Findings
import Mathlib.Data.Fintype.Defs
import Mathlib.Data.Option.Basic

/-!
# The examples of the explanations

The explanation of a code holds two texts, one with the violation and one without it.  An
example *illustrates* its code under a policy if the first text has a finding with the code
and the second has none.

## 1.  Which findings there are

A text has a finding with a code if and only if a clause with this code is violated
(`exists_finding_iff`).  Whether a clause is violated can be decided, because everything that
its condition asks for is among the tokens of the text or in the policy; so for one policy
the examples can be gone through.

## 2.  The policy of the examples

Fourteen of the fifteen codes are illustrated under one and the same policy, `examplePolicy`,
which has the loads, the probe and the veto signal that the examples name.

## 3.  The example that illustrates nothing

`~ICEMAP:ice-v0` is to show that a text may name the wrong policy.  But that name is looked
at only where the text has a load of the policy, and this text has no load at all.  Nor does
it hold anything else that a clause asks for, so no clause is violated, whatever the policy is
(`not_violated_of_claimless`).

* `Illustrates`: an example illustrates its code.
* `exists_illustrates_iff`: the codes that are illustrated under some policy.
-/

namespace GlyphLine

namespace Lint

variable {t : TokenSet} {p : Policy} {required : Bool}

/-! ## 1.  Which findings there are -/

/-! ### Clauses can be decided -/

section Decidable

variable (f : Facts) (p : Policy)

instance : Fintype Pressure where
  elems := Pressure.descending.toFinset
  complete q := List.mem_toFinset.mpr (TokenSet.mem_descending q)

instance (start : String) : Decidable (f.HasStart start) :=
  inferInstanceAs (Decidable (∃ u ∈ f.tokens, Text.startsWith start u = true))

instance (base : String) : Decidable (f.HasBase base) :=
  inferInstanceAs (Decidable (base ∈ f.tokens ∨ f.HasStart (base ++ ":")))

instance (q : Pressure) : Decidable (f.HasPressure q) :=
  inferInstanceAs (Decidable (q.token ∈ f.tokens ∧ ∀ r : Pressure, r.token ∈ f.tokens → r ≤ q))

instance (r : ReadyTier) : Decidable (f.HasTier r) :=
  match r with
  | .core => inferInstanceAs (Decidable ("~READY:core" ∈ f.tokens))
  | .ui => inferInstanceAs (Decidable ("~READY:ui" ∈ f.tokens ∧ "~READY:core" ∉ f.tokens))
  | .demo => inferInstanceAs (Decidable
      ("~READY:demo" ∈ f.tokens ∧ "~READY:core" ∉ f.tokens ∧ "~READY:ui" ∉ f.tokens))

instance : Decidable f.AllPlus :=
  inferInstanceAs (Decidable
    ("~RGCA+" ∈ f.tokens ∨ ∀ u ∈ ["~R+", "~G+", "~C+", "~A+"], u ∈ f.tokens))

/-- The load of a text and its class can be looked up. -/
theorem exists_hasLoad_iff {Q : String → LoadClass → Prop} :
    (∃ load ∈ f.load, ∃ c ∈ p.load? load, Q load c) ↔ ∃ load c, f.HasLoad p load c ∧ Q load c := by
  constructor
  · rintro ⟨load, hload, c, hc, hQ⟩
    exact ⟨load, c, ⟨hload, hc⟩, hQ⟩
  · rintro ⟨load, c, ⟨hload, hc⟩, hQ⟩
    exact ⟨load, hload, c, hc, hQ⟩

instance {Q : String → LoadClass → Prop} [∀ load c, Decidable (Q load c)] :
    Decidable (∃ load c, f.HasLoad p load c ∧ Q load c) :=
  decidable_of_iff _ (exists_hasLoad_iff f p)

instance (o : Official) (r : Requirement) : Decidable (Unmet f o r) :=
  match r with
  | .pass => inferInstanceAs (Decidable (o.pass = true ∧ "~PASS" ∉ f.tokens))
  | .env => inferInstanceAs (Decidable (o.env = true ∧ ¬ f.HasStart "~ENV:"))
  | .run => inferInstanceAs (Decidable (o.run = true ∧ f.run = none))
  | .runMustBe => decidable_of_iff (∃ want ∈ o.runMustBe, ∃ run ∈ f.run, run ≠ want) (by
      simp only [Unmet, Option.mem_def, exists_and_left])
  | .iceMustBe => inferInstanceAs (Decidable (o.iceMustBe = some "+" ∧ "~ICE+" ∉ f.tokens))
  | .rgcaAllPlus => inferInstanceAs (Decidable (o.rgcaAllPlus = true ∧ ¬ f.AllPlus))
  | .zdPlus => inferInstanceAs (Decidable (o.zdPlus = true ∧ "~ZD+" ∉ f.tokens))
  | .zdmPlus => inferInstanceAs (Decidable (o.zdmPlus = true ∧ "~ZDM+" ∉ f.tokens))
  | .thaletPlus => inferInstanceAs (Decidable (o.thaletPlus = true ∧ "~T+" ∉ f.tokens))
  | .readyTier => inferInstanceAs (Decidable (∃ tier ∈ o.readyTier, ¬ f.HasTier tier))
  | .bridgespecPlus => inferInstanceAs (Decidable (o.bridgespecPlus = true ∧ "~BS+" ∉ f.tokens))
  | .tbPlus => inferInstanceAs (Decidable (o.tbPlus = true ∧ "~TB+" ∉ f.tokens))

instance (k : Clause) : Decidable (Violated f p k) :=
  match k with
  | .charset => inferInstanceAs (Decidable (∃ u ∈ f.tokens, Token.isWellFormed u = false))
  | .freeze => inferInstanceAs (Decidable ("~PASS" ∈ f.tokens ∧ "~P3" ∈ f.tokens))
  | .iceFail => inferInstanceAs (Decidable ("~PASS" ∈ f.tokens ∧ "~ICE-" ∈ f.tokens))
  | .zdmMismatch => inferInstanceAs (Decidable ("~PASS" ∈ f.tokens ∧ "~ZDM-" ∈ f.tokens))
  | .evidence => inferInstanceAs (Decidable (f.HasStart "~READY:" ∧
      ((∃ b ∈ ["~COMMIT", "~HASH", "~JSON", "~ARCH", "~MANI"], ¬ f.HasBase b) ∨
        ∃ s ∈ ["~ENV:", "~RUN:", "~TRACE:", "~ICEMAP:"], ¬ f.HasStart s)))
  | .shot => inferInstanceAs (Decidable ("~READY:core" ∉ f.tokens ∧
      ("~READY:ui" ∈ f.tokens ∨ "~READY:demo" ∈ f.tokens) ∧ ¬ f.HasBase "~SHOT"))
  | .report => inferInstanceAs (Decidable ("~READY:demo" ∈ f.tokens ∧ "~READY:core" ∉ f.tokens ∧
      "~READY:ui" ∉ f.tokens ∧ ¬ f.HasBase "~REPORT"))
  | .unknownLoad => inferInstanceAs (Decidable (∃ load ∈ f.load, p.load? load = none))
  | .noPressure => inferInstanceAs (Decidable
      (∃ load c, f.HasLoad p load c ∧ ∀ q : Pressure, q.token ∉ f.tokens))
  | .lowPressure => decidable_of_iff
      (∃ load c, f.HasLoad p load c ∧ ∃ q, f.HasPressure q ∧ q < c.minPressure) (by
        simp only [Violated, exists_and_left])
  | .unnamed => inferInstanceAs (Decidable
      (∃ load c, f.HasLoad p load c ∧ load ∈ ["prod", "public", "pay"] ∧ f.named = none))
  | .misnamed => decidable_of_iff
      (∃ load c, f.HasLoad p load c ∧ ∃ id ∈ f.named, id ≠ p.id) (by
        simp only [Violated, Option.mem_def, exists_and_left])
  | .probes => inferInstanceAs (Decidable
      (∃ load c, f.HasLoad p load c ∧ ∃ name ∈ c.probes, "~PROBE:" ++ name ∉ f.tokens))
  | .veto => inferInstanceAs (Decidable (∃ load c, f.HasLoad p load c ∧ "~PASS" ∈ f.tokens ∧
      ∃ name ∈ c.vetoSignals, "~SIG:" ++ name ∈ f.tokens))
  | .unmet r => inferInstanceAs (Decidable ("~DEMO:official" ∈ f.tokens ∧ Unmet f p.official r))

end Decidable

end Lint

namespace Explain

open Lint

/-! ## 2.  The policy of the examples -/

/-- An example illustrates a code under a policy: the text before has a finding with the code
and the text after has none, whether or not adoption is required. -/
def Illustrates (p : Policy) (e : Explanation) (c : Code) : Prop :=
  ∀ required : Bool, (∃ g ∈ (lint e.before p required).findings, g.code = c.name) ∧
    ∀ g ∈ (lint e.after p required).findings, g.code ≠ c.name

/-- A text violates a clause with a given code. -/
def Shows (p : Policy) (text : String) (c : Code) : Prop :=
  ∃ k ∈ Clause.all, k.code = c ∧ Violated (Facts.of (.ofText text)) p k

instance (p : Policy) (text : String) (c : Code) : Decidable (Shows p text c) :=
  inferInstanceAs (Decidable (∃ k ∈ Clause.all, k.code = c ∧ Violated _ p k))

theorem illustrates_iff {p : Policy} {e : Explanation} {c : Code} :
    Illustrates p e c ↔ Shows p e.before c ∧ ¬ Shows p e.after c := by
  have hshows (text : String) (required : Bool) :
      (∃ g ∈ (lint text p required).findings, g.code = c.name) ↔ Shows p text c :=
    exists_finding_iff
  have hafter (required : Bool) :
      (∀ g ∈ (lint e.after p required).findings, g.code ≠ c.name) ↔ ¬ Shows p e.after c := by
    rw [← hshows e.after required, not_exists]
    exact forall_congr' fun g => not_and.symm
  have hboth (required : Bool) := and_congr (hshows e.before required) (hafter required)
  exact (forall_congr' hboth).trans (forall_const Bool)

/-- The policy that the examples are about. -/
def examplePolicy : Policy where
  id := "ice-v1"
  loads := .ofList [
    ("prod", { vetoSignals := ["oom"] }),
    ("staging", { minPressure := .p1, probes := ["latency"] })]
  official := { iceMustBe := some "+" }

theorem mem_all_codes (c : Code) : c ∈ Code.all := by cases c <;> decide

theorem exists_lookup?_name (c : Code) : ∃ e, lookup? c.name = some e :=
  Option.isSome_iff_exists.mp ((lookup?_isSome_iff c.name).mpr (.inr (name_mem_codeNames c)))

theorem lookup?_icemapMismatch : lookup? Code.icemapMismatch.name = some icemapMismatch := by rfl

theorem shows_examples : ∀ c ∈ Code.all, c ≠ .icemapMismatch → ∀ e ∈ lookup? c.name,
    Shows examplePolicy e.before c ∧ ¬ Shows examplePolicy e.after c := by
  decide +kernel

theorem illustrates_examplePolicy {c : Code} (hc : c ≠ .icemapMismatch) {e : Explanation}
    (he : lookup? c.name = some e) : Illustrates examplePolicy e c :=
  illustrates_iff.mpr (shows_examples c (mem_all_codes c) hc e he)

/-! ## 3.  The example that illustrates nothing -/

/-- Every clause asks for a malformed token, for a claim or for a load: a text with none of
them violates no clause, whatever else it says. -/
theorem not_violated_of_claimless {f : Facts} (p : Policy)
    (hformed : ∀ u ∈ f.tokens, Token.isWellFormed u = true)
    (hpass : "~PASS" ∉ f.tokens) (hofficial : "~DEMO:official" ∉ f.tokens)
    (hready : ¬ f.HasStart "~READY:") (hload : f.load = none) (k : Clause) :
    ¬ Violated f p k := by
  have htier : ∀ u ∈ f.tokens, Text.startsWith "~READY:" u = false :=
    fun u hu => Bool.eq_false_iff.mpr fun hstart => hready ⟨u, hu, hstart⟩
  have hclass : ∀ {load c}, ¬ f.HasLoad p load c :=
    fun h => Option.some_ne_none _ (h.1.symm.trans hload)
  cases k with
  | charset =>
    rintro ⟨u, hu, hbad⟩
    rw [hformed u hu] at hbad
    cases hbad
  | freeze | iceFail | zdmMismatch => exact fun h => hpass h.1
  | evidence => exact fun h => hready h.1
  | shot =>
    rintro ⟨-, hui | hdemo, -⟩
    · exact absurd (htier _ hui) (by decide)
    · exact absurd (htier _ hdemo) (by decide)
  | report => exact fun h => absurd (htier _ h.1) (by decide)
  | unknownLoad =>
    rintro ⟨load, hsome, -⟩
    exact Option.some_ne_none load (hsome.symm.trans hload)
  | noPressure | unnamed | probes | veto =>
    rintro ⟨_, _, h, -⟩
    exact hclass h
  | lowPressure | misnamed =>
    rintro ⟨_, _, _, h, -⟩
    exact hclass h
  | unmet r => exact fun h => hofficial h.1

/-- The one token of the example for a name that does not match. -/
def namingTokens : TokenSet := ⟨["~ICEMAP:ice-v0"]⟩

theorem ofText_icemapMismatch_before : TokenSet.ofText icemapMismatch.before = namingTokens := by
  decide +kernel

theorem not_violated_namingTokens (p : Policy) (k : Clause) :
    ¬ Violated (Facts.of namingTokens) p k :=
  not_violated_of_claimless p (by decide +kernel) (by decide +kernel) (by decide +kernel)
    (by decide +kernel) (by decide) k

theorem findings_icemapMismatch_before (p : Policy) (required : Bool) :
    (lint icemapMismatch.before p required).findings = [] := by
  rw [lint, ofText_icemapMismatch_before]
  exact findings_eq_nil_of_not_violated (not_violated_namingTokens p)

theorem not_illustrates_icemapMismatch (p : Policy) :
    ¬ Illustrates p icemapMismatch .icemapMismatch := by
  intro h
  obtain ⟨g, hg, -⟩ := (h false).1
  rw [findings_icemapMismatch_before] at hg
  exact List.not_mem_nil hg

/-- Every code but one is illustrated by the example of its explanation under some policy, and
one policy does for all of them.  The example for the one code has no finding under any
policy. -/
theorem exists_illustrates_iff (c : Code) :
    ∃ e, lookup? c.name = some e ∧
      ((∃ p, Illustrates p e c) ↔ c ≠ .icemapMismatch) ∧
      (Illustrates examplePolicy e c ↔ c ≠ .icemapMismatch) ∧
      ((∀ p required, (lint e.before p required).findings = []) ↔ c = .icemapMismatch) := by
  obtain ⟨e, he⟩ := exists_lookup?_name c
  refine ⟨e, he, ?_⟩
  by_cases hc : c = .icemapMismatch
  · subst hc
    obtain rfl := Option.some_inj.mp (he.symm.trans lookup?_icemapMismatch)
    have hno : ∀ p, ¬ Illustrates p icemapMismatch .icemapMismatch :=
      not_illustrates_icemapMismatch
    exact ⟨iff_of_false (not_exists.mpr hno) (not_not_intro rfl),
      iff_of_false (hno _) (not_not_intro rfl), iff_of_true findings_icemapMismatch_before rfl⟩
  · have hshown := illustrates_examplePolicy hc he
    refine ⟨iff_of_true ⟨_, hshown⟩ hc, iff_of_true hshown hc, iff_of_false (fun hnone => ?_) hc⟩
    obtain ⟨g, hg, -⟩ := (hshown false).1
    rw [hnone] at hg
    exact List.not_mem_nil hg

/-- Not every example illustrates its code. -/
theorem not_forall_illustrates :
    ¬ ∀ c : Code, ∃ e, lookup? c.name = some e ∧ ∃ p, Illustrates p e c := by
  intro h
  obtain ⟨e, he, p, hp⟩ := h .icemapMismatch
  obtain rfl := Option.some_inj.mp (he.symm.trans lookup?_icemapMismatch)
  exact not_illustrates_icemapMismatch p hp

end Explain
end GlyphLine

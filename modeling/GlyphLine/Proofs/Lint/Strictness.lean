import GlyphLine.Proofs.Lint.Findings

/-!
# A stricter policy forgives nothing

A policy is tightened by raising the least pressure of a load, by asking for more probes or
forbidding more signals, and by requiring more of an official claim.  Which loads there are
and what the policy is called stays the same.  Then every clause that a text violates under
the looser policy it violates under the stricter one.

The details of a report may change: a pressure that is too low is told with the higher
minimum.  So findings are compared by their identifiers.

* `LoadClass.TightenedBy`, `Official.TightenedBy`, `Policy.TightenedBy`: stricter policies.
* `violated_of_tightenedBy`: the clauses, one after the other.
* `tightening_keeps_findings`: the findings and the verdict.
-/

namespace GlyphLine

/-! ## Stricter policies -/

/-- A load class asks for no less pressure, for all the probes, and forbids all the signals
of another one. -/
structure LoadClass.TightenedBy (c d : LoadClass) : Prop where
  minPressure : c.minPressure ≤ d.minPressure
  probes : c.probes ⊆ d.probes
  vetoSignals : c.vetoSignals ⊆ d.vetoSignals

/-- The requirements of an official claim that are only on or off. -/
def Official.flags : List (Official → Bool) :=
  [Official.pass, Official.env, Official.run, Official.rgcaAllPlus, Official.zdPlus,
    Official.zdmPlus, Official.thaletPlus, Official.bridgespecPlus, Official.tbPlus]

/-- Whatever is required of an official claim stays required, with the same value. -/
structure Official.TightenedBy (o w : Official) : Prop where
  flags : ∀ flag ∈ Official.flags, flag o = true → flag w = true
  runMustBe : o.runMustBe = none ∨ o.runMustBe = w.runMustBe
  iceMustBe : o.iceMustBe = some "+" → w.iceMustBe = some "+"
  readyTier : o.readyTier = none ∨ o.readyTier = w.readyTier

/-- A policy of the same name and with the same loads, of which each is tightened, as are
the requirements of an official claim. -/
structure Policy.TightenedBy (p q : Policy) : Prop where
  id : p.id = q.id
  names : p.loads.names = q.loads.names
  loads : ∀ {name c d}, p.load? name = some c → q.load? name = some d → c.TightenedBy d
  official : p.official.TightenedBy q.official

namespace Lint

variable {f : Facts} {p q : Policy} {t : TokenSet}

/-! ## Clauses -/

section

variable (h : p.TightenedBy q)
include h

theorem isSome_load?_of_tightenedBy (name : String) :
    (p.load? name).isSome = (q.load? name).isSome := by
  rw [Bool.eq_iff_iff, Policy.load?, ByName.find?_isSome_iff, h.names, Policy.load?,
    ByName.find?_isSome_iff]

theorem load?_eq_none_of_tightenedBy {name : String} (hname : p.load? name = none) :
    q.load? name = none := by
  rw [← Option.not_isSome_iff_eq_none, ← isSome_load?_of_tightenedBy h, hname]
  exact Bool.false_ne_true

theorem hasLoad_of_tightenedBy {load : String} {c : LoadClass} (hload : f.HasLoad p load c) :
    ∃ d, f.HasLoad q load d ∧ c.TightenedBy d := by
  have hsome : (q.load? load).isSome = true := by
    rw [← isSome_load?_of_tightenedBy h, hload.2]
    rfl
  obtain ⟨d, hd⟩ := Option.isSome_iff_exists.mp hsome
  exact ⟨d, ⟨hload.1, hd⟩, h.loads hload.2 hd⟩

end

/-- A requirement that is not met is asked for in the same words, and not met. -/
theorem unmet_of_tightenedBy {o w : Official} (h : o.TightenedBy w) {r : Requirement}
    (hunmet : Unmet f o r) : Unmet f w r := by
  have hflag : ∀ {flag : Official → Bool}, flag ∈ Official.flags → flag o = true →
      flag w = true := fun {flag} hmem => h.flags flag hmem
  cases r with
  | runMustBe =>
    obtain ⟨want, run, hwant, hrun⟩ := hunmet
    have hsame := h.runMustBe.resolve_left (by simp [hwant])
    exact ⟨want, run, hsame ▸ hwant, hrun⟩
  | iceMustBe => exact ⟨h.iceMustBe hunmet.1, hunmet.2⟩
  | readyTier =>
    obtain ⟨tier, htier, hnot⟩ := hunmet
    have hsame := h.readyTier.resolve_left (by simp [htier])
    exact ⟨tier, hsame ▸ htier, hnot⟩
  | _ => exact ⟨hflag (by simp [Official.flags]) hunmet.1, hunmet.2⟩

/-- What a policy finds wrong is wrong under a stricter policy. -/
theorem violated_of_tightenedBy (h : p.TightenedBy q) {c : Clause} (hc : Violated f p c) :
    Violated f q c := by
  cases c with
  | unknownLoad =>
    obtain ⟨load, hload, hnone⟩ := hc
    exact ⟨load, hload, load?_eq_none_of_tightenedBy h hnone⟩
  | noPressure =>
    obtain ⟨load, c, hload, hno⟩ := hc
    obtain ⟨d, hload', -⟩ := hasLoad_of_tightenedBy h hload
    exact ⟨load, d, hload', hno⟩
  | lowPressure =>
    obtain ⟨load, c, r, hload, hr, hlow⟩ := hc
    obtain ⟨d, hload', hcd⟩ := hasLoad_of_tightenedBy h hload
    exact ⟨load, d, r, hload', hr, Nat.lt_of_lt_of_le hlow hcd.minPressure⟩
  | unnamed =>
    obtain ⟨load, c, hload, hrest⟩ := hc
    obtain ⟨d, hload', -⟩ := hasLoad_of_tightenedBy h hload
    exact ⟨load, d, hload', hrest⟩
  | misnamed =>
    obtain ⟨load, c, id, hload, hid, hne⟩ := hc
    obtain ⟨d, hload', -⟩ := hasLoad_of_tightenedBy h hload
    exact ⟨load, d, id, hload', hid, h.id ▸ hne⟩
  | probes =>
    obtain ⟨load, c, hload, name, hname, hno⟩ := hc
    obtain ⟨d, hload', hcd⟩ := hasLoad_of_tightenedBy h hload
    exact ⟨load, d, hload', name, hcd.probes hname, hno⟩
  | veto =>
    obtain ⟨load, c, hload, hpass, name, hname, hsignal⟩ := hc
    obtain ⟨d, hload', hcd⟩ := hasLoad_of_tightenedBy h hload
    exact ⟨load, d, hload', hpass, name, hcd.vetoSignals hname, hsignal⟩
  | unmet r => exact ⟨hc.1, unmet_of_tightenedBy h.official hc.2⟩
  | _ => exact hc

/-! ## Findings -/

/-- The violated clauses of a policy, with repetitions, are among those of a stricter one. -/
theorem map_clause_sublist (h : p.TightenedBy q) :
    ((violations t p).map Violation.clause).Sublist ((violations t q).map Violation.clause) := by
  rw [violations_eq, violations_eq, List.map_append, List.map_append]
  refine (List.Sublist.refl _).append
    (sublist_of_map_sublist (f := id) nodup_clauses ?_ ?_ fun c hc => ?_)
  · rw [List.map_id]
    exact clauses_sublist
  · rw [List.map_id]
    exact clauses_sublist
  · obtain ⟨hviolated, hne⟩ := mem_map_clause_iff.mp hc
    exact mem_map_clause_iff.mpr ⟨violated_of_tightenedBy h hviolated, hne⟩

/-- Whatever is reported under a policy is reported under a stricter one, by findings of the
same check, code and requirement and in the same order.  A text is unadopted under both or
under none of them, and passes under the looser one if it passes under the stricter one. -/
theorem tightening_keeps_findings (h : p.TightenedBy q) (text : String) (required : Bool) :
    let loose := lint text p required
    let strict := lint text q required
    (loose.findings.map Finding.identifiers).Sublist
        (strict.findings.map Finding.identifiers) ∧
      (loose.verdict = .noAdoption ↔ strict.verdict = .noAdoption) ∧
      (strict.verdict = .pass → loose.verdict = .pass) := by
  intro loose strict
  refine ⟨?_, ?_, fun hpass => ?_⟩
  · rw [show loose.findings.map _ = _ from map_identifiers .., show strict.findings.map _ = _ from
      map_identifiers ..]
    exact (map_clause_sublist h).map _
  · exact verdict_eq_noAdoption_iff.trans verdict_eq_noAdoption_iff.symm
  · obtain ⟨hadopted, hno⟩ := verdict_eq_pass_iff.mp hpass
    exact verdict_eq_pass_iff.mpr
      ⟨hadopted, fun c hc => hno c (violated_of_tightenedBy h hc)⟩

/-- A pressure that is too low stays so when the minimum is raised, a probe is asked for and
the substrate has to be sound. -/
theorem tightening_keeps_findings_pressure :
    let p : Policy := {
      loads := .ofList [("dev", {}), ("prod", { minPressure := .p2 })]
      official := { pass := true, runMustBe := some "42" } }
    let q : Policy := {
      loads := .ofList [("dev", {}), ("prod", { minPressure := .p3, probes := ["latency"] })]
      official := { pass := true, runMustBe := some "42", iceMustBe := some "+" } }
    let text := "~LOAD:prod ~P1 ~ICEMAP: ~DEMO:official"
    p.TightenedBy q ∧ ("glyph.icemap", "pressure_too_low", none) ∈
      (lint text q true).findings.map Finding.identifiers := by
  intro p q text
  have hload : ∀ {name c d}, p.load? name = some c → q.load? name = some d → c.TightenedBy d := by
    intro name c d hc hd
    have hname : name ∈ ["dev", "prod"] := ByName.find?_isSome_iff.mp (Option.isSome_of_eq_some hc)
    rcases List.mem_pair.mp hname with rfl | rfl
    · obtain rfl : {} = c := Option.some_inj.mp hc
      exact ⟨Nat.zero_le _, List.nil_subset _, List.nil_subset _⟩
    · obtain rfl : { minPressure := .p2 } = c := Option.some_inj.mp hc
      obtain rfl : { minPressure := .p3, probes := ["latency"] } = d := Option.some_inj.mp hd
      exact ⟨by decide, List.nil_subset _, List.nil_subset _⟩
  have htightened : p.TightenedBy q :=
    ⟨rfl, rfl, hload, ⟨by decide, .inr rfl, nofun, .inl rfl⟩⟩
  have hdue : Due (Facts.of (.ofText text)) p (.pressureTooLow "prod" .p2 .p1) := by
    have hprod : (Facts.of (.ofText text)).HasLoad p "prod" { minPressure := .p2 } :=
      ⟨by decide +kernel, rfl⟩
    have hp1 : (Facts.of (.ofText text)).HasPressure .p1 := hasPressure_of.mpr (by decide +kernel)
    exact ⟨⟨_, _, _, hprod, hp1, by decide⟩, ⟨_, hprod, rfl⟩, hp1⟩
  have hkept := (tightening_keeps_findings htightened text true).1
  exact ⟨htightened, hkept.subset (List.mem_map.mpr
    ⟨_, mem_findings_iff.mpr ⟨_, hdue, rfl⟩, identifiers_finding _⟩)⟩

end Lint
end GlyphLine

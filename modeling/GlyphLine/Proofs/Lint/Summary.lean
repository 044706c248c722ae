import GlyphLine.Proofs.Lint.Adoption
import Mathlib.Data.List.Nodup

/-!
# The summary agrees with the findings

The summary is not made from the findings: it counts tokens and asks for the first load, the
pressure and the tier once more, and only the number of findings is handed to it.  A reader who
takes both from one report has to be able to rely on it that they do not contradict each other.

They do not, since a finding tells details that are right for the text, and the summary of the
same text is made from the same facts.  The counters are pinned at the greatest number that a
report can hold, which keeps their order.

## Main statements

* `Outcome.SummaryAgrees`: what a reader can rely on.
* `exists_due_of_reports`: what a finding says holds of the text.
* `load_of_due`, `pressure_of_due`, `tier_of_due`: the load, the pressure and the tier that
  findings tell.
* `summary_agrees`: **the summary of every outcome agrees with its findings**.
-/

namespace GlyphLine
namespace Lint

variable {f : Facts} {t : TokenSet} {p : Policy} {required : Bool} {v : Violation} {c : Clause}
  {g : Finding}

/-- The summary of an outcome agrees with its findings. -/
structure Outcome.SummaryAgrees (o : Outcome) : Prop where
  malformed : o.summary.malformed =
    min (o.findings.filter (·.checkId == "glyph.token_charset")).length 4294967295
  findings : o.summary.findings = min o.findings.length 4294967295
  unique_le_scanned : o.summary.unique ≤ o.summary.scanned
  malformed_le_scanned : o.summary.malformed ≤ o.summary.scanned
  malformed_le_findings : o.summary.malformed ≤ o.summary.findings
  unique_eq_zero_iff : o.summary.unique = 0 ↔ o.summary.scanned = 0
  load : ∀ g ∈ o.findings, g.checkId = "glyph.icemap" → ∃ load, o.summary.load = some load ∧
    ∀ named, g.data.member? "load" = some named → named = .string load
  missingPressure : ∀ g ∈ o.findings, g.code = "missing_pressure" → o.summary.pressure = none
  pressureTooLow : ∀ g ∈ o.findings, g.code = "pressure_too_low" →
    ∃ actual required : Pressure, actual < required ∧ o.summary.pressure = some actual.name ∧
      g.data.member? "actual" = some (.string actual.name) ∧
      g.data.member? "required" = some (.string required.name)
  freeze : ∀ g ∈ o.findings, g.code = "freeze_forbids_pass" → o.summary.pressure = some "P3"
  shot : ∀ g ∈ o.findings, g.code = "missing_shot" → ∃ tier ∈ ["ui", "demo"],
    o.summary.readyTier = some tier ∧ g.data.member? "tier" = some (.string tier)
  report : ∀ g ∈ o.findings, g.code = "missing_report" → o.summary.readyTier = some "demo"

/-! ## Counters -/

theorem pinned_le_pinned {m n : Nat} (h : m ≤ n) : pinned m ≤ pinned n :=
  Nat.le_min.mpr ⟨Nat.le_trans (Nat.min_le_left ..) h, Nat.min_le_right ..⟩

theorem pinned_eq_zero_iff {n : Nat} : pinned n = 0 ↔ n = 0 := by
  rw [pinned, Nat.min_eq_zero_iff]
  exact or_iff_left (by decide)

theorem length_distinct_le (ss : List String) : (distinct ss).length ≤ ss.length :=
  List.Nodup.length_le_of_subset ((pairwise_lt_distinct ss).imp String.ne_of_lt)
    fun _ hs => mem_distinct.mp hs

theorem length_distinct_eq_zero_iff {ss : List String} :
    (distinct ss).length = 0 ↔ ss.length = 0 := by
  rw [List.length_eq_zero_iff, List.length_eq_zero_iff, List.eq_nil_iff_forall_not_mem,
    List.eq_nil_iff_forall_not_mem]
  exact forall_congr' fun s => not_congr mem_distinct

/-- The malformed tokens are those that are reported. -/
theorem length_charset_findings (t : TokenSet) (p : Policy) (required : Bool) :
    ((lintTokens t p required).findings.filter (·.checkId == "glyph.token_charset")).length =
      t.malformed.length := by
  rw [findings_eq, (filter_findings fun _ => checkId_eq_charset_iff).1, List.length_map,
    charsetViolations, List.length_map]

/-! ## What findings tell -/

/-- A finding about a clause tells of a violation of this clause that is due. -/
theorem exists_due_of_reports (hg : g ∈ (lintTokens t p required).findings) (h : Reports g c) :
    ∃ v, v.clause = c ∧ Due (Facts.of t) p v ∧ v.finding = g := by
  obtain ⟨v, hdue, rfl⟩ := mem_findings_iff.mp hg
  exact ⟨v, reports_finding_iff.mp h, hdue, rfl⟩

theorem violated_of_reports (hg : g ∈ (lintTokens t p required).findings) (h : Reports g c) :
    Violated (Facts.of t) p c := by
  obtain ⟨v, rfl, hdue, -⟩ := exists_due_of_reports hg h
  exact hdue.1

theorem Check.id_injective {a b : Check} (h : a.id = b.id) : a = b := by
  revert h
  cases a <;> cases b <;> decide

/-- What is wrong under a load is told of the first load of the text. -/
theorem load_of_due (hdue : Due f p v) (hcheck : v.code.check = .icemap) :
    ∃ load, f.load = some load ∧
      ∀ named, v.finding.data.member? "load" = some named → named = .string load := by
  have told {load : String} {named : Json} (hdata : v.data.member? "load" = some (.string load))
      (h : v.finding.data.member? "load" = some named) : named = .string load :=
    Option.some_inj.mp (h.symm.trans hdata)
  obtain ⟨hviolated, htells⟩ := hdue
  cases v with
  | unknownLoad | missingIcemap => exact ⟨_, htells.1, fun _ => told rfl⟩
  | missingPressure => exact ⟨_, htells, fun _ => told rfl⟩
  | pressureTooLow =>
    obtain ⟨⟨_, hload, -⟩, -⟩ := htells
    exact ⟨_, hload.1, fun _ => told rfl⟩
  | missingProbes | vetoSignal =>
    obtain ⟨_, hload, -⟩ := htells
    exact ⟨_, hload.1, fun _ => told rfl⟩
  | icemapMismatch =>
    -- this one does not name the load
    obtain ⟨_, _, _, hload, -⟩ := hviolated
    exact ⟨_, hload.1, nofun⟩
  | _ => cases hcheck

theorem pressure_eq_none_of_violated (h : Violated (Facts.of t) p .noPressure) :
    t.pressure = none := by
  obtain ⟨_, _, -, hno⟩ := h
  exact TokenSet.pressure_eq_none_iff.mpr fun q hq => hno q (mem_tokens_of.mpr hq)

theorem pressure_eq_p3_of_violated (h : Violated (Facts.of t) p .freeze) :
    t.pressure = some .p3 :=
  TokenSet.pressure_eq_p3_iff.mpr (mem_tokens_of.mp h.2)

/-- A pressure that is too low is the one in effect, and it is below the one that is asked for. -/
theorem pressure_of_due {load : String} {need actual : Pressure}
    (hdue : Due (Facts.of t) p (.pressureTooLow load need actual)) :
    t.pressure = some actual ∧ actual < need := by
  obtain ⟨⟨_, k, q, hload, hq, hlow⟩, ⟨k', hload', rfl⟩, hactual⟩ := hdue
  obtain ⟨-, rfl⟩ := (hasLoad_iff hload).mp hload'
  have hq := hasPressure_of.mp hq
  have hactual := hasPressure_of.mp hactual
  obtain rfl := Option.some_inj.mp (hq.symm.trans hactual)
  exact ⟨hactual, hlow⟩

/-- The tier that lacks a screenshot is the one in effect, and it is one of two. -/
theorem tier_of_due {tier : ReadyTier} (hdue : Due (Facts.of t) p (.missingShot tier)) :
    t.readyTier = some tier ∧ tier.name ∈ ["ui", "demo"] := by
  have htier : t.readyTier = some tier := hasTier_of.mp hdue.2
  refine ⟨htier, ?_⟩
  rcases (violated_shot_iff.mp hdue.1).1 with hui | hdemo
  · obtain rfl := Option.some_inj.mp (htier.symm.trans hui)
    exact List.mem_cons_self
  · obtain rfl := Option.some_inj.mp (htier.symm.trans hdemo)
    exact List.mem_cons_of_mem _ List.mem_cons_self

/-! ## The summary -/

/-- **The summary of every outcome agrees with its findings**, for every text and policy and
whether or not adoption is required. -/
theorem summary_agrees (text : String) (p : Policy) (required : Bool) :
    (lint text p required).SummaryAgrees := by
  have hsummary : (lint text p required).summary =
      summary (.ofText text) p required (violations (.ofText text) p).length :=
    summary_lintTokens_eq ..
  have hcount : (lint text p required).findings.length = (violations (.ofText text) p).length := by
    rw [lint, findings_eq, List.length_map]
  have hmalformed := length_charset_findings (.ofText text) p required
  exact {
    malformed := by rw [hsummary, lint, hmalformed]; rfl
    findings := by rw [hsummary, hcount]; rfl
    unique_le_scanned := by
      rw [hsummary]
      exact pinned_le_pinned (length_distinct_le _)
    malformed_le_scanned := by
      rw [hsummary]
      exact pinned_le_pinned (List.length_filter_le ..)
    malformed_le_findings := by
      rw [hsummary]
      refine pinned_le_pinned ?_
      rw [← hmalformed, ← hcount]
      exact List.length_filter_le ..
    unique_eq_zero_iff := by
      rw [hsummary]
      exact pinned_eq_zero_iff.trans (length_distinct_eq_zero_iff.trans pinned_eq_zero_iff.symm)
    load := by
      intro g hg hcheck
      obtain ⟨v, hdue, rfl⟩ := mem_findings_iff.mp hg
      rw [hsummary]
      exact load_of_due hdue (Check.id_injective hcheck)
    missingPressure := by
      intro g hg hcode
      have hnone := pressure_eq_none_of_violated (violated_of_reports (c := .noPressure) hg hcode)
      rw [hsummary]
      exact congrArg (Option.map Pressure.name) hnone
    pressureTooLow := by
      intro g hg hcode
      obtain ⟨v, hclause, hdue, rfl⟩ := exists_due_of_reports (c := .lowPressure) hg hcode
      cases v with
      | pressureTooLow load need actual =>
        obtain ⟨hactual, hlow⟩ := pressure_of_due hdue
        rw [hsummary]
        exact ⟨actual, need, hlow, congrArg (Option.map Pressure.name) hactual, rfl, rfl⟩
      | _ => cases hclause
    freeze := by
      intro g hg hcode
      have hp3 := pressure_eq_p3_of_violated (violated_of_reports (c := .freeze) hg hcode)
      rw [hsummary]
      exact congrArg (Option.map Pressure.name) hp3
    shot := by
      intro g hg hcode
      obtain ⟨v, hclause, hdue, rfl⟩ := exists_due_of_reports (c := .shot) hg hcode
      cases v with
      | missingShot tier =>
        obtain ⟨htier, hname⟩ := tier_of_due hdue
        rw [hsummary]
        exact ⟨tier.name, hname, congrArg (Option.map ReadyTier.name) htier, rfl⟩
      | _ => cases hclause
    report := by
      intro g hg hcode
      have htier := (violated_report_iff.mp (violated_of_reports (c := .report) hg hcode)).1
      rw [hsummary]
      exact congrArg (Option.map ReadyTier.name) htier }

end Lint
end GlyphLine

import GlyphLine.Proofs.Lint.Growth
import Mathlib.Data.List.Nodup
import Mathlib.Data.List.Sort

/-!
# What is met stays met

Most rules ask for tokens: a claim of readiness for evidence, a load for probes, a pressure and
the name of the policy, an official claim for one token after the other.  Text that is added
behind a separator takes no token away.  So it cannot bring up anew what the text before it
had met.

## What is asked for

An obligation has an occasion: a claim of readiness, the first load, an official claim.  A text
without the occasion meets everything, and a longer one may have it; so each part below is about
texts that have it.  From there on the longer text is asked for the same.

Two requirements of an official claim ask for no token and are left out.  An expected run binds
only texts that name a run, and a tier that is added can take the place of the required one.

## Main statements

* `Outcome.keys`, `Outcome.missing`: what an outcome tells, by its keys and by the names that it
  misses.
* `isMissing_of_within`, `unmet_of_within`: the evidence and the requirements.
* `pressure_met_iff`: a pressure is met as soon as one that is declared is high enough.
* `met_obligations_persist`: **what a text has met a longer one has met**.
-/

namespace GlyphLine
namespace Lint

variable {f g : Facts} {t : TokenSet} {p : Policy} {required : Bool} {v : Violation} {c : Clause}
  {load n : String} {k : LoadClass}

/-! ## Facts that grow -/

namespace Facts.Within

variable (h : f.Within g)
include h

theorem hasStart {start : String} : f.HasStart start → g.HasStart start :=
  fun ⟨u, hu, hs⟩ => ⟨u, h.tokens hu, hs⟩

theorem hasBase {base : String} : f.HasBase base → g.HasBase base :=
  Or.imp h.tokens h.hasStart

theorem allPlus : f.AllPlus → g.AllPlus :=
  Or.imp h.tokens fun hall u hu => h.tokens (hall u hu)

theorem named_eq_none (hg : g.named = none) : f.named = none :=
  Option.eq_none_iff_forall_ne_some.mpr fun _ hid => by simp [h.named hid] at hg

theorem run_eq_none (hg : g.run = none) : f.run = none :=
  Option.eq_none_iff_forall_ne_some.mpr fun _ hrun => by simp [h.run hrun] at hg

end Facts.Within

/-! ## Obligations that stay met -/

/-- Evidence that is missing of more tokens is missing of fewer. -/
theorem isMissing_of_within (h : f.Within g) : IsMissing g n → IsMissing f n := by
  rintro (⟨hn, hno⟩ | ⟨s, hs, rfl, hno⟩)
  · exact .inl ⟨hn, mt h.hasBase hno⟩
  · exact .inr ⟨s, hs, rfl, mt h.hasStart hno⟩

/-- The pressure of a load is met if and only if some declared pressure is high enough: the
highest one is then, and it is in effect. -/
theorem pressure_met_iff (hload : (Facts.of t).HasLoad p load k) :
    (¬ Violated (Facts.of t) p .noPressure ∧ ¬ Violated (Facts.of t) p .lowPressure) ↔
      ∃ q : Pressure, q.token ∈ (Facts.of t).tokens ∧ k.minPressure ≤ q := by
  constructor
  · rintro ⟨hsome, hhigh⟩
    cases hq : t.pressure with
    | none =>
      refine absurd ⟨load, k, hload, fun q hmem => ?_⟩ hsome
      exact TokenSet.pressure_eq_none_iff.mp hq q (mem_tokens_of.mp hmem)
    | some q =>
      have hq := hasPressure_of.mpr hq
      refine ⟨q, hq.1, Nat.le_of_not_lt fun hlow => hhigh ⟨load, k, q, hload, hq, hlow⟩⟩
  · rintro ⟨q, hmem, hhigh⟩
    constructor
    · rintro ⟨_, _, -, hno⟩
      exact hno q hmem
    · rintro ⟨load', k', r, hload', hr, hlow⟩
      obtain ⟨-, rfl⟩ := (hasLoad_iff hload).mp hload'
      exact Nat.not_lt_of_le (Nat.le_trans hhigh (hr.2 q hmem)) hlow

theorem unnamed_of_within (h : f.Within g) (hload : f.HasLoad p load k)
    (hg : Violated g p .unnamed) : Violated f p .unnamed := by
  obtain ⟨load', k', hload', hsensitive, hnone⟩ := hg
  obtain ⟨rfl, rfl⟩ := (hasLoad_iff (h.hasLoad hload)).mp hload'
  exact ⟨_, _, hload, hsensitive, h.named_eq_none hnone⟩

/-- The requirements that ask for tokens. -/
def tokenRequirements : List Requirement :=
  [.pass, .env, .run, .iceMustBe, .rgcaAllPlus, .zdPlus, .zdmPlus, .thaletPlus, .bridgespecPlus,
    .tbPlus]

theorem unmet_of_within (h : f.Within g) {o : Official} {r : Requirement}
    (hr : r ∈ tokenRequirements) (hunmet : Unmet g o r) : Unmet f o r := by
  cases r with
  | env => exact hunmet.imp_right (mt h.hasStart)
  | run => exact hunmet.imp_right h.run_eq_none
  | rgcaAllPlus => exact hunmet.imp_right (mt h.allPlus)
  | runMustBe | readyTier => exact absurd hr (by decide)
  | _ => exact hunmet.imp_right (mt h.tokens)

/-! ## What an outcome tells -/

/-- The keys of the findings. -/
def Outcome.keys (o : Outcome) : List String := o.findings.map Finding.key

/-- The names that a finding lists as missing. -/
def Finding.missing (g : Finding) : List String :=
  (((g.data.member? "missing").bind Json.items?).getD []).filterMap Json.string?

/-- The names that are listed as missing under a code.  There are none if nothing is reported
under it. -/
def Outcome.missing (o : Outcome) (code : String) : List String :=
  (o.findings.filter (·.code == code)).flatMap Finding.missing

theorem mem_keys_iff :
    c.key ∈ (lintTokens t p required).keys ↔ Violated (Facts.of t) p c := by
  rw [Outcome.keys, List.mem_map]
  constructor
  · rintro ⟨g, hg, hkey⟩
    obtain ⟨v, hdue, rfl⟩ := mem_findings_iff.mp hg
    rw [key_finding] at hkey
    exact Clause.key_injective hkey ▸ hdue.1
  · intro hc
    obtain ⟨v, rfl, hdue⟩ := exists_due hc
    exact ⟨v.finding, mem_findings_iff.mpr ⟨v, hdue, rfl⟩, key_finding v⟩

/-- The findings with the code of a clause are those of its violations, if no other clause has
the code. -/
theorem filter_code_findings (hown : ∀ r, c ≠ .unmet r) (hrule : c ≠ .charset) :
    (lintTokens t p required).findings.filter (·.code == c.code.name) =
      ((ruleViolations t p).filter (·.clause = c)).map Violation.finding := by
  have hcode : ∀ v : Violation, (v.finding.code == c.code.name) = decide (v.clause = c) := by
    intro v
    rw [Bool.eq_iff_iff, beq_iff_eq, decide_eq_true_iff, ← Clause.code_eq_iff hown,
      Violation.code_clause]
    exact ⟨Code.name_injective, congrArg Code.name⟩
  have hcharset : (charsetViolations t).filter (·.clause = c) = [] := by
    refine List.filter_eq_nil_iff.mpr fun v hv => ?_
    rw [clause_of_mem_charsetViolations hv, decide_eq_true_iff]
    exact hrule.symm
  rw [findings_eq, List.filter_map, violations_eq, List.filter_append]
  simp only [Function.comp_def, hcode, hcharset, List.nil_append]

/-- A clause has one violation among those of the rules. -/
theorem filter_clause_of_mem (h : v ∈ ruleViolations t p) :
    (ruleViolations t p).filter (·.clause = v.clause) = [v] := by
  have hsame : ∀ w ∈ ruleViolations t p, decide (w.clause = v.clause) = (w == v) := fun w hw => by
    rw [Bool.eq_iff_iff, decide_eq_true_iff, beq_iff_eq]
    exact ⟨List.inj_on_of_nodup_map nodup_map_clause hw h, congrArg _⟩
  rw [List.filter_congr hsame, List.filter_beq,
    List.count_eq_one_of_mem nodup_map_clause.of_map h, List.replicate_one]

/-- The names that are missing under the code of a clause are those of its violation. -/
theorem missing_of_due (hdue : Due (Facts.of t) p v) (hown : ∀ r, v.clause ≠ .unmet r)
    (hrule : v.clause ≠ .charset) :
    (lintTokens t p required).missing v.clause.code.name = v.finding.missing := by
  rw [Outcome.missing, filter_code_findings hown hrule,
    filter_clause_of_mem (mem_ruleViolations_iff.mpr ⟨hdue, hrule⟩), List.map_singleton,
    List.flatMap_singleton]

theorem missing_of_not_violated (h : ¬ Violated (Facts.of t) p c) (hown : ∀ r, c ≠ .unmet r)
    (hrule : c ≠ .charset) : (lintTokens t p required).missing c.code.name = [] := by
  have hnone : (ruleViolations t p).filter (·.clause = c) = [] := by
    refine List.filter_eq_nil_iff.mpr fun v hv => ?_
    rw [decide_eq_true_iff]
    rintro rfl
    exact h (mem_ruleViolations_iff.mp hv).1.1
  rw [Outcome.missing, filter_code_findings hown hrule, hnone]
  rfl

theorem filterMap_string? (ss : List String) :
    ((Json.strings ss).items?.getD []).filterMap Json.string? = ss := by
  show (ss.map Json.string).filterMap Json.string? = ss
  rw [List.filterMap_map]
  exact List.filterMap_some

/-! ### Evidence -/

/-- The names of all evidence, in order. -/
def evidenceNames : List String :=
  ["~ARCH", "~COMMIT", "~ENV:*", "~HASH", "~ICEMAP:*", "~JSON", "~MANI", "~RUN:*", "~TRACE:*"]

theorem pairwise_evidenceNames : evidenceNames.Pairwise (· < ·) := by decide +kernel

theorem mem_evidenceNames (h : IsMissing f n) : n ∈ evidenceNames := by
  rcases h with ⟨hn, -⟩ | ⟨s, hs, rfl, -⟩
  · revert n
    decide
  · revert s
    decide

/-- The evidence that an outcome misses, for the tokens that it is about. -/
theorem evidence_missing (t : TokenSet) (p : Policy) (required : Bool) :
    ((lintTokens t p required).missing "missing_evidence").Pairwise (· < ·) ∧
      ∀ n, n ∈ (lintTokens t p required).missing "missing_evidence" ↔
        (Facts.of t).HasStart "~READY:" ∧ IsMissing (Facts.of t) n := by
  have hviolated : Violated (Facts.of t) p .evidence ↔
      (Facts.of t).HasStart "~READY:" ∧ ∃ n, IsMissing (Facts.of t) n := by
    rw [exists_isMissing_iff, Violated]
  have hown : ∀ r, Clause.evidence ≠ .unmet r := fun _ => Clause.noConfusion
  have hrule : Clause.evidence ≠ .charset := by decide
  by_cases hc : Violated (Facts.of t) p .evidence
  · obtain ⟨v, hclause, hdue⟩ := exists_due hc
    cases v with
    | missingEvidence names =>
      have hnames : (lintTokens t p required).missing "missing_evidence" = names :=
        (missing_of_due hdue hown hrule).trans (filterMap_string? names)
      rw [hnames]
      exact ⟨hdue.2.1, fun n => (hdue.2.2 n).trans (and_iff_right hc.1).symm⟩
    | _ => cases hclause
  · have hnone : (lintTokens t p required).missing "missing_evidence" = [] :=
      missing_of_not_violated hc hown hrule
    rw [hnone]
    refine ⟨List.Pairwise.nil, fun n => iff_of_false List.not_mem_nil fun hn => ?_⟩
    exact hc (hviolated.mpr ⟨hn.1, n, hn.2⟩)

/-- An increasing list is a part of every other one that has its strings. -/
theorem sublist_of_pairwise_lt {ss ts : List String} (hs : ss.Pairwise (· < ·))
    (ht : ts.Pairwise (· < ·)) (h : ss ⊆ ts) : ss.Sublist ts :=
  List.sublist_of_subperm_of_pairwise (List.Nodup.subperm (hs.imp String.ne_of_lt) h) hs ht

/-! ### Probes -/

/-- The probes that an outcome misses are those of the load that no token names. -/
theorem probes_missing (hload : (Facts.of t).HasLoad p load k) :
    (lintTokens t p required).missing "missing_probes" =
      k.probes.filter fun name => "~PROBE:" ++ name ∉ (Facts.of t).tokens := by
  have hown : ∀ r, Clause.probes ≠ .unmet r := fun _ => Clause.noConfusion
  have hrule : Clause.probes ≠ .charset := by decide
  by_cases hc : Violated (Facts.of t) p .probes
  · obtain ⟨v, hclause, hdue⟩ := exists_due hc
    cases v with
    | missingProbes load' probes =>
      obtain ⟨k', hload', hprobes⟩ := hdue.2
      obtain ⟨-, rfl⟩ := (hasLoad_iff hload).mp hload'
      exact ((missing_of_due hdue hown hrule).trans (filterMap_string? probes)).trans hprobes
    | _ => cases hclause
  · have hnone : (lintTokens t p required).missing "missing_probes" = [] :=
      missing_of_not_violated hc hown hrule
    rw [hnone, eq_comm, List.filter_eq_nil_iff]
    intro name hname hmissing
    exact hc ⟨load, k, hload, name, hname, of_decide_eq_true hmissing⟩

/-! ## Longer texts -/

/-- A clause that is not violated anew is not reported anew. -/
theorem not_mem_keys_of {s : TokenSet} {required' : Bool}
    (h : Violated (Facts.of t) p c → Violated (Facts.of s) p c) :
    c.key ∉ (lintTokens s p required).keys → c.key ∉ (lintTokens t p required').keys :=
  mt fun hmem => mem_keys_iff.mpr (h (mem_keys_iff.mp hmem))

/-- The keys of the requirements that ask for tokens. -/
def tokenRequirementKeys : List String :=
  ["require_pass", "env_required", "run_required", "ice_must_be", "require_rgca_all_plus",
    "require_zd_plus", "require_zdm_plus", "require_thalet_plus", "require_bridgespec_plus",
    "require_tb_plus"]

theorem tokenRequirementKeys_eq :
    tokenRequirementKeys = tokenRequirements.map fun r => (Clause.unmet r).key := by decide

/-- **What a text has met a longer one has met.**  With a claim of readiness the evidence that
is missing only becomes less.  Under a known load so do the probes that are missing, and a
pressure that is there and high enough stays so, as does the name of the policy.  With an
official claim a requirement that asks for a token and is met stays met. -/
theorem met_obligations_persist {s : Char} (hs : Text.isSeparator s = true) (p : Policy)
    (t u : String) (required required' : Bool) :
    let before := lint t p required
    let after := lint (t ++ String.singleton s ++ u) p required'
    ((∃ w ∈ Token.extract t, Text.startsWith "~READY:" w = true) →
        (after.missing "missing_evidence").Sublist (before.missing "missing_evidence")) ∧
      (before.missing "missing_evidence").Sublist evidenceNames ∧
      evidenceNames.Pairwise (· < ·) ∧
      (∀ load k, (TokenSet.ofText t).firstValue "~LOAD:" = some load → p.load? load = some k →
        (after.missing "missing_probes").Sublist (before.missing "missing_probes") ∧
          (before.missing "missing_probes").Sublist k.probes ∧
          ("missing_pressure" ∉ before.keys ∧ "pressure_too_low" ∉ before.keys →
            "missing_pressure" ∉ after.keys ∧ "pressure_too_low" ∉ after.keys) ∧
          ("missing_icemap" ∉ before.keys → "missing_icemap" ∉ after.keys)) ∧
      ("~DEMO:official" ∈ Token.extract t →
        ∀ key ∈ tokenRequirementKeys, key ∉ before.keys → key ∉ after.keys) := by
  intro before after
  have hwithin : (Facts.of (.ofText t)).Within
      (Facts.of (.ofText (t ++ String.singleton s ++ u))) :=
    within_of_isPrefix (ordered_isPrefix hs t u)
  obtain ⟨hbefore, hmissing⟩ := evidence_missing (.ofText t) p required
  refine ⟨?_, ?_, pairwise_evidenceNames, ?_, ?_⟩
  · rintro ⟨w, hw, hready⟩
    have hready : (Facts.of (.ofText t)).HasStart "~READY:" := ⟨w, mem_tokens_of.mpr hw, hready⟩
    obtain ⟨hafter, hmissing'⟩ :=
      evidence_missing (.ofText (t ++ String.singleton s ++ u)) p required'
    refine sublist_of_pairwise_lt hafter hbefore fun n hn => ?_
    exact (hmissing n).mpr ⟨hready, isMissing_of_within hwithin ((hmissing' n).mp hn).2⟩
  · exact sublist_of_pairwise_lt hbefore pairwise_evidenceNames fun n hn =>
      mem_evidenceNames ((hmissing n).mp hn).2
  · intro load k hfirst hk
    have hload : (Facts.of (.ofText t)).HasLoad p load k := ⟨hfirst, hk⟩
    have hload' := hwithin.hasLoad hload
    have hprobes : before.missing "missing_probes" = _ := probes_missing hload
    have hprobes' : after.missing "missing_probes" = _ := probes_missing hload'
    refine ⟨?_, hprobes ▸ List.filter_sublist, ?_, ?_⟩
    · rw [hprobes, hprobes']
      refine List.monotone_filter_right _ fun name hmem => ?_
      rw [decide_eq_true_iff] at hmem ⊢
      exact mt hwithin.tokens hmem
    · rintro ⟨hsome, hhigh⟩
      obtain ⟨q, hq, hmin⟩ := (pressure_met_iff hload).mp
        ⟨mt mem_keys_iff.mpr hsome, mt mem_keys_iff.mpr hhigh⟩
      obtain ⟨hsome', hhigh'⟩ := (pressure_met_iff hload').mpr ⟨q, hwithin.tokens hq, hmin⟩
      exact ⟨mt (mem_keys_iff (c := .noPressure)).mp hsome',
        mt (mem_keys_iff (c := .lowPressure)).mp hhigh'⟩
    · exact not_mem_keys_of (c := .unnamed) (unnamed_of_within hwithin hload)
  · intro hclaim key hkey
    rw [tokenRequirementKeys_eq, List.mem_map] at hkey
    obtain ⟨r, hr, rfl⟩ := hkey
    exact not_mem_keys_of fun h => ⟨mem_tokens_of.mpr hclaim, unmet_of_within hwithin hr h.2⟩

/-- A pass, a policy and a pressure that is high enough, behind which a lower pressure, a probe
and another load are written. -/
theorem met_obligations_persist_lowered :
    let p : Policy := {
      loads := .ofList [("prod", { minPressure := .p2, probes := ["latency", "errors"] })]
      official := { pass := true, zdPlus := true } }
    let t := "~READY:gold ~LOAD:prod ~P2 ~ICEMAP: ~DEMO:official ~PASS"
    let before := lint t p false
    let after := lint (t ++ String.singleton '\n' ++ "~P0 ~PROBE:errors ~LOAD:dev") p true
    Text.isSeparator '\n' = true ∧
      (after.missing "missing_evidence").Sublist (before.missing "missing_evidence") ∧
      (after.missing "missing_probes").Sublist (before.missing "missing_probes") ∧
      ("missing_pressure" ∉ before.keys ∧ "pressure_too_low" ∉ before.keys) ∧
      ("missing_pressure" ∉ after.keys ∧ "pressure_too_low" ∉ after.keys) ∧
      "missing_icemap" ∉ after.keys ∧ "require_pass" ∉ after.keys := by
  intro p t before after
  have hseparator : Text.isSeparator '\n' = true := by decide
  obtain ⟨hevidence, -, -, hunder, hofficial⟩ :=
    met_obligations_persist hseparator p t "~P0 ~PROBE:errors ~LOAD:dev" false true
  have hload : (Facts.of (.ofText t)).HasLoad p "prod"
      { minPressure := .p2, probes := ["latency", "errors"] } := ⟨by decide +kernel, rfl⟩
  obtain ⟨hprobes, -, hpressure, hnamed⟩ := hunder "prod" _ hload.1 hload.2
  have hready : ∃ w ∈ Token.extract t, Text.startsWith "~READY:" w = true :=
    ⟨"~READY:gold", by decide +kernel, by decide⟩
  have hmet : "missing_pressure" ∉ before.keys ∧ "pressure_too_low" ∉ before.keys := by
    obtain ⟨hsome, hhigh⟩ := (pressure_met_iff hload).mpr
      ⟨.p2, mem_tokens_of.mpr (by decide +kernel), by decide⟩
    exact ⟨mt (mem_keys_iff (c := .noPressure)).mp hsome,
      mt (mem_keys_iff (c := .lowPressure)).mp hhigh⟩
  have hicemap : "missing_icemap" ∉ before.keys := by
    refine mt (mem_keys_iff (c := .unnamed)).mp ?_
    rintro ⟨_, _, -, -, hnone⟩
    exact absurd hnone (by decide +kernel)
  have hpass : "require_pass" ∉ before.keys := by
    refine mt (mem_keys_iff (c := .unmet .pass)).mp ?_
    rintro ⟨-, -, hmissing⟩
    exact hmissing (mem_tokens_of.mpr (by decide +kernel))
  exact ⟨hseparator, hevidence hready, hprobes, hmet, hpressure hmet, hnamed hicemap,
    hofficial (by decide +kernel) _ (by decide) hpass⟩

end Lint
end GlyphLine

import GlyphLine.Proofs.Explain.Registered
import GlyphLine.Proofs.Lint.Findings
import Mathlib.Data.List.Nodup

/-!
# The sequence of the findings

The malformed tokens come first, in their order.  What follows them is a selection from one
list of twenty-five keys, in the order of this list.

Not all of the twenty-five can be selected.  A pass and the lack of a pass exclude each
other, and so do a freeze and a pressure that is missing or too low, a load that is unknown
and one whose policy is unnamed or misnamed, and a run that is missing and one that is
wrong.  If rivals share a *seat*, no two clauses that a text violates have the same one;
there are nineteen seats, and one text takes them all.

* `keyOrder`: the keys, in order.
* `not_violated_of_rivals`: rivals are not violated together.
* `length_ruleViolations_le`: there are at most nineteen findings behind the malformed tokens.
* `violated_of_mem_seats`: a text that violates one clause for each seat.
* `findings_canonical`: the shape of the findings, and that their identifiers are registered.
-/

namespace GlyphLine
namespace Lint

variable {t : TokenSet} {p : Policy} {f : Facts} {c d : Clause}

/-! ## The order of the keys -/

/-- The keys of the findings about anything but the characters of tokens, in the order in
which they are reported. -/
def keyOrder : List String := [
  "freeze_forbids_pass", "ice_fail_forbids_pass", "zdm_mismatch_forbids_pass",
  "missing_evidence", "missing_shot", "missing_report",
  "unknown_load", "missing_pressure", "pressure_too_low", "missing_icemap", "icemap_mismatch",
  "missing_probes", "veto_signal",
  "require_pass", "env_required", "run_required", "run_must_be", "ice_must_be",
  "require_rgca_all_plus", "require_zd_plus", "require_zdm_plus", "require_thalet_plus",
  "require_ready_tier", "require_bridgespec_plus", "require_tb_plus"]

/-- A key stands before another one in the order. -/
def Precedes (k l : String) : Prop := keyOrder.idxOf k < keyOrder.idxOf l

instance : DecidableRel Precedes := fun k l =>
  inferInstanceAs (Decidable (keyOrder.idxOf k < keyOrder.idxOf l))

theorem map_key_clauses : Clause.all.tail.map Clause.key = keyOrder := by decide

theorem pairwise_keyOrder : keyOrder.Pairwise Precedes := by decide +kernel

theorem map_key_sublist :
    (((ruleViolations t p).map Violation.finding).map Finding.key).Sublist keyOrder := by
  have hkeys : ((ruleViolations t p).map Violation.finding).map Finding.key =
      ((ruleViolations t p).map Violation.clause).map Clause.key := by
    rw [List.map_map, List.map_map]
    exact List.map_congr_left fun v _ => key_finding v
  rw [hkeys, ← map_key_clauses]
  exact clauses_sublist.map Clause.key

/-! ## Rivals -/

/-- Pairs of clauses of which a text violates at most one. -/
def rivals : List (Clause × Clause) := [
  (.freeze, .noPressure), (.freeze, .lowPressure), (.noPressure, .lowPressure),
  (.unknownLoad, .unnamed), (.unknownLoad, .misnamed), (.unnamed, .misnamed),
  (.veto, .unmet .pass), (.unmet .run, .unmet .runMustBe)]

theorem not_hasLoad_of_unknown {load : String} {k : LoadClass}
    (hc : Violated f p .unknownLoad) : ¬ f.HasLoad p load k := by
  obtain ⟨load', hload', hnone⟩ := hc
  rintro ⟨hload, hsome⟩
  rw [Option.some_inj.mp (hload'.symm.trans hload), hsome] at hnone
  cases hnone

theorem not_violated_of_rivals (h : (c, d) ∈ rivals) (hc : Violated f p c) :
    ¬ Violated f p d := by
  simp only [rivals, List.mem_cons, Prod.mk.injEq, List.not_mem_nil, or_false] at h
  rcases h with ⟨rfl, rfl⟩ | ⟨rfl, rfl⟩ | ⟨rfl, rfl⟩ | ⟨rfl, rfl⟩ | ⟨rfl, rfl⟩ | ⟨rfl, rfl⟩ |
    ⟨rfl, rfl⟩ | ⟨rfl, rfl⟩
  · rintro ⟨_, _, _, hno⟩
    exact hno .p3 hc.2
  · -- the freeze is the highest pressure, and no load asks for a higher one
    rintro ⟨_, k, q, -, hq, hlt⟩
    have hfreeze : Pressure.p3 ≤ q := hq.2 .p3 hc.2
    have hmost : k.minPressure ≤ .p3 := by cases k.minPressure <;> decide
    exact Nat.lt_irrefl _ (Nat.lt_of_lt_of_le hlt (Nat.le_trans hmost hfreeze))
  · obtain ⟨_, _, _, hno⟩ := hc
    rintro ⟨_, _, q, -, hq, -⟩
    exact hno q hq.1
  · rintro ⟨_, _, hload, -⟩
    exact not_hasLoad_of_unknown hc hload
  · rintro ⟨_, _, _, hload, -⟩
    exact not_hasLoad_of_unknown hc hload
  · obtain ⟨_, _, -, -, hnone⟩ := hc
    rintro ⟨_, _, _, -, hsome, -⟩
    rw [hnone] at hsome
    cases hsome
  · obtain ⟨_, _, -, hpass, -⟩ := hc
    exact fun hd => hd.2.2 hpass
  · rintro ⟨-, _, _, -, hsome, -⟩
    rw [hc.2.2] at hsome
    cases hsome

/-! ## Seats -/

/-- The clause that has the seat which a clause shares with its rivals. -/
def Clause.seat : Clause → Clause
  | .noPressure | .lowPressure => .freeze
  | .unknownLoad | .misnamed => .unnamed
  | .unmet .pass => .veto
  | .unmet .runMustBe => .unmet .run
  | c => c

/-- All seats. -/
def seats : List Clause := Clause.all.tail.filter fun c => c.seat = c

theorem length_seats : seats.length = 19 := by decide

theorem nodup_seats : seats.Nodup := nodup_clauses.filter _

theorem seat_mem_seats (h : c ∈ Clause.all.tail) : c.seat ∈ seats := by
  revert h
  revert c
  decide

theorem eq_or_rivals_of_seat_eq (h : c.seat = d.seat) :
    c = d ∨ (c, d) ∈ rivals ∨ (d, c) ∈ rivals := by
  have hall : ∀ c ∈ Clause.all, ∀ d ∈ Clause.all, c.seat = d.seat →
      c = d ∨ (c, d) ∈ rivals ∨ (d, c) ∈ rivals := by decide +kernel
  exact hall c (mem_all_clauses c) d (mem_all_clauses d) h

/-- Violated clauses do not share a seat. -/
theorem eq_of_seat_eq (hc : Violated f p c) (hd : Violated f p d) (h : c.seat = d.seat) :
    c = d := by
  rcases eq_or_rivals_of_seat_eq h with heq | hrivals | hrivals
  · exact heq
  · exact absurd hd (not_violated_of_rivals hrivals hc)
  · exact absurd hc (not_violated_of_rivals hrivals hd)

theorem length_ruleViolations_le (t : TokenSet) (p : Policy) :
    (ruleViolations t p).length ≤ 19 := by
  have hseats : (((ruleViolations t p).map Violation.clause).map Clause.seat).Nodup := by
    refine nodup_map_clause.map_on fun c hc d hd h => ?_
    exact eq_of_seat_eq (mem_map_clause_iff.mp hc).1 (mem_map_clause_iff.mp hd).1 h
  have hsubset : ((ruleViolations t p).map Violation.clause).map Clause.seat ⊆ seats := by
    intro s hs
    obtain ⟨c, hc, rfl⟩ := List.mem_map.mp hs
    exact seat_mem_seats (clauses_sublist.subset hc)
  have hlength := hseats.length_le_of_subset hsubset
  rwa [List.length_map, List.length_map, length_seats] at hlength

/-! ## All seats taken -/

/-- A text that claims everything and shows nothing for it. -/
def crowdedText : String :=
  "~PASS ~P3 ~ICE- ~ZDM- ~READY:demo ~LOAD:pay ~SIG:oom ~DEMO:official"

/-- A policy that asks for everything. -/
def strictPolicy : Policy where
  id := "ice"
  loads := .ofList [("pay", { probes := ["latency"], vetoSignals := ["oom"] })]
  official := {
    pass := true, env := true, run := true, runMustBe := some "nightly", iceMustBe := some "+"
    rgcaAllPlus := true, zdPlus := true, zdmPlus := true, thaletPlus := true
    readyTier := some .core, bridgespecPlus := true, tbPlus := true }

/-- The tokens of the crowded text. -/
def crowdedTokens : TokenSet :=
  ⟨["~PASS", "~P3", "~ICE-", "~ZDM-", "~READY:demo", "~LOAD:pay", "~SIG:oom",
    "~DEMO:official"]⟩

theorem ofText_crowdedText : TokenSet.ofText crowdedText = crowdedTokens := by decide +kernel

/-- The crowded text takes all seats. -/
theorem violated_of_mem_seats (h : c ∈ seats) :
    Violated (Facts.of crowdedTokens) strictPolicy c := by
  have hload : (Facts.of crowdedTokens).HasLoad strictPolicy "pay"
      { probes := ["latency"], vetoSignals := ["oom"] } := ⟨by decide, rfl⟩
  have hready : (Facts.of crowdedTokens).HasStart "~READY:" := hasStart_of.mpr (by decide)
  have henv : ¬ (Facts.of crowdedTokens).HasStart "~ENV:" := mt hasStart_of.mp (by decide)
  have hshot : ¬ (Facts.of crowdedTokens).HasBase "~SHOT" := mt hasBase_of.mp (by decide)
  have hreport : ¬ (Facts.of crowdedTokens).HasBase "~REPORT" := mt hasBase_of.mp (by decide)
  cases c with
  | charset | unknownLoad | noPressure | lowPressure | misnamed => exact absurd h (by decide)
  | freeze | iceFail | zdmMismatch => simp [Violated, mem_tokens_of, crowdedTokens]
  | evidence => exact ⟨hready, .inr ⟨"~ENV:", by decide, henv⟩⟩
  | shot =>
    exact ⟨by simp [mem_tokens_of, crowdedTokens], by simp [mem_tokens_of, crowdedTokens], hshot⟩
  | report =>
    exact ⟨by simp [mem_tokens_of, crowdedTokens], by simp [mem_tokens_of, crowdedTokens],
      by simp [mem_tokens_of, crowdedTokens], hreport⟩
  | unnamed => exact ⟨_, _, hload, by decide, by decide⟩
  | probes => exact ⟨_, _, hload, "latency", by decide, by simp [mem_tokens_of, crowdedTokens]⟩
  | veto =>
    exact ⟨_, _, hload, by simp [mem_tokens_of, crowdedTokens], "oom", by decide,
      by simp [mem_tokens_of, crowdedTokens]⟩
  | unmet r =>
    refine ⟨by simp [mem_tokens_of, crowdedTokens], ?_⟩
    cases r with
    | pass | runMustBe => exact absurd h (by decide)
    | env => exact ⟨rfl, henv⟩
    | run => exact ⟨rfl, by decide⟩
    | iceMustBe | zdPlus | zdmPlus | thaletPlus | bridgespecPlus | tbPlus =>
      exact ⟨rfl, by simp [mem_tokens_of, crowdedTokens]⟩
    | rgcaAllPlus => exact ⟨rfl, by simp [Facts.AllPlus, mem_tokens_of, crowdedTokens]⟩
    | readyTier => exact ⟨.core, rfl, by simp [Facts.HasTier, mem_tokens_of, crowdedTokens]⟩

theorem length_ruleViolations_crowdedTokens :
    (ruleViolations crowdedTokens strictPolicy).length = 19 := by
  refine Nat.le_antisymm (length_ruleViolations_le _ _) ?_
  have hsubset : seats ⊆ (ruleViolations crowdedTokens strictPolicy).map Violation.clause :=
    fun c hc => mem_map_clause_iff.mpr
      ⟨violated_of_mem_seats hc, fun heq => absurd (heq ▸ hc) (by decide)⟩
  have hlength := nodup_seats.length_le_of_subset hsubset
  rwa [length_seats, List.length_map] at hlength

/-! ## The shape of the findings -/

/-- The findings about anything but the characters of tokens are those of the rules. -/
theorem filter_rule_findings (text : String) (p : Policy) (required : Bool) :
    (lint text p required).findings.filter (·.checkId != "glyph.token_charset") =
      (ruleViolations (.ofText text) p).map Violation.finding := by
  rw [lint, findings_eq]
  exact (filter_findings fun _ => checkId_eq_charset_iff).2

/-- The findings have a fixed shape.  First comes one for each malformed token, in the order
of the text, and then others whose keys are all different and stand in the fixed order.
There are at most nineteen others, and there can be as many.

The identifiers of all findings are registered, so that the maintenance commands complain
about none of them, neither in a report as it is written nor as it is read back from its
file, masked or not: all that they could find wrong with the file is its form.  And a name
has an explanation if and only if it is registered. -/
theorem findings_canonical :
    (∀ (text : String) (p : Policy) (required : Bool),
      let found := (lint text p required).findings
      let others := found.filter (·.checkId != "glyph.token_charset")
      found = ((Token.extract text).filter (!Token.isWellFormed ·)).map
          (fun u => (Violation.invalidToken u).finding) ++ others ∧
        (others.map Finding.key).Sublist keyOrder ∧
        (others.map Finding.key).Pairwise Precedes ∧
        others.length ≤ 19 ∧
        ∀ g ∈ found, g.checkId ∈ Explain.checkIds ∧ g.code ∈ Explain.codeNames) ∧
    (∃ (text : String) (p : Policy), ∀ required : Bool,
      ((lint text p required).findings.filter
        (·.checkId != "glyph.token_charset")).length = 19) ∧
    (∀ (tool : Tool) (startedAt finishedAt : Timestamp) (text : String) (p : Policy)
        (required : Bool) (name : String),
      let r : Report := ⟨tool, startedAt, finishedAt, lint text p required⟩
      ∃ v, Json.parse r.file = .ok v ∧
        Upkeep.reportErrors name v = Upkeep.schemaErrors name Report.form (Report.mask v) ∧
        ∀ w ∈ [r.toJson, Report.mask r.toJson, v, Report.mask v],
          Upkeep.identifierErrors name w = []) ∧
    ∀ name : String, (Explain.lookup? name).isSome = true ↔
      name ∈ Explain.checkIds ∨ name ∈ Explain.codeNames := by
  have hregistered : ∀ (text : String) (p : Policy) (required : Bool),
      ∀ g ∈ (lint text p required).findings,
        g.checkId ∈ Explain.checkIds ∧ g.code ∈ Explain.codeNames := by
    intro text p required g hg
    obtain ⟨v, -, rfl⟩ := mem_findings_iff.mp hg
    exact Upkeep.registered_finding v
  refine ⟨fun text p required => ?_, ⟨crowdedText, strictPolicy, fun required => ?_⟩, ?_,
    Explain.lookup?_isSome_iff⟩
  · intro found others
    have hothers : others = (ruleViolations (.ofText text) p).map Violation.finding :=
      filter_rule_findings text p required
    have hkeys : (others.map Finding.key).Sublist keyOrder := hothers ▸ map_key_sublist
    refine ⟨?_, hkeys, pairwise_keyOrder.sublist hkeys, ?_, hregistered text p required⟩
    · have hfound : found = (violations (.ofText text) p).map Violation.finding :=
        findings_eq _ _ _
      rw [hothers, hfound, violations_eq, List.map_append, charsetViolations, List.map_map]
      rfl
    · rw [hothers, List.length_map]
      exact length_ruleViolations_le _ _
  · rw [filter_rule_findings, List.length_map, ofText_crowdedText]
    exact length_ruleViolations_crowdedTokens
  · intro tool startedAt finishedAt text p required name r
    have hr : r.Storable := ⟨(Report.storable_lint text p required).1,
      (Report.storable_lint text p required).2⟩
    have hwritten : Upkeep.Identified r.toJson :=
      Upkeep.identified_toJson (hregistered text p required)
    have hread : Upkeep.Identified r.toJson.sorted :=
      Upkeep.identified_sorted (hregistered text p required) hr
    refine ⟨r.toJson.sorted, Json.parse_file (Report.nested_toJson hr) (Report.isWord_toJson hr),
      ?_, ?_⟩
    · rw [Upkeep.reportErrors_eq, hread.mask.identifierErrors, List.append_nil]
    · simp only [List.forall_mem_cons, List.not_mem_nil, false_implies, implies_true, and_true]
      exact ⟨hwritten.identifierErrors name, hwritten.mask.identifierErrors name,
        hread.identifierErrors name, hread.mask.identifierErrors name⟩

end Lint
end GlyphLine

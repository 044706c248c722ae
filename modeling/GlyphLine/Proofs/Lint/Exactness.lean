import GlyphLine.Proofs.Lint.Clauses
import Mathlib.Data.Finset.Empty
import Mathlib.Tactic.Tauto

/-!
# Exactly the violated clauses are reported

What the checks find is compared with the clauses, one check after the other: a check
lists a violation if and only if the violation is due and belongs to the check.  Since
the conditions of the clauses do not look at each other, neither do the checks.

* `mem_violations_iff`: the violations that are listed are those that are due.
* `clauses_sublist`: behind the malformed tokens every clause is listed at most once,
  and in a fixed order.
* `findings_exact`: the findings of a text report exactly the violated clauses.
-/

namespace GlyphLine
namespace Lint

variable {t : TokenSet} {p : Policy} {v : Violation}

/-! ## The facts about a token set -/

section Facts

theorem mem_tokens_of {u : String} : u ∈ (Facts.of t).tokens ↔ u ∈ t.ordered :=
  List.mem_toFinset

theorem hasStart_of {start : String} : (Facts.of t).HasStart start ↔ t.hasStart start = true := by
  rw [Facts.HasStart, TokenSet.hasStart, List.any_eq_true]
  exact exists_congr fun u => and_congr_left fun _ => mem_tokens_of.trans TokenSet.mem_unique.symm

theorem hasBase_of {base : String} : (Facts.of t).HasBase base ↔ t.hasBase base = true := by
  rw [Facts.HasBase, TokenSet.hasBase_iff, hasStart_of, mem_tokens_of]

theorem hasPressure_of {q : Pressure} : (Facts.of t).HasPressure q ↔ t.pressure = some q := by
  rw [Facts.HasPressure, TokenSet.pressure_eq_some_iff, mem_tokens_of]
  exact and_congr_right fun _ => forall_congr' fun _ => imp_congr_left mem_tokens_of

theorem hasTier_of {r : ReadyTier} : (Facts.of t).HasTier r ↔ t.readyTier = some r := by
  rw [TokenSet.readyTier_eq_some_iff]
  cases r <;> simp [Facts.HasTier, mem_tokens_of, ReadyTier.byPriority, ReadyTier.token]

theorem allPlus_of : (Facts.of t).AllPlus ↔ t.rgcaAllPlus = true := by
  rw [Facts.AllPlus, TokenSet.rgcaAllPlus_iff, mem_tokens_of]
  exact or_congr_right (forall₂_congr fun _ _ => mem_tokens_of)

end Facts

theorem mem_when {broken : Bool} {w : Violation} :
    v ∈ when broken w ↔ broken = true ∧ v = w := by
  cases broken <;> simp [when]

/-! ## One check after the other -/

theorem mem_charsetViolations :
    v ∈ charsetViolations t ↔ v.code.check = .tokenCharset ∧ Due (Facts.of t) p v := by
  rw [charsetViolations, List.mem_map]
  constructor
  · rintro ⟨u, hu, rfl⟩
    obtain ⟨hmem, hbad⟩ := TokenSet.mem_malformed.mp hu
    have hmem' := mem_tokens_of.mpr hmem
    exact ⟨rfl, ⟨u, hmem', hbad⟩, hmem', hbad⟩
  · rintro ⟨hcheck, -, htells⟩
    cases v with
    | invalidToken u =>
      exact ⟨u, TokenSet.mem_malformed.mpr ⟨mem_tokens_of.mp htells.1, htells.2⟩, rfl⟩
    | _ => cases hcheck

theorem mem_comboViolations :
    v ∈ comboViolations t ↔ v.code.check = .illegalCombo ∧ Due (Facts.of t) p v := by
  have hp3 : (t.pressure == some .p3) = true ↔ "~P3" ∈ t.ordered := by
    rw [beq_iff_eq, TokenSet.pressure_eq_p3_iff]
  by_cases hpass : "~PASS" ∈ t.ordered
  · rw [comboViolations, if_pos (TokenSet.contains_iff.mpr hpass)]
    simp only [List.mem_append, mem_when, hp3, TokenSet.contains_iff]
    cases v <;> simp [Violation.code, Code.check, Due, Violated, Violation.clause, Tells,
      mem_tokens_of, hpass]
  · rw [comboViolations, if_neg (mt TokenSet.contains_iff.mp hpass)]
    cases v <;> simp [Violation.code, Code.check, Due, Violated, Violation.clause, mem_tokens_of,
      hpass]

/-! ### Readiness -/

theorem mem_missingEvidence {n : String} : n ∈ missingEvidence t ↔ IsMissing (Facts.of t) n := by
  rw [missingEvidence, List.mem_mergeSort, List.mem_append, List.mem_filter, List.mem_map]
  refine or_congr (and_congr_right fun _ => ?_) (exists_congr fun s => ?_)
  · rw [hasBase_of, Bool.not_eq_true', Bool.not_eq_true]
  · rw [List.mem_filter, hasStart_of, Bool.not_eq_true', Bool.not_eq_true, and_assoc]
    exact and_congr_right fun _ => and_comm.trans (and_congr_left fun _ => eq_comm)

/-- The names of all evidence differ from each other. -/
theorem nodup_evidence : (evidenceBases ++ identityStarts.map (· ++ "*")).Nodup := by decide

/-- A list of strings put in order. -/
theorem pairwise_le_sorted (ss : List String) :
    (ss.mergeSort fun s t => decide (s ≤ t)).Pairwise (· ≤ ·) := by
  have h := @List.pairwise_mergeSort String (fun s t => decide (s ≤ t))
    (fun a b c hab hbc => decide_eq_true
      (String.le_trans (of_decide_eq_true hab) (of_decide_eq_true hbc)))
    (fun a b => by simpa using String.le_total a b) ss
  exact h.imp of_decide_eq_true

theorem pairwise_lt_missingEvidence (t : TokenSet) : (missingEvidence t).Pairwise (· < ·) := by
  have hnodup : (missingEvidence t).Nodup := by
    rw [missingEvidence, (List.mergeSort_perm ..).nodup_iff]
    exact nodup_evidence.sublist (List.filter_sublist.append (List.filter_sublist.map _))
  have hle : (missingEvidence t).Pairwise (· ≤ ·) := pairwise_le_sorted _
  exact (hle.and hnodup).imp fun ⟨hle, hne⟩ => Std.lt_of_le_of_ne hle hne

theorem exists_isMissing :
    (∃ n, IsMissing (Facts.of t) n) ↔ missingEvidence t ≠ [] := by
  constructor
  · rintro ⟨n, hn⟩
    exact List.ne_nil_of_mem (mem_missingEvidence.mpr hn)
  · intro h
    obtain ⟨n, hn⟩ := List.exists_mem_of_ne_nil _ h
    exact ⟨n, mem_missingEvidence.mp hn⟩

/-- Something is missing if a base or an identity is. -/
theorem exists_isMissing_iff {f : Facts} :
    (∃ n, IsMissing f n) ↔
      (∃ b ∈ ["~COMMIT", "~HASH", "~JSON", "~ARCH", "~MANI"], ¬ f.HasBase b) ∨
        ∃ s ∈ ["~ENV:", "~RUN:", "~TRACE:", "~ICEMAP:"], ¬ f.HasStart s := by
  constructor
  · rintro ⟨n, hn | ⟨s, hs, -, hno⟩⟩
    · exact .inl ⟨n, hn⟩
    · exact .inr ⟨s, hs, hno⟩
  · rintro (⟨b, hb⟩ | ⟨s, hs, hno⟩)
    · exact ⟨b, .inl hb⟩
    · exact ⟨s ++ "*", .inr ⟨s, hs, rfl, hno⟩⟩

/-- A tier that is in effect is a claim of readiness. -/
theorem hasStart_of_readyTier {r : ReadyTier} (h : t.readyTier = some r) :
    t.hasStart "~READY:" = true := by
  refine TokenSet.hasStart_iff.mpr ⟨r.name, ?_⟩
  have hmem := (TokenSet.readyTier_eq_some_iff.mp h).1
  cases r <;> exact hmem

theorem violated_shot_iff :
    Violated (Facts.of t) p .shot ↔
      (t.readyTier = some .ui ∨ t.readyTier = some .demo) ∧ t.hasBase "~SHOT" = false := by
  rw [← hasTier_of, ← hasTier_of, ← Bool.not_eq_true, ← hasBase_of]
  simp only [Violated, Facts.HasTier]
  tauto

theorem violated_report_iff :
    Violated (Facts.of t) p .report ↔
      t.readyTier = some .demo ∧ t.hasBase "~REPORT" = false := by
  rw [← hasTier_of, ← Bool.not_eq_true, ← hasBase_of]
  simp only [Violated, Facts.HasTier, and_assoc]

/-- What the tier in effect lacks, whether or not evidence is missing. -/
theorem mem_tierViolations :
    v ∈ tierViolations t ↔ (v.clause = .shot ∨ v.clause = .report) ∧ Due (Facts.of t) p v := by
  cases v with
  | missingShot tier =>
    simp only [Due, Violation.clause, violated_shot_iff, Tells, hasTier_of, tierViolations]
    rcases t.readyTier with _ | _ | _ | _ <;> cases tier <;> simp [mem_when]
  | missingReport =>
    simp only [Due, Violation.clause, violated_report_iff, Tells, tierViolations]
    rcases t.readyTier with _ | _ | _ | _ <;> simp [mem_when]
  | _ =>
    simp only [Violation.clause, tierViolations]
    rcases t.readyTier with _ | _ | _ | _ <;> simp [mem_when]

theorem mem_readyViolations :
    v ∈ readyViolations t ↔ v.code.check = .readyEvidence ∧ Due (Facts.of t) p v := by
  by_cases hready : t.hasStart "~READY:" = true
  · rw [readyViolations, if_pos hready, List.mem_append, mem_when, mem_tierViolations (p := p)]
    cases v with
    | missingEvidence names =>
      have hviolated : Violated (Facts.of t) p .evidence ↔ missingEvidence t ≠ [] := by
        rw [Violated, ← exists_isMissing_iff, exists_isMissing, hasStart_of]
        exact and_iff_right hready
      have htells : Tells (Facts.of t) p (.missingEvidence names) ↔ names = missingEvidence t := by
        constructor
        · rintro ⟨hsorted, hmem⟩
          exact eq_of_pairwise_lt hsorted (pairwise_lt_missingEvidence t) fun n =>
            (hmem n).trans mem_missingEvidence.symm
        · rintro rfl
          exact ⟨pairwise_lt_missingEvidence t, fun n => mem_missingEvidence⟩
      simp [Violation.code, Code.check, Due, Violation.clause, hviolated, htells]
    | _ => simp [Violation.code, Code.check, Violation.clause]
  · -- without a claim of readiness nothing is due
    have hnone : t.readyTier = none := by
      rw [Option.eq_none_iff_forall_ne_some]
      exact fun r hr => hready (hasStart_of_readyTier hr)
    rw [readyViolations, if_neg hready]
    cases v with
    | missingEvidence => simp [Due, Violation.clause, Violated, hasStart_of, hready]
    | missingShot => simp [Due, Violation.clause, violated_shot_iff, hnone]
    | missingReport => simp [Due, Violation.clause, violated_report_iff, hnone]
    | _ => simp [Violation.code, Code.check]

/-! ### Load classes -/

section Load

variable {load : String} {c : LoadClass}

/-- The load of a text and its class are unique. -/
theorem hasLoad_iff {f : Facts} (h : f.HasLoad p load c) {load' : String} {c' : LoadClass} :
    f.HasLoad p load' c' ↔ load' = load ∧ c' = c := by
  constructor
  · rintro ⟨hload, hc⟩
    obtain rfl := Option.some_inj.mp (hload.symm.trans h.1)
    exact ⟨rfl, Option.some_inj.mp (hc.symm.trans h.2)⟩
  · rintro ⟨rfl, rfl⟩
    exact h

theorem missingProbes_eq :
    missingProbes t c = c.probes.filter fun name => "~PROBE:" ++ name ∉ (Facts.of t).tokens := by
  refine List.filter_congr fun name _ => ?_
  rw [Bool.eq_iff_iff, Bool.not_eq_true', ← Bool.not_eq_true, List.contains_iff_mem,
    TokenSet.mem_valuesWith, decide_eq_true_iff, mem_tokens_of]

theorem activeVetoes_eq :
    activeVetoes t c = c.vetoSignals.filter fun name => "~SIG:" ++ name ∈ (Facts.of t).tokens := by
  refine List.filter_congr fun name _ => ?_
  rw [Bool.eq_iff_iff, List.contains_iff_mem, TokenSet.mem_valuesWith, decide_eq_true_iff,
    mem_tokens_of]

variable (h : (Facts.of t).HasLoad p load c)
include h

theorem mem_pressureViolations :
    v ∈ pressureViolations t load c ↔
      (v.clause = .noPressure ∨ v.clause = .lowPressure) ∧ Due (Facts.of t) p v := by
  have hload : (Facts.of t).load = some load := h.1
  cases v with
  | missingPressure load' =>
    simp only [Due, Violation.clause, Violated, Tells, hload, hasLoad_iff h, pressureViolations,
      mem_tokens_of, ← TokenSet.pressure_eq_none_iff]
    rcases t.pressure with _ | q <;> simp [mem_when, eq_comm]
  | pressureTooLow load' required actual =>
    simp only [Due, Violation.clause, Violated, Tells, hasLoad_iff h, hasPressure_of,
      pressureViolations]
    rcases t.pressure with _ | q
    · simp
    · simp [mem_when, and_assoc, @eq_comm Pressure q]
  | _ =>
    simp only [Violation.clause, pressureViolations]
    rcases t.pressure with _ | q <;> simp [mem_when]

theorem mem_namingViolations :
    v ∈ namingViolations t load p ↔
      (v.clause = .unnamed ∨ v.clause = .misnamed) ∧ Due (Facts.of t) p v := by
  have hload : (Facts.of t).load = some load := h.1
  have hnamed : (Facts.of t).named = t.firstValue "~ICEMAP:" := rfl
  have hsensitive : Policy.sensitiveLoads.contains load = true ↔
      load ∈ ["prod", "public", "pay"] := List.contains_iff_mem
  cases v with
  | missingIcemap load' id =>
    simp only [Due, Violation.clause, Violated, Tells, hload, hnamed, hasLoad_iff h,
      namingViolations, List.mem_append, mem_when, Bool.and_eq_true, hsensitive]
    rcases t.firstValue "~ICEMAP:" with _ | named
    · simp [@eq_comm _ load', and_comm]
    · simp [mem_when]
  | icemapMismatch declared id =>
    simp only [Due, Violation.clause, Violated, Tells, hnamed, hasLoad_iff h,
      namingViolations, List.mem_append, mem_when]
    rcases t.firstValue "~ICEMAP:" with _ | named
    · simp
    · simp [mem_when, @eq_comm _ named]
  | _ =>
    simp only [Violation.clause, namingViolations, List.mem_append, mem_when]
    rcases t.firstValue "~ICEMAP:" with _ | named <;> simp [mem_when]

theorem mem_signalViolations :
    v ∈ signalViolations t load c ↔
      (v.clause = .probes ∨ v.clause = .veto) ∧ Due (Facts.of t) p v := by
  rw [signalViolations, List.mem_append, mem_when, mem_when, Bool.and_eq_true,
    TokenSet.contains_iff, missingProbes_eq, activeVetoes_eq]
  cases v with
  | missingProbes load' probes =>
    simp only [Due, Violation.clause, Violated, Tells, hasLoad_iff h]
    simp
  | vetoSignal load' signals =>
    simp only [Due, Violation.clause, Violated, Tells, hasLoad_iff h]
    simp [mem_tokens_of, and_comm]
  | _ => simp [Violation.clause]

end Load

theorem mem_loadViolations :
    v ∈ loadViolations t p ↔ v.code.check = .icemap ∧ Due (Facts.of t) p v := by
  rcases hload : t.firstValue "~LOAD:" with _ | load
  · -- no load is named, and so none of the clauses is violated
    have hno : ∀ load, (Facts.of t).load ≠ some load := fun load h => by
      rw [Facts.of, hload] at h
      exact absurd h (by simp)
    rw [loadViolations, hload]
    cases v <;> simp [Violation.code, Code.check, Due, Violated, Violation.clause, Facts.HasLoad, hno]
  · have hfact : (Facts.of t).load = some load := hload
    rcases hc : p.load? load with _ | c
    · simp only [loadViolations, hload, hc, List.mem_singleton]
      cases v with
      | unknownLoad load' id known =>
        simp [Violation.code, Code.check, Due, Violated, Violation.clause, Tells, hfact, hc, eq_comm]
      | _ =>
        simp [Violation.code, Code.check, Due, Violated, Violation.clause, Facts.HasLoad, hfact, hc]
    · have h : (Facts.of t).HasLoad p load c := ⟨hfact, hc⟩
      simp only [loadViolations, hload, hc, List.mem_append, mem_pressureViolations h,
        mem_namingViolations h, mem_signalViolations h, ← or_and_right]
      refine and_congr_left fun hdue => ?_
      cases v with
      | unknownLoad =>
        obtain ⟨⟨load', hload', hnone⟩, -⟩ := hdue
        obtain rfl := Option.some_inj.mp (hfact.symm.trans hload')
        exact absurd (hc.symm.trans hnone) (by simp)
      | _ => simp [Violation.clause, Violation.code, Code.check]

/-! ### Official claims -/

/-- A requirement is not met if it asks for something and the tokens do not have it. -/
theorem unmet_iff {o : Official} {r : Requirement} :
    Unmet (Facts.of t) o r ↔ (∃ need, need? o r = some need) ∧ isMet o t r = false := by
  have hrun : (Facts.of t).run = t.firstValue "~RUN:" := rfl
  cases r with
  | env =>
    have hnone : t.firstValue "~ENV:" = none ↔ ¬ (Facts.of t).HasStart "~ENV:" := by
      rw [hasStart_of, TokenSet.hasStart_iff, TokenSet.firstValue_eq_none_iff, not_exists]
    simp [Unmet, need?, isMet, hnone]
  | runMustBe =>
    simp only [Unmet, need?, isMet, hrun]
    rcases t.firstValue "~RUN:" with _ | run
    · simp
    · rcases o.runMustBe with _ | want
      · simp
      · simp [@eq_comm _ want]
  | readyTier =>
    simp only [Unmet, need?, isMet, hasTier_of]
    rcases o.readyTier with _ | tier <;> simp
  | _ =>
    simp [Unmet, need?, isMet, hrun, mem_tokens_of, allPlus_of, ← TokenSet.contains_iff]

theorem unmet?_eq_some_iff {r : Requirement} :
    unmet? t p r = some v ↔
      ∃ need, need? p.official r = some need ∧ isMet p.official t r = false ∧
        v = .unmet r need p.id := by
  rw [unmet?]
  rcases need? p.official r with _ | need
  · simp
  · rcases isMet p.official t r with _ | _ <;> simp [eq_comm]

theorem mem_officialViolations :
    v ∈ officialViolations t p ↔ v.code.check = .officialClaim ∧ Due (Facts.of t) p v := by
  by_cases hclaim : "~DEMO:official" ∈ t.ordered
  · have hall : ∀ r : Requirement, r ∈ Requirement.all := fun r => by cases r <;> decide
    rw [officialViolations, officialToken, if_pos (TokenSet.contains_iff.mpr hclaim),
      List.mem_filterMap]
    simp only [hall, true_and, unmet?_eq_some_iff]
    cases v with
    | unmet r need id =>
      simp only [Violation.unmet.injEq, Due, Violated, Violation.clause, Tells, unmet_iff,
        mem_tokens_of, hclaim, true_and]
      constructor
      · rintro ⟨r, need, hneed, hmet, rfl, rfl, rfl⟩
        exact ⟨rfl, ⟨⟨need, hneed⟩, hmet⟩, hneed, rfl⟩
      · rintro ⟨-, ⟨-, hmet⟩, hneed, hid⟩
        exact ⟨r, need, hneed, hmet, rfl, rfl, hid⟩
    | _ => simp [Violation.code, Code.check]
  · rw [officialViolations, officialToken, if_neg (mt TokenSet.contains_iff.mp hclaim)]
    cases v <;> simp [Violation.code, Code.check, Due, Violated, Violation.clause, mem_tokens_of,
      hclaim]

/-! ### All checks -/

/-- The violations that are listed are those that are due. -/
theorem mem_violations_iff : v ∈ violations t p ↔ Due (Facts.of t) p v := by
  have hcheck : ∀ c : Check, v ∈ violationsOf t p c ↔ v.code.check = c ∧ Due (Facts.of t) p v := by
    intro c
    cases c with
    | tokenCharset => exact mem_charsetViolations
    | illegalCombo => exact mem_comboViolations
    | readyEvidence => exact mem_readyViolations
    | icemap => exact mem_loadViolations
    | officialClaim => exact mem_officialViolations
  have hall : ∀ c : Check, c ∈ Check.all := fun c => by cases c <;> decide
  rw [violations, List.mem_flatMap]
  constructor
  · rintro ⟨c, -, hv⟩
    exact ((hcheck c).mp hv).2
  · intro hdue
    exact ⟨v.code.check, hall _, (hcheck _).mpr ⟨rfl, hdue⟩⟩

/-- A violated clause has a violation that is due. -/
theorem exists_due {c : Clause} (h : Violated (Facts.of t) p c) :
    ∃ v : Violation, v.clause = c ∧ Due (Facts.of t) p v := by
  cases c with
  | charset =>
    obtain ⟨u, hu, hbad⟩ := h
    exact ⟨.invalidToken u, rfl, ⟨u, hu, hbad⟩, hu, hbad⟩
  | freeze => exact ⟨.freezeForbidsPass, rfl, h, trivial⟩
  | iceFail => exact ⟨.iceFailForbidsPass, rfl, h, trivial⟩
  | zdmMismatch => exact ⟨.zdmMismatchForbidsPass, rfl, h, trivial⟩
  | evidence =>
    exact ⟨.missingEvidence (missingEvidence t), rfl, h, pairwise_lt_missingEvidence t,
      fun n => mem_missingEvidence⟩
  | shot =>
    rcases (violated_shot_iff.mp h).1 with htier | htier
    · exact ⟨.missingShot .ui, rfl, h, hasTier_of.mpr htier⟩
    · exact ⟨.missingShot .demo, rfl, h, hasTier_of.mpr htier⟩
  | report => exact ⟨.missingReport, rfl, h, trivial⟩
  | unknownLoad =>
    obtain ⟨load, hload, hnone⟩ := h
    exact ⟨.unknownLoad load p.id p.loads.names, rfl, ⟨load, hload, hnone⟩, hload, rfl, rfl⟩
  | noPressure =>
    obtain ⟨load, c, hload, hno⟩ := h
    exact ⟨.missingPressure load, rfl, ⟨load, c, hload, hno⟩, hload.1⟩
  | lowPressure =>
    obtain ⟨load, c, q, hload, hq, hlow⟩ := h
    exact ⟨.pressureTooLow load c.minPressure q, rfl, ⟨load, c, q, hload, hq, hlow⟩,
      ⟨c, hload, rfl⟩, hq⟩
  | unnamed =>
    obtain ⟨load, c, hload, hrest⟩ := h
    exact ⟨.missingIcemap load p.id, rfl, ⟨load, c, hload, hrest⟩, hload.1, rfl⟩
  | misnamed =>
    obtain ⟨load, c, id, hload, hid, hne⟩ := h
    exact ⟨.icemapMismatch id p.id, rfl, ⟨load, c, id, hload, hid, hne⟩, hid, rfl⟩
  | probes =>
    obtain ⟨load, c, hload, hrest⟩ := h
    exact ⟨.missingProbes load _, rfl, ⟨load, c, hload, hrest⟩, c, hload, rfl⟩
  | veto =>
    obtain ⟨load, c, hload, hrest⟩ := h
    exact ⟨.vetoSignal load _, rfl, ⟨load, c, hload, hrest⟩, c, hload, rfl⟩
  | unmet r =>
    obtain ⟨need, hneed⟩ := (unmet_iff.mp h.2).1
    exact ⟨.unmet r need p.id, rfl, h, hneed, rfl⟩

/-! ## One violation of a clause -/

/-- The violations of all checks but the one of the tokens' characters. -/
def ruleViolations (t : TokenSet) (p : Policy) : List Violation :=
  comboViolations t ++ readyViolations t ++ loadViolations t p ++ officialViolations t p

theorem violations_eq (t : TokenSet) (p : Policy) :
    violations t p = charsetViolations t ++ ruleViolations t p := by
  simp [violations, ruleViolations, Check.all, violationsOf]

theorem clause_of_mem_charsetViolations (h : v ∈ charsetViolations t) : v.clause = .charset := by
  obtain ⟨u, -, rfl⟩ := List.mem_map.mp h
  rfl

theorem sublist_when {broken : Bool} {w : Violation} :
    ((when broken w).map Violation.clause).Sublist [w.clause] := by
  cases broken with
  | false => exact List.nil_sublist _
  | true => exact List.Sublist.refl _

theorem comboViolations_sublist :
    ((comboViolations t).map Violation.clause).Sublist [.freeze, .iceFail, .zdmMismatch] := by
  rw [comboViolations]
  split
  · rw [List.map_append, List.map_append]
    exact (sublist_when.append sublist_when).append sublist_when
  · exact List.nil_sublist _

theorem tierViolations_sublist :
    ((tierViolations t).map Violation.clause).Sublist [.shot, .report] := by
  rw [tierViolations]
  split
  · exact sublist_when.trans (List.sublist_append_left [Clause.shot] _)
  · rw [List.map_append]
    exact sublist_when.append sublist_when
  · exact List.nil_sublist _

theorem readyViolations_sublist :
    ((readyViolations t).map Violation.clause).Sublist [.evidence, .shot, .report] := by
  rw [readyViolations]
  split
  · rw [List.map_append]
    exact sublist_when.append tierViolations_sublist
  · exact List.nil_sublist _

theorem pressureViolations_sublist {load : String} {c : LoadClass} :
    ((pressureViolations t load c).map Violation.clause).Sublist [.noPressure, .lowPressure] := by
  rw [pressureViolations]
  split
  · exact List.sublist_append_left [Clause.noPressure] _
  · exact sublist_when.cons Clause.noPressure

theorem namingViolations_sublist {load : String} :
    ((namingViolations t load p).map Violation.clause).Sublist [.unnamed, .misnamed] := by
  rw [namingViolations, List.map_append]
  refine sublist_when.append ?_
  split
  · exact sublist_when
  · exact List.nil_sublist _

theorem signalViolations_sublist {load : String} {c : LoadClass} :
    ((signalViolations t load c).map Violation.clause).Sublist [.probes, .veto] := by
  rw [signalViolations, List.map_append]
  exact sublist_when.append sublist_when

theorem loadViolations_sublist :
    ((loadViolations t p).map Violation.clause).Sublist
      [.unknownLoad, .noPressure, .lowPressure, .unnamed, .misnamed, .probes, .veto] := by
  rw [loadViolations]
  split
  · exact List.nil_sublist _
  · split
    · exact List.sublist_append_left [Clause.unknownLoad] _
    · rw [List.map_append, List.map_append]
      exact ((pressureViolations_sublist.append namingViolations_sublist).append
        signalViolations_sublist).cons Clause.unknownLoad

theorem unmet_sublist (rs : List Requirement) :
    ((rs.filterMap (unmet? t p)).map Violation.clause).Sublist (rs.map .unmet) := by
  induction rs with
  | nil => exact List.Sublist.refl _
  | cons r rs ih =>
    rw [List.filterMap_cons, List.map_cons]
    split
    · exact ih.cons _
    · next v hv =>
      obtain ⟨need, -, -, rfl⟩ := unmet?_eq_some_iff.mp hv
      exact ih.cons_cons _

theorem officialViolations_sublist :
    ((officialViolations t p).map Violation.clause).Sublist (Requirement.all.map .unmet) := by
  rw [officialViolations]
  split
  · exact unmet_sublist _
  · exact List.nil_sublist _

/-- Behind the malformed tokens the clauses come in their order, each at most once. -/
theorem clauses_sublist :
    ((ruleViolations t p).map Violation.clause).Sublist Clause.all.tail := by
  rw [ruleViolations, List.map_append, List.map_append, List.map_append]
  exact ((comboViolations_sublist.append readyViolations_sublist).append
    loadViolations_sublist).append officialViolations_sublist

theorem nodup_clauses : Clause.all.tail.Nodup := by decide

theorem nodup_map_clause : ((ruleViolations t p).map Violation.clause).Nodup :=
  nodup_clauses.sublist clauses_sublist

theorem clause_ne_charset (h : v ∈ ruleViolations t p) : v.clause ≠ .charset := by
  have hmem : v.clause ∈ Clause.all.tail :=
    clauses_sublist.subset (List.mem_map_of_mem h)
  rintro hc
  rw [hc] at hmem
  exact absurd hmem (by decide)

/-! ## Findings -/

theorem Clause.code_eq_iff {c d : Clause} (h : ∀ r, c ≠ .unmet r) : d.code = c.code ↔ d = c := by
  refine ⟨fun hcode => ?_, congrArg Clause.code⟩
  cases c with
  | unmet r => exact absurd rfl (h r)
  | _ => cases d <;> first | rfl | cases hcode

/-- A violation is reported as one of its own clause. -/
theorem reports_finding_iff {c : Clause} : Reports v.finding c ↔ v.clause = c := by
  by_cases hc : ∃ r, c = .unmet r
  · obtain ⟨r, rfl⟩ := hc
    have hcode : Reports v.finding (.unmet r) → v.code = .unmetRequirement :=
      fun h => Code.name_injective h.1
    cases v with
    | unmet r' need id =>
      have hdata : (Violation.unmet r' need id).finding.data.member? "requirement" =
          some (.string r'.key) := by
        simp [Violation.finding, Violation.data, Json.member?, List.lookup_cons]
      rw [Reports, hdata, Option.some_inj, Json.string.injEq]
      constructor
      · rintro ⟨-, hkey⟩
        rw [Violation.clause, Requirement.key_injective hkey]
      · intro h
        rw [Clause.unmet.inj h]
        exact ⟨rfl, rfl⟩
    | _ =>
      constructor
      · intro h
        cases hcode h
      · intro h
        cases h
  · have hne : ∀ r, c ≠ .unmet r := fun r hr => hc ⟨r, hr⟩
    have hreports : Reports v.finding c ↔ v.code.name = c.code.name := by
      cases c with
      | unmet r => exact absurd rfl (hne r)
      | _ => exact Iff.rfl
    rw [hreports, ← Clause.code_eq_iff hne, Violation.code_clause]
    exact ⟨Code.name_injective, congrArg Code.name⟩

theorem tokens_eq_empty_iff {t : TokenSet} : (Facts.of t).tokens = ∅ ↔ t.isEmpty = true := by
  rw [TokenSet.isEmpty_iff, Finset.eq_empty_iff_forall_notMem, List.eq_nil_iff_forall_not_mem]
  exact forall_congr' fun u => not_congr mem_tokens_of

/-- A test that tells the first check from the others parts their findings. -/
theorem filter_findings {q : Finding → Bool}
    (hq : ∀ v : Violation, q v.finding = true ↔ v.clause = .charset) :
    ((violations t p).map Violation.finding).filter q =
        (charsetViolations t).map Violation.finding ∧
      ((violations t p).map Violation.finding).filter (fun g => !q g) =
        (ruleViolations t p).map Violation.finding := by
  have hcharset : ∀ g ∈ (charsetViolations t).map Violation.finding, q g = true := by
    intro g hg
    obtain ⟨v, hv, rfl⟩ := List.mem_map.mp hg
    exact (hq v).mpr (clause_of_mem_charsetViolations hv)
  have hrule : ∀ g ∈ (ruleViolations t p).map Violation.finding, ¬ q g = true := by
    intro g hg
    obtain ⟨v, hv, rfl⟩ := List.mem_map.mp hg
    exact mt (hq v).mp (clause_ne_charset hv)
  rw [violations_eq, List.map_append, List.filter_append, List.filter_append]
  constructor
  · rw [List.filter_eq_self.mpr hcharset, List.filter_eq_nil_iff.mpr hrule, List.append_nil]
  · rw [List.filter_eq_nil_iff.mpr, List.filter_eq_self.mpr, List.nil_append]
    · exact fun g hg => by simpa using hrule g hg
    · exact fun g hg => by simpa using hcharset g hg

theorem code_eq_charset_iff :
    (v.finding.code == "invalid_token_characters") = true ↔ v.clause = .charset := by
  rw [beq_iff_eq]
  exact reports_finding_iff (c := .charset)

/-- No two findings of the rules are about one clause. -/
theorem pairwise_rule_findings :
    ((ruleViolations t p).map Violation.finding).Pairwise
      (fun g h => ¬ ∃ c, Reports g c ∧ Reports h c) := by
  rw [List.pairwise_map]
  refine (List.pairwise_map.mp nodup_map_clause).imp fun hne => ?_
  rintro ⟨c, hv, hw⟩
  exact hne ((reports_finding_iff.mp hv).trans (reports_finding_iff.mp hw).symm)

/-- The findings of a text report exactly the violated clauses.  Unless adoption is
required and there is no token, a clause is reported if and only if it is violated, by
one finding with the details of the text and the policy; only the malformed tokens are
reported one by one, in their order and as often as they occur. -/
theorem findings_exact (text : String) (p : Policy) (required : Bool) :
    let f := Facts.of (.ofText text)
    let o := lint text p required
    if required = true ∧ f.tokens = ∅ then o.verdict = .noAdoption ∧ o.findings = []
    else
      (∀ c, (∃ g ∈ o.findings, Reports g c) ↔ Violated f p c) ∧
      (∀ g, g ∈ o.findings ↔ ∃ v, g = v.finding ∧ Due f p v) ∧
      o.findings.filter (·.code == "invalid_token_characters") =
        ((Token.extract text).filter (!Token.isWellFormed ·)).map
          (fun u => (Violation.invalidToken u).finding) ∧
      (o.findings.filter (·.code != "invalid_token_characters")).Pairwise
        (fun g h => ¬ ∃ c, Reports g c ∧ Reports h c) ∧
      o.verdict ≠ .noAdoption ∧ (o.verdict = .pass ↔ ∀ c, ¬ Violated f p c) := by
  intro f o
  have hunadopted : (required = true ∧ f.tokens = ∅) ↔
      isUnadopted (.ofText text) required = true := by
    rw [isUnadopted, Bool.and_eq_true, tokens_eq_empty_iff]
  by_cases hadopt : isUnadopted (.ofText text) required = true
  · rw [if_pos (hunadopted.mpr hadopt)]
    have ho : o = ⟨.noAdoption, [], summary (.ofText text) p required 0⟩ := by
      simp only [o, lint, lintTokens, if_pos hadopt]
    rw [ho]
    exact ⟨rfl, rfl⟩
  · rw [if_neg (mt hunadopted.mp hadopt)]
    have hfindings : o.findings = (violations (.ofText text) p).map Violation.finding := by
      simp only [o, lint, lintTokens, if_neg hadopt]
    have hverdict : o.verdict = Verdict.of (violations (.ofText text) p) := by
      simp only [o, lint, lintTokens, if_neg hadopt]
    have hmem : ∀ g, g ∈ o.findings ↔ ∃ v, g = v.finding ∧ Due f p v := fun g => by
      rw [hfindings, List.mem_map]
      exact exists_congr fun v => (and_congr mem_violations_iff eq_comm).trans and_comm
    have hclause : ∀ c, (∃ g ∈ o.findings, Reports g c) ↔ Violated f p c := by
      intro c
      constructor
      · rintro ⟨g, hg, hreports⟩
        obtain ⟨v, rfl, hdue⟩ := (hmem g).mp hg
        rw [← reports_finding_iff.mp hreports]
        exact hdue.1
      · intro hviolated
        obtain ⟨v, rfl, hdue⟩ := exists_due hviolated
        exact ⟨v.finding, (hmem _).mpr ⟨v, rfl, hdue⟩, reports_finding_iff.mpr rfl⟩
    have hparts := filter_findings (t := .ofText text) (p := p)
      (q := fun g => g.code == "invalid_token_characters") fun _ => code_eq_charset_iff
    refine ⟨hclause, hmem, ?_, ?_, ?_, ?_⟩
    · rw [hfindings, hparts.1, charsetViolations, List.map_map]
      rfl
    · rw [hfindings]
      exact hparts.2 ▸ pairwise_rule_findings
    · rw [hverdict, Verdict.of]
      split <;> exact Verdict.noConfusion
    · have hpass : o.verdict = .pass ↔ o.findings = [] := by
        rw [hverdict, hfindings, Verdict.of, List.map_eq_nil_iff, ← List.isEmpty_iff]
        split <;> simp [*]
      rw [hpass, List.eq_nil_iff_forall_not_mem]
      constructor
      · intro hnone c hviolated
        obtain ⟨g, hg, -⟩ := (hclause c).mpr hviolated
        exact hnone g hg
      · intro hno g hg
        obtain ⟨v, -, hdue⟩ := (hmem g).mp hg
        exact hno _ hdue.1

end Lint
end GlyphLine

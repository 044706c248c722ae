import GlyphLine.Proofs.Lint.Order

/-!
# Findings and the verdict

A finding carries the identifiers of its check and its code and, if an official claim
lacks something, the key of the requirement.  These fix the clause that the finding is
about, and are all that a program needs to tell findings apart.

* `Finding.key`, `Finding.identifiers`: what names the clause of a finding.
* `mem_findings_iff`: the findings of a text are the violations that are due.
* `exists_finding_iff`: the codes of the findings are those of the violated clauses.
* `verdict_eq_pass_iff`, `verdict_eq_noAdoption_iff`: what the verdicts say.
-/

namespace GlyphLine
namespace Lint

variable {t : TokenSet} {p : Policy} {required : Bool} {v : Violation}

/-! ## What names a clause -/

/-- The key of the requirement that a finding is about, if it is about one. -/
def Finding.requirement? (g : Finding) : Option String :=
  (g.data.member? "requirement").bind Json.string?

/-- The key of a finding: that of its requirement, or else its code. -/
def Finding.key (g : Finding) : String := g.requirement?.getD g.code

/-- The identifiers of a finding: of its check, of its code, and of its requirement. -/
def Finding.identifiers (g : Finding) : String × String × Option String :=
  (g.checkId, g.code, g.requirement?)

/-- The key of the requirement that a clause asks for, if it asks for one. -/
def Clause.requirement? : Clause → Option String
  | .unmet r => some r.key
  | _ => none

/-- The key of a clause. -/
def Clause.key (c : Clause) : String := c.requirement?.getD c.code.name

/-- The identifiers of a clause. -/
def Clause.identifiers (c : Clause) : String × String × Option String :=
  (c.code.check.id, c.code.name, c.requirement?)

theorem requirement?_finding (v : Violation) : v.finding.requirement? = v.clause.requirement? := by
  cases v <;>
    simp [Finding.requirement?, Violation.finding, Violation.data, Violation.pairData,
      Json.member?, Json.string?, List.lookup_cons, Violation.clause, Clause.requirement?]

theorem identifiers_finding (v : Violation) : v.finding.identifiers = v.clause.identifiers := by
  rw [Finding.identifiers, requirement?_finding, Clause.identifiers, Violation.code_clause]
  rfl

theorem key_finding (v : Violation) : v.finding.key = v.clause.key := by
  rw [Finding.key, requirement?_finding, Clause.key, Violation.code_clause]
  rfl

theorem mem_all_clauses (c : Clause) : c ∈ Clause.all := by
  cases c with
  | unmet r => cases r <;> decide
  | _ => decide

/-- Clauses are told apart by their keys. -/
theorem Clause.key_injective {c d : Clause} (h : c.key = d.key) : c = d := by
  have left : ∀ c ∈ Clause.all, Clause.all.find? (fun d => d.key == c.key) = some c := by decide
  have hc := left c (mem_all_clauses c)
  rw [h, left d (mem_all_clauses d)] at hc
  exact (Option.some_inj.mp hc).symm

/-! ## The outcome -/

theorem lintTokens_of_unadopted (h : isUnadopted t required = true) :
    lintTokens t p required = ⟨.noAdoption, [], summary t p required 0⟩ := by
  rw [lintTokens, if_pos h]

theorem lintTokens_of_adopted (h : isUnadopted t required = false) :
    lintTokens t p required = ⟨.of (violations t p), (violations t p).map Violation.finding,
      summary t p required (violations t p).length⟩ := by
  rw [lintTokens, if_neg (Bool.eq_false_iff.mp h)]

/-- A text with a token is adopted. -/
theorem isUnadopted_eq_false_of_mem {u : String} (h : u ∈ t.ordered) :
    isUnadopted t required = false := by
  rw [isUnadopted, Bool.and_eq_false_iff]
  refine .inr (Bool.eq_false_iff.mpr fun hempty => ?_)
  rw [TokenSet.isEmpty_iff.mp hempty] at h
  exact List.not_mem_nil h

/-- Without tokens nothing is violated: every clause asks for one. -/
theorem violations_eq_nil_of_unadopted (h : isUnadopted t required = true) :
    violations t p = [] := by
  have hempty : t.ordered = [] := TokenSet.isEmpty_iff.mp ((Bool.and_eq_true_iff.mp h).2)
  have ht : t = ⟨[]⟩ := congrArg TokenSet.mk hempty
  rw [ht]
  rfl

/-- The findings are the violations as they are reported, whether or not adoption is
required. -/
theorem findings_eq (t : TokenSet) (p : Policy) (required : Bool) :
    (lintTokens t p required).findings = (violations t p).map Violation.finding := by
  cases h : isUnadopted t required with
  | true => rw [lintTokens_of_unadopted h, violations_eq_nil_of_unadopted h]; rfl
  | false => rw [lintTokens_of_adopted h]

theorem mem_findings_iff {g : Finding} :
    g ∈ (lintTokens t p required).findings ↔ ∃ v, Due (Facts.of t) p v ∧ v.finding = g := by
  rw [findings_eq, List.mem_map]
  exact exists_congr fun v => and_congr_left fun _ => mem_violations_iff

/-- A finding with a code is there if a clause with this code is violated. -/
theorem exists_finding_iff {c : Code} :
    (∃ g ∈ (lintTokens t p required).findings, g.code = c.name) ↔
      ∃ k ∈ Clause.all, k.code = c ∧ Violated (Facts.of t) p k := by
  constructor
  · rintro ⟨g, hg, hcode⟩
    obtain ⟨v, hdue, rfl⟩ := mem_findings_iff.mp hg
    exact ⟨v.clause, mem_all_clauses _, v.code_clause.trans (Code.name_injective hcode), hdue.1⟩
  · rintro ⟨k, -, rfl, hk⟩
    obtain ⟨v, rfl, hdue⟩ := exists_due hk
    exact ⟨v.finding, mem_findings_iff.mpr ⟨v, hdue, rfl⟩, congrArg Code.name v.code_clause.symm⟩

theorem findings_eq_nil_of_not_violated (h : ∀ k, ¬ Violated (Facts.of t) p k) :
    (lintTokens t p required).findings = [] := by
  refine List.eq_nil_iff_forall_not_mem.mpr fun g hg => ?_
  obtain ⟨v, hdue, -⟩ := mem_findings_iff.mp hg
  exact h v.clause hdue.1

/-- The clauses of the rules that are violated. -/
theorem mem_map_clause_iff {c : Clause} :
    c ∈ (ruleViolations t p).map Violation.clause ↔
      Violated (Facts.of t) p c ∧ c ≠ .charset := by
  rw [List.mem_map]
  constructor
  · rintro ⟨v, hv, rfl⟩
    obtain ⟨hdue, hne⟩ := mem_ruleViolations_iff.mp hv
    exact ⟨hdue.1, hne⟩
  · rintro ⟨hc, hne⟩
    obtain ⟨v, rfl, hdue⟩ := exists_due hc
    exact ⟨v, mem_ruleViolations_iff.mpr ⟨hdue, hne⟩, rfl⟩

theorem map_identifiers (t : TokenSet) (p : Policy) (required : Bool) :
    (lintTokens t p required).findings.map Finding.identifiers =
      ((violations t p).map Violation.clause).map Clause.identifiers := by
  rw [findings_eq, List.map_map, List.map_map]
  exact List.map_congr_left fun v _ => identifiers_finding v

theorem verdict_eq_noAdoption_iff :
    (lintTokens t p required).verdict = .noAdoption ↔ isUnadopted t required = true := by
  cases h : isUnadopted t required with
  | true => simp [lintTokens_of_unadopted h]
  | false =>
    rw [lintTokens_of_adopted h, Verdict.of]
    split <;> simp

/-- A text passes if it is adopted and no clause is violated. -/
theorem verdict_eq_pass_iff :
    (lintTokens t p required).verdict = .pass ↔
      isUnadopted t required = false ∧ ∀ c, ¬ Violated (Facts.of t) p c := by
  cases h : isUnadopted t required with
  | true => rw [lintTokens_of_unadopted h]; simp
  | false =>
    rw [lintTokens_of_adopted h, Verdict.of]
    have hnil : (violations t p).isEmpty = true ↔ ∀ c, ¬ Violated (Facts.of t) p c := by
      rw [List.isEmpty_iff, List.eq_nil_iff_forall_not_mem]
      constructor
      · intro hno c hc
        obtain ⟨v, -, hdue⟩ := exists_due hc
        exact hno v (mem_violations_iff.mpr hdue)
      · exact fun hno v hv => hno v.clause (mem_violations_iff.mp hv).1
    rw [← hnil]
    split <;> simp [*]

/-- A text with a finding fails. -/
theorem verdict_eq_fail_of_mem {g : Finding} (h : g ∈ (lintTokens t p required).findings) :
    (lintTokens t p required).verdict = .fail := by
  cases hverdict : (lintTokens t p required).verdict with
  | fail => rfl
  | pass =>
    obtain ⟨v, hdue, -⟩ := mem_findings_iff.mp h
    exact absurd hdue.1 ((verdict_eq_pass_iff.mp hverdict).2 v.clause)
  | noAdoption =>
    rw [lintTokens_of_unadopted (verdict_eq_noAdoption_iff.mp hverdict)] at h
    exact absurd h List.not_mem_nil

/-- A text that does not fail has no findings. -/
theorem findings_eq_nil_of_ne_fail (h : (lintTokens t p required).verdict ≠ .fail) :
    (lintTokens t p required).findings = [] :=
  List.eq_nil_iff_forall_not_mem.mpr fun _ hg => h (verdict_eq_fail_of_mem hg)

end Lint
end GlyphLine

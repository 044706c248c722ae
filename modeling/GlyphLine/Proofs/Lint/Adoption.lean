import GlyphLine.Proofs.Lint.Findings

/-!
# Requiring adoption hides nothing

Where adoption is required, a text without tokens is turned away before any check is made.
Nothing is lost by that, however strict the policy is: every clause asks for a token, so the
checks would have found nothing, and the summary of no tokens is the same for both.

* `summary_lintTokens_eq`: the summary counts the violations, whether or not the checks are made.
* `adoption_changes_verdict_only`: the two outcomes of a text.
-/

namespace GlyphLine
namespace Lint

variable {t : TokenSet} {p : Policy} {required : Bool}

/-- The summary is that of the tokens and of all violations. -/
theorem summary_lintTokens_eq (t : TokenSet) (p : Policy) (required : Bool) :
    (lintTokens t p required).summary = summary t p required (violations t p).length := by
  cases h : isUnadopted t required with
  | true => rw [lintTokens_of_unadopted h, violations_eq_nil_of_unadopted h]; rfl
  | false => rw [lintTokens_of_adopted h]

/-- What a summary says of a text without tokens. -/
structure Summary.IsBlank (s : Summary) : Prop where
  scanned : s.scanned = 0
  unique : s.unique = 0
  malformed : s.malformed = 0
  findings : s.findings = 0
  load : s.load = none
  pressure : s.pressure = none
  readyTier : s.readyTier = none

theorem isBlank_summary (p : Policy) (required : Bool) :
    (summary ⟨[]⟩ p required 0).IsBlank where
  scanned := by rfl
  unique := by rfl
  malformed := by rfl
  findings := by rfl
  load := by rfl
  pressure := by rfl
  readyTier := by rfl

/-- A text without tokens passes if it need not have any. -/
theorem verdict_of_empty (p : Policy) : (lintTokens ⟨[]⟩ p false).verdict = .pass := by rfl

/-- The findings of a text and its summary are the same whether or not adoption is required,
but for the field that says so.  The verdicts are the same too, unless the text has no token:
then it is not adopted or passes, and in both cases nothing is found and counted. -/
theorem adoption_changes_verdict_only (text : String) (p : Policy) :
    let need := lint text p true
    let free := lint text p false
    need.findings = free.findings ∧
      need.summary = { free.summary with adoptionRequired := true } ∧
      free.summary.adoptionRequired = false ∧
      if Token.extract text = [] then
        need.verdict = .noAdoption ∧ free.verdict = .pass ∧
          ∀ o ∈ [need, free], o.findings = [] ∧ o.summary.IsBlank
      else need.verdict = free.verdict := by
  intro need free
  have hneed : need.summary = summary (.ofText text) p true (violations (.ofText text) p).length :=
    summary_lintTokens_eq ..
  have hfree : free.summary = summary (.ofText text) p false (violations (.ofText text) p).length :=
    summary_lintTokens_eq ..
  have hsame : need.findings = free.findings := (findings_eq ..).trans (findings_eq ..).symm
  refine ⟨hsame, by rw [hneed, hfree]; rfl, by rw [hfree]; rfl, ?_⟩
  split
  · next hempty =>
    have ht : TokenSet.ofText text = ⟨[]⟩ := congrArg TokenSet.mk hempty
    have hunadopted : isUnadopted (.ofText text) true = true := by rw [ht]; rfl
    have hnone : violations (.ofText text) p = [] := violations_eq_nil_of_unadopted hunadopted
    have hfound : free.findings = [] := by
      rw [show free.findings = _ from findings_eq .., hnone]
      rfl
    have hblank : ∀ required, (summary (.ofText text) p required
        (violations (.ofText text) p).length).IsBlank := fun required => by
      rw [hnone, ht]
      exact isBlank_summary p required
    refine ⟨verdict_eq_noAdoption_iff.mpr hunadopted, ?_, ?_⟩
    · show (lintTokens (.ofText text) p false).verdict = .pass
      rw [ht]
      exact verdict_of_empty p
    · simp only [List.forall_mem_cons, List.not_mem_nil, false_implies, implies_true, and_true]
      exact ⟨⟨hsame.trans hfound, hneed ▸ hblank true⟩, hfound, hfree ▸ hblank false⟩
  · next hne =>
    have hadopted : isUnadopted (.ofText text) true = false :=
      Bool.eq_false_iff.mpr fun h => hne (TokenSet.isEmpty_iff.mp (Bool.and_eq_true_iff.mp h).2)
    show (lintTokens _ p true).verdict = (lintTokens _ p false).verdict
    rw [lintTokens_of_adopted hadopted, lintTokens_of_adopted (Bool.false_and _)]

end Lint
end GlyphLine

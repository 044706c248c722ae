import GlyphLine.Proofs.Lint.Exactness

/-!
# What the order of the tokens decides

Two texts with the same facts --- the same set of tokens, the same first load, the same
first named policy and the same first run --- break the same rules in the same words.
Nothing has to be said about single checks for this: which violations are due is a
matter of the facts, and the order of the clauses is the same for all texts.

The malformed tokens alone are counted.  They and the counters agree as soon as the
tokens of one text are those of the other in another order.

* `sublist_of_map_sublist`: of two lists whose images are taken from one list without
  repetitions, in its order, one is a part of the other if its members are.
* `ruleViolations_congr`: the facts fix the violations of the rules.
* `findings_fixed_by_facts`: the facts fix the findings and the summary.
-/

namespace GlyphLine
namespace Lint

variable {s t : TokenSet} {p : Policy}

/-! ## Lists in a fixed order -/

/-- The two lists pick their images from `l` in order.  Where one takes the first
element of `l` and the other does not, the first list has a member that the other lacks. -/
theorem sublist_of_map_sublist {α β : Type} {f : α → β} {l : List β} (hl : l.Nodup)
    {xs ys : List α} (hx : (xs.map f).Sublist l) (hy : (ys.map f).Sublist l)
    (h : ∀ v ∈ xs, v ∈ ys) : xs.Sublist ys := by
  induction l generalizing xs ys with
  | nil =>
    rw [List.map_eq_nil_iff.mp (List.sublist_nil.mp hx)]
    exact List.nil_sublist _
  | cons b l ih =>
    obtain ⟨hb, hl⟩ := List.nodup_cons.mp hl
    -- an element whose image is `b` is in no list whose images are taken from `l`
    have hnot : ∀ {zs : List α}, (zs.map f).Sublist l → ∀ {z}, f z = b → z ∉ zs :=
      fun hz z hzb hmem => hb (hz.subset (hzb ▸ List.mem_map_of_mem hmem))
    rcases List.sublist_cons_iff.mp hx with hx | ⟨r, hxr, hr⟩
    · rcases List.sublist_cons_iff.mp hy with hy | ⟨r', hyr, hr'⟩
      · exact ih hl hx hy h
      · obtain ⟨y, ys, rfl, hyb, rfl⟩ := List.map_eq_cons_iff.mp hyr
        refine (ih hl hx hr' fun v hv => ?_).cons y
        exact (List.mem_cons.mp (h v hv)).resolve_left fun hvy => hnot hx hyb (hvy ▸ hv)
    · obtain ⟨x, xs, rfl, hxb, rfl⟩ := List.map_eq_cons_iff.mp hxr
      rcases List.sublist_cons_iff.mp hy with hy | ⟨r', hyr, hr'⟩
      · exact absurd (h x List.mem_cons_self) (hnot hy hxb)
      · obtain ⟨y, ys, rfl, hyb, rfl⟩ := List.map_eq_cons_iff.mp hyr
        obtain rfl : x = y :=
          (List.mem_cons.mp (h x List.mem_cons_self)).resolve_right (hnot hr' hxb)
        refine (ih hl hr hr' fun v hv => ?_).cons_cons x
        exact (List.mem_cons.mp (h v (List.mem_cons_of_mem x hv))).resolve_left
          fun hvx => hnot hr (hvx ▸ hxb) hv

theorem eq_of_map_sublist {α β : Type} {f : α → β} {l : List β} (hl : l.Nodup) {xs ys : List α}
    (hx : (xs.map f).Sublist l) (hy : (ys.map f).Sublist l) (h : ∀ v, v ∈ xs ↔ v ∈ ys) :
    xs = ys :=
  (sublist_of_map_sublist hl hx hy fun v => (h v).mp).antisymm
    (sublist_of_map_sublist hl hy hx fun v => (h v).mpr)

/-! ## The same facts -/

theorem mem_ruleViolations_iff {v : Violation} :
    v ∈ ruleViolations t p ↔ Due (Facts.of t) p v ∧ v.clause ≠ .charset := by
  rw [← mem_violations_iff, violations_eq, List.mem_append]
  constructor
  · exact fun h => ⟨.inr h, clause_ne_charset h⟩
  · rintro ⟨h | h, hne⟩
    · exact absurd (clause_of_mem_charsetViolations h) hne
    · exact h

variable (h : Facts.of s = Facts.of t)
include h

theorem mem_ordered_congr (u : String) : u ∈ s.ordered ↔ u ∈ t.ordered := by
  rw [← mem_tokens_of, h, mem_tokens_of]

/-- The facts fix the violations of the rules, and their order. -/
theorem ruleViolations_congr : ruleViolations s p = ruleViolations t p := by
  refine eq_of_map_sublist nodup_clauses clauses_sublist clauses_sublist fun v => ?_
  rw [mem_ruleViolations_iff, mem_ruleViolations_iff, h]

theorem firstLoad_congr : s.firstValue "~LOAD:" = t.firstValue "~LOAD:" :=
  congrArg Facts.load h

theorem pressure_congr : s.pressure = t.pressure :=
  Option.ext fun q => by rw [← hasPressure_of, h, hasPressure_of]

theorem readyTier_congr : s.readyTier = t.readyTier :=
  Option.ext fun r => by rw [← hasTier_of, h, hasTier_of]

theorem unique_congr : s.unique = t.unique := by
  rw [TokenSet.unique, TokenSet.unique]
  exact distinct_congr (mem_ordered_congr h)

omit h

/-! ## The same tokens in another order -/

theorem charsetViolations_perm (hperm : s.ordered.Perm t.ordered) :
    (charsetViolations s).Perm (charsetViolations t) := (hperm.filter _).map _

theorem malformed_length_congr (hperm : s.ordered.Perm t.ordered) :
    s.malformed.length = t.malformed.length := (hperm.filter _).length_eq

theorem checkId_eq_charset_iff {v : Violation} :
    (v.finding.checkId == "glyph.token_charset") = true ↔ v.clause = .charset := by
  rw [beq_iff_eq]
  cases v <;> simp [Violation.finding, Violation.code, Code.check, Check.id, Violation.clause]

/-! ## What the facts fix -/

theorem isUnadopted_congr (h : Facts.of s = Facts.of t) (required : Bool) :
    isUnadopted s required = isUnadopted t required := by
  have hempty : s.isEmpty = t.isEmpty := by
    rw [Bool.eq_iff_iff, ← tokens_eq_empty_iff, h, tokens_eq_empty_iff]
  rw [isUnadopted, isUnadopted, hempty]

/-- The members of a summary that are no counts of findings do not depend on whether
adoption is required. -/
theorem summary_lintTokens (t : TokenSet) (p : Policy) (required : Bool) :
    ∃ n, (lintTokens t p required).summary = summary t p required n := by
  rw [lintTokens]
  split
  · exact ⟨_, rfl⟩
  · exact ⟨_, rfl⟩

theorem verdict_congr {vs ws : List Violation} (h : vs.length = ws.length) :
    Verdict.of vs = Verdict.of ws := by
  simp only [Verdict.of, List.isEmpty_iff_length_eq_zero, h]

/-- For texts with the same facts all findings but those about the characters of tokens
are the same, and so are the load, the pressure, the tier and the number of distinct
tokens in the summary.  If the tokens of one text are those of the other in another
order, the other findings, the counts and the verdict agree as well. -/
theorem findings_fixed_by_facts (a b : String) (p : Policy)
    (h : Facts.of (.ofText a) = Facts.of (.ofText b)) :
    let found := fun text => (violations (.ofText text) p).map Violation.finding
    (found a).filter (·.checkId != "glyph.token_charset") =
        (found b).filter (·.checkId != "glyph.token_charset") ∧
      (∀ required,
        let x := (lint a p required).summary
        let y := (lint b p required).summary
        x.load = y.load ∧ x.pressure = y.pressure ∧ x.readyTier = y.readyTier ∧
          x.unique = y.unique) ∧
      ((Token.extract a).Perm (Token.extract b) →
        ((found a).filter (·.checkId == "glyph.token_charset")).Perm
            ((found b).filter (·.checkId == "glyph.token_charset")) ∧
          ∀ required,
            let x := lint a p required
            let y := lint b p required
            x.summary.scanned = y.summary.scanned ∧ x.summary.malformed = y.summary.malformed ∧
              x.summary.findings = y.summary.findings ∧ x.verdict = y.verdict) := by
  intro found
  have hparts := fun text =>
    filter_findings (t := .ofText text) (p := p)
      (q := fun g => g.checkId == "glyph.token_charset") fun _ => checkId_eq_charset_iff
  refine ⟨?_, fun required => ?_, fun hperm => ⟨?_, fun required => ?_⟩⟩
  · exact (hparts a).2.trans ((congrArg _ (ruleViolations_congr h)).trans (hparts b).2.symm)
  · obtain ⟨m, hm⟩ := summary_lintTokens (.ofText a) p required
    obtain ⟨n, hn⟩ := summary_lintTokens (.ofText b) p required
    rw [lint, lint, hm, hn]
    simp only [summary, firstLoad_congr h, pressure_congr h, readyTier_congr h, unique_congr h,
      and_self]
  · rw [(hparts a).1, (hparts b).1]
    exact (charsetViolations_perm hperm).map _
  · have hperm' : (TokenSet.ofText a).ordered.Perm (TokenSet.ofText b).ordered := hperm
    have hlength : (violations (.ofText a) p).length = (violations (.ofText b) p).length := by
      rw [violations_eq, violations_eq, ruleViolations_congr h, List.length_append,
        List.length_append, (charsetViolations_perm hperm').length_eq]
    have hverdict := verdict_congr hlength
    have hscanned := hperm'.length_eq
    have hmalformed := malformed_length_congr hperm'
    simp only [lint, lintTokens, isUnadopted_congr h]
    split
    · simp only [summary, hscanned, hmalformed, and_self]
    · simp only [summary, hscanned, hmalformed, hlength, hverdict, and_self]

/-- A malformed token, a freeze beside a pass and an unknown load, in two orders. -/
theorem findings_fixed_by_facts_reordered :
    let a := "~LOAD:prod ~P1 ~bad# ~PASS ~P3 ~LOAD:pay ~PASS"
    let b := "~PASS ~P3 ~PASS ~LOAD:prod ~LOAD:pay ~bad# ~P1"
    Facts.of (.ofText a) = Facts.of (.ofText b) ∧ (Token.extract a).Perm (Token.extract b) ∧
      (lint a {} true).verdict = (lint b {} true).verdict := by
  intro a b
  have hfacts : Facts.of (.ofText a) = Facts.of (.ofText b) := by
    rw [Facts.of, Facts.of, Facts.mk.injEq]
    decide +kernel
  have hperm : (Token.extract a).Perm (Token.extract b) := by decide +kernel
  exact ⟨hfacts, hperm, ((findings_fixed_by_facts a b {} hfacts).2.2 hperm).2 true |>.2.2.2⟩

end Lint
end GlyphLine

import GlyphLine.Proofs.Lint.Findings
import GlyphLine.Proofs.Token.Extraction

/-!
# Writing more does not mend a contradiction

Text that is added behind a separator adds tokens and takes none away, and it leaves the
first value of every kind that has one.  Both are facts about the tokens, and they are all
that the argument needs.

## Which clauses last

A clause that asks for a token can be met later.  A clause that forbids tokens to stand
together cannot, nor can one about a first value: no further load, lower pressure or `~ICE+`
switches it off.  Such a violation is due with the same details in the longer text, with
one exception: more veto signals may have come up, and they are then all named.

* `Facts.Within`: the facts of a text, as they stand in a longer one.
* `due_of_within`: the violations of lasting clauses stay due.
* `contradictions_persist`: what is reported of a text is reported of a longer one.
-/

namespace GlyphLine
namespace Lint

variable {f g : Facts} {p : Policy} {v : Violation}

/-! ## Facts that grow -/

/-- The tokens of `f` are among those of `g`, and the first values of `f` are those of
`g`. -/
structure Facts.Within (f g : Facts) : Prop where
  tokens : ∀ {u}, u ∈ f.tokens → u ∈ g.tokens
  load : ∀ {l}, f.load = some l → g.load = some l
  named : ∀ {id}, f.named = some id → g.named = some id
  run : ∀ {r}, f.run = some r → g.run = some r

theorem Facts.Within.hasLoad (h : f.Within g) {load : String} {c : LoadClass} :
    f.HasLoad p load c → g.HasLoad p load c := And.imp_left h.load

theorem within_of_isPrefix {s t : TokenSet} (h : s.ordered <+: t.ordered) :
    (Facts.of s).Within (Facts.of t) where
  tokens hu := mem_tokens_of.mpr (h.subset (mem_tokens_of.mp hu))
  load := TokenSet.firstValue_of_isPrefix h
  named := TokenSet.firstValue_of_isPrefix h
  run := TokenSet.firstValue_of_isPrefix h

/-- The tokens of a text begin those of a longer one. -/
theorem ordered_isPrefix {s : Char} (hs : Text.isSeparator s = true) (t u : String) :
    (TokenSet.ofText t).ordered <+: (TokenSet.ofText (t ++ String.singleton s ++ u)).ordered :=
  ⟨Token.extract u, (Token.extract_append_separator hs t u).symm⟩

/-! ## Clauses that stay violated -/

/-- The clauses whose violations are due in a longer text as they were before. -/
def lastingClauses : List Clause :=
  [.charset, .freeze, .iceFail, .zdmMismatch, .unknownLoad, .misnamed, .unmet .runMustBe]

theorem due_of_within (h : f.Within g) (hlasting : v.clause ∈ lastingClauses)
    (hdue : Due f p v) : Due g p v := by
  obtain ⟨hviolated, htells⟩ := hdue
  cases v with
  | invalidToken u =>
    exact ⟨⟨u, h.tokens htells.1, htells.2⟩, h.tokens htells.1, htells.2⟩
  | freezeForbidsPass | iceFailForbidsPass | zdmMismatchForbidsPass =>
    exact ⟨⟨h.tokens hviolated.1, h.tokens hviolated.2⟩, trivial⟩
  | unknownLoad load id known =>
    obtain ⟨l, hl, hnone⟩ := hviolated
    exact ⟨⟨l, h.load hl, hnone⟩, h.load htells.1, htells.2⟩
  | icemapMismatch declared id =>
    obtain ⟨l, c, id', hload, hid, hne⟩ := hviolated
    exact ⟨⟨l, c, id', h.hasLoad hload, h.named hid, hne⟩, h.named htells.1, htells.2⟩
  | unmet r need id =>
    obtain rfl : r = .runMustBe := by
      simpa [lastingClauses, Violation.clause] using hlasting
    obtain ⟨hclaim, want, run, hwant, hrun, hne⟩ := hviolated
    exact ⟨⟨h.tokens hclaim, want, run, hwant, h.run hrun, hne⟩, htells⟩
  | _ => simp [lastingClauses, Violation.clause] at hlasting

/-- A veto stays due, and the signals that it names are named again. -/
theorem due_vetoSignal_of_within (h : f.Within g) {load : String} {signals : List String}
    (hdue : Due f p (.vetoSignal load signals)) :
    ∃ signals', Due g p (.vetoSignal load signals') ∧ signals.Sublist signals' := by
  obtain ⟨⟨l, c, hl, hpass, name, hname, hsignal⟩, d, hload, rfl⟩ := hdue
  refine ⟨_, ⟨⟨l, c, h.hasLoad hl, h.tokens hpass, name, hname, h.tokens hsignal⟩, d,
    h.hasLoad hload, rfl⟩, ?_⟩
  refine List.monotone_filter_right _ fun name hmem => ?_
  rw [decide_eq_true_iff] at hmem ⊢
  exact h.tokens hmem

/-! ## Findings that are reported again -/

/-- The keys of the findings that last. -/
def contradictionKeys : List String :=
  ["invalid_token_characters", "freeze_forbids_pass", "ice_fail_forbids_pass",
    "zdm_mismatch_forbids_pass", "unknown_load", "icemap_mismatch", "run_must_be"]

/-- The findings of an outcome that last. -/
def contradictions (o : Outcome) : List Finding :=
  o.findings.filter fun g => contradictionKeys.contains g.key

theorem key_mem_contradictionKeys :
    contradictionKeys.contains v.finding.key = true ↔ v.clause ∈ lastingClauses := by
  have hkeys : contradictionKeys = lastingClauses.map Clause.key := by decide
  rw [List.contains_iff_mem, key_finding, hkeys,
    List.mem_map_of_injective fun _ _ => Clause.key_injective]

/-- The lasting violations of some tokens are violations of more tokens, as often and in
the same order. -/
theorem lasting_sublist {s t : TokenSet} (h : s.ordered <+: t.ordered) :
    ((violations s p).filter fun v => contradictionKeys.contains v.finding.key).Sublist
      (violations t p) := by
  rw [violations_eq, violations_eq, List.filter_append]
  have hcharset : (charsetViolations s).Sublist (charsetViolations t) :=
    ((h.filter _).map _).sublist
  refine ((List.filter_sublist).trans hcharset).append ?_
  refine sublist_of_map_sublist nodup_clauses ((List.filter_sublist.map _).trans clauses_sublist)
    clauses_sublist fun v hv => ?_
  obtain ⟨hv, hkey⟩ := List.mem_filter.mp hv
  obtain ⟨hdue, hne⟩ := mem_ruleViolations_iff.mp hv
  exact mem_ruleViolations_iff.mpr
    ⟨due_of_within (within_of_isPrefix h) (key_mem_contradictionKeys.mp hkey) hdue, hne⟩

theorem contradictions_lintTokens (t : TokenSet) (p : Policy) (required : Bool) :
    contradictions (lintTokens t p required) =
      ((violations t p).filter fun v => contradictionKeys.contains v.finding.key).map
        Violation.finding := by
  rw [contradictions, findings_eq, List.filter_map]
  rfl

theorem code_eq_vetoSignal {g : Finding} (hg : v.finding = g) (hcode : g.code = "veto_signal") :
    ∃ load signals, v = .vetoSignal load signals := by
  have hname : v.code.name = Code.vetoSignal.name := (congrArg Finding.code hg).trans hcode
  have hv : v.code = .vetoSignal := Code.name_injective hname
  cases v with
  | vetoSignal load signals => exact ⟨load, signals, rfl⟩
  | _ => cases hv

/-- A contradiction that is reported of a text is reported of every longer one, by the same
finding and as often as before; a veto is reported again, with at least the same signals.
So the longer text fails. -/
theorem contradictions_persist {s : Char} (hs : Text.isSeparator s = true) (p : Policy)
    (t u : String) (required required' : Bool) :
    let before := lint t p required
    let after := lint (t ++ String.singleton s ++ u) p required'
    (contradictions before).Sublist after.findings ∧
      (∀ g ∈ before.findings, g.code = "veto_signal" → ∃ load signals signals',
        g = (Violation.vetoSignal load signals).finding ∧
          (Violation.vetoSignal load signals').finding ∈ after.findings ∧
          signals.Sublist signals') ∧
      ((contradictions before ≠ [] ∨ ∃ g ∈ before.findings, g.code = "veto_signal") →
        after.verdict = .fail) := by
  intro before after
  have hprefix := ordered_isPrefix hs t u
  have hsublist : (contradictions before).Sublist after.findings := by
    rw [show after.findings = _ from findings_eq .., show contradictions before = _ from
      contradictions_lintTokens ..]
    exact (lasting_sublist hprefix).map _
  have hveto : ∀ g ∈ before.findings, g.code = "veto_signal" → ∃ load signals signals',
      g = (Violation.vetoSignal load signals).finding ∧
        (Violation.vetoSignal load signals').finding ∈ after.findings ∧
        signals.Sublist signals' := by
    intro g hg hcode
    obtain ⟨v, hdue, hfinding⟩ := mem_findings_iff.mp hg
    obtain ⟨load, signals, rfl⟩ := code_eq_vetoSignal hfinding hcode
    obtain ⟨signals', hdue', hsignals⟩ :=
      due_vetoSignal_of_within (within_of_isPrefix hprefix) hdue
    exact ⟨load, signals, signals', hfinding.symm, mem_findings_iff.mpr ⟨_, hdue', rfl⟩, hsignals⟩
  refine ⟨hsublist, hveto, ?_⟩
  rintro (hne | ⟨g, hg, hcode⟩)
  · obtain ⟨g, hg⟩ := List.exists_mem_of_ne_nil _ hne
    exact verdict_eq_fail_of_mem (hsublist.subset hg)
  · obtain ⟨load, signals, signals', -, hmem, -⟩ := hveto g hg hcode
    exact verdict_eq_fail_of_mem hmem

/-- A pass in a freeze, behind which a lower pressure, a repaired substrate and another load
are written. -/
theorem contradictions_persist_amended :
    let p : Policy := { loads := .ofList [("prod", { vetoSignals := ["oom"] })] }
    let t := "~LOAD:prod ~P3 ~PASS ~SIG:oom"
    let after := lint (t ++ String.singleton '\n' ++ "~P0 ~ICE+ ~LOAD:dev") p true
    Text.isSeparator '\n' = true ∧
      Violation.freezeForbidsPass.finding ∈ contradictions (lint t p false) ∧
      Violation.freezeForbidsPass.finding ∈ after.findings ∧ after.verdict = .fail := by
  intro p t after
  have hseparator : Text.isSeparator '\n' = true := by decide
  have hpersist := contradictions_persist hseparator p t "~P0 ~ICE+ ~LOAD:dev" false true
  have hdue : Due (Facts.of (.ofText t)) p .freezeForbidsPass :=
    ⟨⟨mem_tokens_of.mpr (by decide +kernel), mem_tokens_of.mpr (by decide +kernel)⟩, trivial⟩
  have hmem : Violation.freezeForbidsPass.finding ∈ contradictions (lint t p false) :=
    List.mem_filter.mpr ⟨mem_findings_iff.mpr ⟨_, hdue, rfl⟩, by decide⟩
  exact ⟨hseparator, hmem, hpersist.1.subset hmem, hpersist.2.2 (.inl (List.ne_nil_of_mem hmem))⟩

end Lint
end GlyphLine

import GlyphLine.Proofs.Lint.Sequence
import GlyphLine.Proofs.Token.Draft

/-!
# What the identity of a finding tells

A finding is identified by the text of its check, its code and its message with bars between
them, and it bears the hash of this text.  Messages may hold bars, and anything else that stands
in the text that is linted or in the policy.

## Why the parts can be told

The identifiers of checks and codes hold no bar.  So the first two bars of the text are those
that have been put there, whatever the message is.

## Why findings can be told apart

The findings of one outcome that are about different clauses differ in their codes, except for
those about requirements of an official claim; these share a code and are told apart by what
they ask for.  What a requirement asks for begins in its own way, with one exception: a run that
is asked for, and a run of a certain name.  The name is up to the policy, which can choose it so
that both are asked for in the same words.  But no text lacks both: one requirement is about
texts without a run, and the other about texts with one.

## Main statements

* `Finding.identity`, `AboutSameToken`: the text that is hashed, and findings that repeat.
* `identity_eq_iff`: the parts of an identity.
* `seat_eq_of_need_eq`: requirements that ask for the same.
* `clause_eq_of_identity_eq`: violations of one text with the same identity.
* `identity_unambiguous`: **identities are the same for repeated malformed tokens only**.
-/

namespace GlyphLine
namespace Lint

variable {f : Facts} {t : TokenSet} {p : Policy} {v w : Violation}

/-- The text by which a finding is identified. -/
def Finding.identity (g : Finding) : String := Lint.identity g.checkId g.code g.message

/-- Two findings about the characters of the same malformed token. -/
def AboutSameToken (g h : Finding) : Prop :=
  ∃ u, Token.isWellFormed u = false ∧ ∀ x ∈ [g, h],
    x.checkId = "glyph.token_charset" ∧ x.data.member? "token" = some (.string u)

/-! ## The parts of an identity -/

/-- A text is cut at its first bar in one way. -/
theorem eq_of_append_bar {a b x y : String} (ha : '|' ∉ a.toList) (hb : '|' ∉ b.toList)
    (h : a ++ ("|" ++ x) = b ++ ("|" ++ y)) : a = b ∧ x = y := by
  have hcut : ∀ {s z : String}, '|' ∉ s.toList →
      (s ++ ("|" ++ z)).toList.takeWhile (· != '|') = s.toList := by
    intro s z hs
    have hchars : (s ++ ("|" ++ z)).toList = s.toList ++ '|' :: z.toList := by
      rw [String.toList_append, String.toList_append]
      rfl
    have hinside : ∀ c ∈ s.toList, (c != '|') = true := fun c hc =>
      bne_iff_ne.mpr (ne_of_mem_of_not_mem hc hs)
    rw [hchars, List.takeWhile_append_of_pos hinside, List.takeWhile_cons_of_neg (by decide),
      List.append_nil]
  have hab : a = b := String.toList_inj.mp (by rw [← hcut ha, h, hcut hb])
  subst hab
  exact ⟨rfl, (String.append_right_inj _).mp ((String.append_right_inj _).mp h)⟩

theorem bar_not_mem_id (c : Check) : '|' ∉ c.id.toList := by cases c <;> decide

theorem bar_not_mem_name (c : Code) : '|' ∉ c.name.toList := by cases c <;> decide

/-- The identity of a finding tells its parts. -/
theorem identity_eq_iff :
    v.finding.identity = w.finding.identity ↔ v.finding.checkId = w.finding.checkId ∧
      v.finding.code = w.finding.code ∧ v.finding.message = w.finding.message := by
  constructor
  · intro h
    rw [Finding.identity, Finding.identity, identity, identity, String.append_assoc,
      String.append_assoc, String.append_assoc, String.append_assoc, String.append_assoc,
      String.append_assoc] at h
    obtain ⟨hcheck, h⟩ := eq_of_append_bar (bar_not_mem_id _) (bar_not_mem_id _) h
    exact ⟨hcheck, eq_of_append_bar (bar_not_mem_name _) (bar_not_mem_name _) h⟩
  · rintro ⟨hcheck, hcode, hmessage⟩
    rw [Finding.identity, Finding.identity, hcheck, hcode, hmessage]

/-! ## What requirements ask for -/

/-- How the words begin in which a requirement asks for something. -/
def Requirement.start : Requirement → String
  | .pass => "~PASS"
  | .env => "~ENV:"
  | .run | .runMustBe => "~RUN:"
  | .iceMustBe => "~ICE+"
  | .rgcaAllPlus => "RGCA"
  | .zdPlus => "~ZD+"
  | .zdmPlus => "~ZDM+"
  | .thaletPlus => "~T+"
  | .readyTier => "~READY:"
  | .bridgespecPlus => "~BS+"
  | .tbPlus => "~TB+"

theorem exists_need_eq {o : Official} {r : Requirement} {need : String}
    (h : need? o r = some need) : ∃ rest, need = r.start ++ rest := by
  have fixed {b : Prop} [Decidable b] {s : String} (hs : ∃ rest, s = r.start ++ rest)
      (h : (if b then some s else none) = some need) : ∃ rest, need = r.start ++ rest := by
    split at h
    · exact Option.some_inj.mp h ▸ hs
    · cases h
  cases r with
  | runMustBe =>
    obtain ⟨run, -, rfl⟩ := Option.map_eq_some_iff.mp h
    exact ⟨run, rfl⟩
  | readyTier =>
    obtain ⟨tier, -, rfl⟩ := Option.map_eq_some_iff.mp h
    exact ⟨tier.name, by cases tier <;> rfl⟩
  | env | run => exact fixed ⟨"<...>", rfl⟩ h
  | rgcaAllPlus => exact fixed ⟨" all plus (~RGCA+ or ~R+ ~G+ ~C+ ~A+)", rfl⟩ h
  | _ => exact fixed ⟨"", rfl⟩ h

/-- Requirements that ask for the same share a seat: they are the same, or ask for a run. -/
theorem seat_eq_of_need_eq {o : Official} {r r' : Requirement} {need : String}
    (h : need? o r = some need) (h' : need? o r' = some need) :
    (Clause.unmet r).seat = (Clause.unmet r').seat := by
  have hapart : ∀ r ∈ Requirement.all, ∀ r' ∈ Requirement.all,
      Token.overlap r.start r'.start = true →
        (Clause.unmet r).seat = (Clause.unmet r').seat := by decide +kernel
  have hall : ∀ r : Requirement, r ∈ Requirement.all := fun r => by cases r <;> decide
  obtain ⟨rest, hrest⟩ := exists_need_eq h
  obtain ⟨rest', hrest'⟩ := exists_need_eq h'
  exact hapart r (hall r) r' (hall r') (Token.overlap_of_append_eq (hrest.symm.trans hrest'))

/-- A run of a certain name can be asked for in the words that ask for any run. -/
example : let o : Official := { run := true, runMustBe := some "<...>" }
    need? o .run = need? o .runMustBe := by
  rfl

/-! ## Findings of one outcome -/

/-- Violations of one text that have the same identity are about the same clause. -/
theorem clause_eq_of_identity_eq (hv : Due f p v) (hw : Due f p w)
    (h : v.finding.identity = w.finding.identity) : v.clause = w.clause := by
  obtain ⟨-, hcode, hmessage⟩ := identity_eq_iff.mp h
  have hcode : v.code = w.code := Code.name_injective hcode
  by_cases hown : ∀ r, v.clause ≠ .unmet r
  · refine ((Clause.code_eq_iff hown).mp ?_).symm
    rw [Violation.code_clause, Violation.code_clause, hcode]
  · cases v with
    | unmet r need id =>
      cases w with
      | unmet r' need' id' =>
        obtain rfl : need = need' := (String.append_right_inj _).mp hmessage
        exact eq_of_seat_eq hv.1 hw.1 (seat_eq_of_need_eq hv.2.1 hw.2.1)
      | _ => cases hcode
    | _ => exact absurd nofun hown

/-- Of two violations at different places one clause is told only if it is about malformed
tokens. -/
theorem pairwise_clause :
    (violations t p).Pairwise fun v w => v.clause = w.clause → v.clause = .charset := by
  rw [violations_eq, List.pairwise_append]
  refine ⟨?_, ?_, fun v hv _ _ _ => clause_of_mem_charsetViolations hv⟩
  · exact List.pairwise_of_forall_mem_list fun v hv _ _ _ => clause_of_mem_charsetViolations hv
  · exact (List.pairwise_map.mp nodup_map_clause).imp fun hne h => absurd h hne

/-- A finding about the characters of a token shows the token. -/
theorem eq_invalidToken_iff {u : String} :
    (v.finding.checkId = "glyph.token_charset" ∧
        v.finding.data.member? "token" = some (.string u)) ↔ v = .invalidToken u := by
  constructor
  · rintro ⟨hcheck, hdata⟩
    have hclause := checkId_eq_charset_iff.mp (beq_iff_eq.mpr hcheck)
    cases v with
    | invalidToken u' => rw [Json.string.inj (Option.some_inj.mp hdata)]
    | _ => cases hclause
  · rintro rfl
    exact ⟨rfl, rfl⟩

theorem aboutSameToken_iff :
    AboutSameToken v.finding w.finding ↔
      ∃ u, Token.isWellFormed u = false ∧ v = .invalidToken u ∧ w = .invalidToken u := by
  simp only [AboutSameToken, List.forall_mem_cons, eq_invalidToken_iff, List.not_mem_nil,
    false_implies, implies_true, and_true]

/-- Two violations of one text of which one clause is told only if it is about malformed tokens
have the same identity if and only if they are about the same token. -/
theorem identity_eq_iff_aboutSameToken (hv : Due f p v) (hw : Due f p w)
    (hclause : v.clause = w.clause → v.clause = .charset) :
    v.finding.identity = w.finding.identity ↔ AboutSameToken v.finding w.finding := by
  rw [aboutSameToken_iff]
  constructor
  · intro h
    have hsame := clause_eq_of_identity_eq hv hw h
    have hmessage := (identity_eq_iff.mp h).2.2
    cases v with
    | invalidToken u =>
      cases w with
      | invalidToken u' =>
        obtain rfl : u = u' := (String.append_right_inj _).mp hmessage
        exact ⟨u, hv.2.2, rfl, rfl⟩
      | _ => cases hsame
    | _ => cases hclause hsame
  · rintro ⟨u, -, rfl, rfl⟩
    rfl

/-- **Identities are the same for repeated malformed tokens only.**  Of any two findings, of
whatever texts and policies, the identities are equal if and only if the checks, the codes and
the messages are.  Every finding bears the hash of its identity.  Of two findings at different
places of one outcome the identities are equal if and only if both are about the characters of
one malformed token, and so are the hashes unless they collide. -/
theorem identity_unambiguous :
    (∀ (a b : String) (p q : Policy) (x y : Bool), ∀ g ∈ (lint a p x).findings,
      ∀ h ∈ (lint b q y).findings, g.identity = h.identity ↔
        g.checkId = h.checkId ∧ g.code = h.code ∧ g.message = h.message) ∧
    ∀ (text : String) (p : Policy) (required : Bool),
      let found := (lint text p required).findings
      (∀ g ∈ found, g.fingerprint = some (Digest.fingerprint g.identity)) ∧
        found.Pairwise fun g h => (g.identity = h.identity ↔ AboutSameToken g h) ∧
          ((Digest.fingerprint g.identity = Digest.fingerprint h.identity →
              g.identity = h.identity) →
            (g.fingerprint = h.fingerprint ↔ AboutSameToken g h)) := by
  refine ⟨fun a b p q x y g hg h hh => ?_, fun text p required => ⟨fun g hg => ?_, ?_⟩⟩
  · obtain ⟨v, -, rfl⟩ := mem_findings_iff.mp hg
    obtain ⟨w, -, rfl⟩ := mem_findings_iff.mp hh
    exact identity_eq_iff
  · obtain ⟨v, -, rfl⟩ := mem_findings_iff.mp hg
    rfl
  · rw [lint, findings_eq, List.pairwise_map]
    refine pairwise_clause.imp_of_mem fun {v w} hv hw hclause => ?_
    have hiff := identity_eq_iff_aboutSameToken (mem_violations_iff.mp hv)
      (mem_violations_iff.mp hw) hclause
    refine ⟨hiff, fun hcollide => ?_⟩
    rw [← hiff]
    exact ⟨fun h => hcollide (Option.some_inj.mp h), fun h => congrArg (some ∘ Digest.fingerprint) h⟩

end Lint
end GlyphLine

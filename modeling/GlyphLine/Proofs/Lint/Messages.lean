import GlyphLine.Proofs.Lint.Findings
import GlyphLine.Proofs.Text.Lines

/-!
# Messages stay in one line

A message quotes the text: a token, a load, the policy that is declared.  All of these are
parts of tokens, which hold no separator and hence no line feed.  It also quotes the policy,
from which the identity, the probes, the signals and the expected run are taken; the names
of the loads are not, since an unknown load is reported by the name that the text gives.

* `Policy.IsOfLines`: what messages quote from a policy holds no line feed.
* `isLine_of_mem`: tokens hold no line feed.
* `isLine_message`, `isLine_advice`: nor do messages and advice.
-/

namespace GlyphLine

open Text

/-- What messages quote from a policy holds no line feed. -/
structure Policy.IsOfLines (p : Policy) : Prop where
  id : IsLine p.id
  probes : ∀ {load c}, p.load? load = some c → ∀ s ∈ c.probes, IsLine s
  vetoSignals : ∀ {load c}, p.load? load = some c → ∀ s ∈ c.vetoSignals, IsLine s
  run : ∀ {run}, p.official.runMustBe = some run → IsLine run

namespace Lint

variable {text : String} {p : Policy} {v : Violation}

/-! ## What is quoted from the text -/

/-- Tokens hold no line feed. -/
theorem isLine_of_mem {u : String} (h : u ∈ (TokenSet.ofText text).ordered) : IsLine u :=
  fun hfeed => absurd (Token.isSeparator_eq_false_of_mem_extract h hfeed) (by decide)

theorem isLine_of_append {s t : String} (h : IsLine (s ++ t)) : IsLine t := fun ht =>
  h (String.toList_append ▸ List.mem_append_right _ ht)

theorem isLine_of_firstValue {start v : String}
    (h : (TokenSet.ofText text).firstValue start = some v) : IsLine v :=
  isLine_of_append (isLine_of_mem (TokenSet.mem_of_firstValue h))

/-- Missing evidence has one of nine names. -/
theorem isLine_of_isMissing {f : Facts} {n : String} (h : IsMissing f n) : IsLine n := by
  rcases h with ⟨hn, -⟩ | ⟨s, hs, rfl, -⟩
  · revert n
    decide
  · revert s
    decide

/-! ## What is quoted from the policy -/

theorem isLine_need {r : Requirement} {need : String} (hp : p.IsOfLines)
    (h : need? p.official r = some need) : IsLine need := by
  have fixed {b : Prop} [Decidable b] {s : String} (hs : IsLine s)
      (h : (if b then some s else none) = some need) : IsLine need := by
    split at h
    · exact Option.some_inj.mp h ▸ hs
    · cases h
  cases r with
  | runMustBe =>
    obtain ⟨run, hrun, rfl⟩ := Option.map_eq_some_iff.mp h
    exact IsLine.append (by decide) (hp.run hrun)
  | readyTier =>
    obtain ⟨tier, -, rfl⟩ := Option.map_eq_some_iff.mp h
    cases tier <;> decide
  | _ => exact fixed (by decide) h

theorem isLine_token (q : Pressure) : IsLine q.token := by cases q <;> decide

/-! ## Messages -/

/-- A message that is due holds no line feed. -/
theorem isLine_message (hp : p.IsOfLines) (h : Due (Facts.of (.ofText text)) p v) :
    IsLine v.message := by
  obtain ⟨-, htells⟩ := h
  have comma : IsLine ", " := by decide
  cases v with
  | invalidToken u =>
    exact (isLine_ofList (by decide)).append (isLine_of_mem (mem_tokens_of.mp htells.1))
  | freezeForbidsPass | iceFailForbidsPass | zdmMismatchForbidsPass | missingShot
  | missingReport => exact isLine_ofList (by decide)
  | missingEvidence names =>
    refine (isLine_ofList (by decide)).append (isLine_join comma fun n hn => ?_)
    exact isLine_of_isMissing ((htells.2 n).mp hn)
  | unknownLoad load id known =>
    obtain ⟨hload, rfl, -⟩ := htells
    exact isLine_ofList (by decide) |>.append (isLine_of_firstValue hload)
      |>.append (isLine_ofList (by decide)) |>.append hp.id
  | missingPressure load =>
    exact isLine_ofList (by decide) |>.append (isLine_of_firstValue htells)
      |>.append (isLine_ofList (by decide))
  | pressureTooLow load required actual =>
    obtain ⟨⟨c, hload, -⟩, -⟩ := htells
    exact isLine_ofList (by decide) |>.append (isLine_of_firstValue hload.1)
      |>.append (isLine_ofList (by decide)) |>.append (isLine_token required)
      |>.append (isLine_ofList (by decide))
  | missingIcemap load id =>
    exact isLine_ofList (by decide) |>.append (isLine_of_firstValue htells.1)
      |>.append (isLine_ofList (by decide))
  | icemapMismatch declared id =>
    obtain ⟨hdeclared, rfl⟩ := htells
    exact isLine_ofList (by decide) |>.append (isLine_of_firstValue hdeclared)
      |>.append (isLine_ofList (by decide)) |>.append hp.id
  | missingProbes load probes =>
    obtain ⟨c, hload, rfl⟩ := htells
    refine isLine_ofList (by decide) |>.append (isLine_of_firstValue hload.1)
      |>.append (isLine_ofList (by decide)) |>.append (isLine_join comma fun s hs => ?_)
    exact hp.probes hload.2 s (List.mem_of_mem_filter hs)
  | vetoSignal load signals =>
    obtain ⟨c, hload, rfl⟩ := htells
    refine isLine_ofList (by decide) |>.append (isLine_join comma fun s hs => ?_)
      |>.append (isLine_ofList (by decide))
    exact hp.vetoSignals hload.2 s (List.mem_of_mem_filter hs)
  | unmet r need id => exact (isLine_ofList (by decide)).append (isLine_need hp htells.1)

theorem isLine_advice (c : Code) : IsLine (Violation.advice c) := by
  cases c <;> exact isLine_ofList (by decide)

end Lint
end GlyphLine

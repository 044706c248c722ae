import GlyphLine.Lint.Outcome
import GlyphLine.Proofs.Token.Queries
import Mathlib.Data.Finset.Dedup

/-!
# The clauses that a text has to keep

The rules are laid down here a second time, as conditions and not as checks.  A
condition looks at the tokens as a set and at three first values, and at nothing else:
not at the order of the tokens, and not at whether another clause is violated.

* `Facts`: what the conditions look at.
* `Clause`: the clauses, each with the condition `Violated` under which it is violated.
* `Tells`: the details that the report of a violation has to give.
* `Reports`: which clause a finding is about, as a reader sees it.
-/

namespace GlyphLine
namespace Lint

/-! ## What the conditions look at -/

/-- The tokens of a text as a set, and the first load, policy and run that it names. -/
structure Facts where
  tokens : Finset String
  load : Option String
  named : Option String
  run : Option String

namespace Facts

/-- The facts about a token set. -/
def of (t : TokenSet) : Facts :=
  ⟨t.ordered.toFinset, t.firstValue "~LOAD:", t.firstValue "~ICEMAP:", t.firstValue "~RUN:"⟩

variable (f : Facts)

/-- Some token begins with `start`. -/
def HasStart (start : String) : Prop := ∃ u ∈ f.tokens, Text.startsWith start u = true

/-- A token is there bare, or with a value behind a colon. -/
def HasBase (base : String) : Prop := base ∈ f.tokens ∨ f.HasStart (base ++ ":")

/-- A pressure is the greatest one that is declared. -/
def HasPressure (p : Pressure) : Prop :=
  p.token ∈ f.tokens ∧ ∀ q : Pressure, q.token ∈ f.tokens → q ≤ p

/-- A tier is claimed and no tier that goes before it is. -/
def HasTier : ReadyTier → Prop
  | .core => "~READY:core" ∈ f.tokens
  | .ui => "~READY:ui" ∈ f.tokens ∧ "~READY:core" ∉ f.tokens
  | .demo => "~READY:demo" ∈ f.tokens ∧ "~READY:core" ∉ f.tokens ∧ "~READY:ui" ∉ f.tokens

/-- All four parts are plus, by one token or by four. -/
def AllPlus : Prop :=
  "~RGCA+" ∈ f.tokens ∨ ∀ u ∈ ["~R+", "~G+", "~C+", "~A+"], u ∈ f.tokens

/-- The first load is one of the policy, with the given class. -/
def HasLoad (p : Policy) (load : String) (c : LoadClass) : Prop :=
  f.load = some load ∧ p.load? load = some c

end Facts

/-! ## Clauses -/

/-- What a text can get wrong: the kinds of violations, with one clause for each
requirement of an official claim. -/
inductive Clause where
  | charset
  | freeze
  | iceFail
  | zdmMismatch
  | evidence
  | shot
  | report
  | unknownLoad
  | noPressure
  | lowPressure
  | unnamed
  | misnamed
  | probes
  | veto
  | unmet (r : Requirement)
  deriving DecidableEq, Repr

/-- The code under which a clause is reported. -/
def Clause.code : Clause → Code
  | .charset => .invalidTokenCharacters
  | .freeze => .freezeForbidsPass
  | .iceFail => .iceFailForbidsPass
  | .zdmMismatch => .zdmMismatchForbidsPass
  | .evidence => .missingEvidence
  | .shot => .missingShot
  | .report => .missingReport
  | .unknownLoad => .unknownLoad
  | .noPressure => .missingPressure
  | .lowPressure => .pressureTooLow
  | .unnamed => .missingIcemap
  | .misnamed => .icemapMismatch
  | .probes => .missingProbes
  | .veto => .vetoSignal
  | .unmet _ => .unmetRequirement

/-- All clauses, in the order in which they are reported. -/
def Clause.all : List Clause :=
  [.charset, .freeze, .iceFail, .zdmMismatch, .evidence, .shot, .report, .unknownLoad, .noPressure,
    .lowPressure, .unnamed, .misnamed, .probes, .veto] ++ Requirement.all.map .unmet

/-- The condition under which an official claim does not meet a requirement. -/
def Unmet (f : Facts) (o : Official) : Requirement → Prop
  | .pass => o.pass = true ∧ "~PASS" ∉ f.tokens
  | .env => o.env = true ∧ ¬ f.HasStart "~ENV:"
  | .run => o.run = true ∧ f.run = none
  | .runMustBe => ∃ want run, o.runMustBe = some want ∧ f.run = some run ∧ run ≠ want
  | .iceMustBe => o.iceMustBe = some "+" ∧ "~ICE+" ∉ f.tokens
  | .rgcaAllPlus => o.rgcaAllPlus = true ∧ ¬ f.AllPlus
  | .zdPlus => o.zdPlus = true ∧ "~ZD+" ∉ f.tokens
  | .zdmPlus => o.zdmPlus = true ∧ "~ZDM+" ∉ f.tokens
  | .thaletPlus => o.thaletPlus = true ∧ "~T+" ∉ f.tokens
  | .readyTier => ∃ tier, o.readyTier = some tier ∧ ¬ f.HasTier tier
  | .bridgespecPlus => o.bridgespecPlus = true ∧ "~BS+" ∉ f.tokens
  | .tbPlus => o.tbPlus = true ∧ "~TB+" ∉ f.tokens

/-- The condition under which a clause is violated. -/
def Violated (f : Facts) (p : Policy) : Clause → Prop
  | .charset => ∃ u ∈ f.tokens, Token.isWellFormed u = false
  | .freeze => "~PASS" ∈ f.tokens ∧ "~P3" ∈ f.tokens
  | .iceFail => "~PASS" ∈ f.tokens ∧ "~ICE-" ∈ f.tokens
  | .zdmMismatch => "~PASS" ∈ f.tokens ∧ "~ZDM-" ∈ f.tokens
  | .evidence => f.HasStart "~READY:" ∧
      ((∃ b ∈ ["~COMMIT", "~HASH", "~JSON", "~ARCH", "~MANI"], ¬ f.HasBase b) ∨
        ∃ s ∈ ["~ENV:", "~RUN:", "~TRACE:", "~ICEMAP:"], ¬ f.HasStart s)
  | .shot => "~READY:core" ∉ f.tokens ∧
      ("~READY:ui" ∈ f.tokens ∨ "~READY:demo" ∈ f.tokens) ∧ ¬ f.HasBase "~SHOT"
  | .report => "~READY:demo" ∈ f.tokens ∧ "~READY:core" ∉ f.tokens ∧
      "~READY:ui" ∉ f.tokens ∧ ¬ f.HasBase "~REPORT"
  | .unknownLoad => ∃ load, f.load = some load ∧ p.load? load = none
  | .noPressure => ∃ load c, f.HasLoad p load c ∧ ∀ q : Pressure, q.token ∉ f.tokens
  | .lowPressure => ∃ load c q, f.HasLoad p load c ∧ f.HasPressure q ∧ q < c.minPressure
  | .unnamed => ∃ load c, f.HasLoad p load c ∧ load ∈ ["prod", "public", "pay"] ∧ f.named = none
  | .misnamed => ∃ load c id, f.HasLoad p load c ∧ f.named = some id ∧ id ≠ p.id
  | .probes => ∃ load c, f.HasLoad p load c ∧ ∃ name ∈ c.probes, "~PROBE:" ++ name ∉ f.tokens
  | .veto => ∃ load c, f.HasLoad p load c ∧ "~PASS" ∈ f.tokens ∧
      ∃ name ∈ c.vetoSignals, "~SIG:" ++ name ∈ f.tokens
  | .unmet r => "~DEMO:official" ∈ f.tokens ∧ Unmet f p.official r

/-! ## Reports of violations -/

/-- The clause that a violation is about. -/
def Violation.clause : Violation → Clause
  | .invalidToken _ => .charset
  | .freezeForbidsPass => .freeze
  | .iceFailForbidsPass => .iceFail
  | .zdmMismatchForbidsPass => .zdmMismatch
  | .missingEvidence _ => .evidence
  | .missingShot _ => .shot
  | .missingReport => .report
  | .unknownLoad .. => .unknownLoad
  | .missingPressure _ => .noPressure
  | .pressureTooLow .. => .lowPressure
  | .missingIcemap .. => .unnamed
  | .icemapMismatch .. => .misnamed
  | .missingProbes .. => .probes
  | .vetoSignal .. => .veto
  | .unmet r .. => .unmet r

/-- The name under which evidence is missed: a base as it is, the beginning of an
identity with a star. -/
def IsMissing (f : Facts) (name : String) : Prop :=
  (name ∈ ["~COMMIT", "~HASH", "~JSON", "~ARCH", "~MANI"] ∧ ¬ f.HasBase name) ∨
    ∃ s ∈ ["~ENV:", "~RUN:", "~TRACE:", "~ICEMAP:"], name = s ++ "*" ∧ ¬ f.HasStart s

/-- The details of a violation are those of the text and the policy. -/
def Tells (f : Facts) (p : Policy) : Violation → Prop
  | .invalidToken u => u ∈ f.tokens ∧ Token.isWellFormed u = false
  | .freezeForbidsPass | .iceFailForbidsPass | .zdmMismatchForbidsPass | .missingReport => True
  | .missingEvidence names => names.Pairwise (· < ·) ∧ ∀ n, n ∈ names ↔ IsMissing f n
  | .missingShot tier => f.HasTier tier
  | .unknownLoad load id known => f.load = some load ∧ id = p.id ∧ known = p.loads.names
  | .missingPressure load => f.load = some load
  | .pressureTooLow load required actual =>
      (∃ c, f.HasLoad p load c ∧ required = c.minPressure) ∧ f.HasPressure actual
  | .missingIcemap load id => f.load = some load ∧ id = p.id
  | .icemapMismatch declared id => f.named = some declared ∧ id = p.id
  | .missingProbes load probes => ∃ c, f.HasLoad p load c ∧
      probes = c.probes.filter fun name => "~PROBE:" ++ name ∉ f.tokens
  | .vetoSignal load signals => ∃ c, f.HasLoad p load c ∧
      signals = c.vetoSignals.filter fun name => "~SIG:" ++ name ∈ f.tokens
  | .unmet r need id => need? p.official r = some need ∧ id = p.id

/-- A violation is due: its clause is violated, and its details are right. -/
def Due (f : Facts) (p : Policy) (v : Violation) : Prop := Violated f p v.clause ∧ Tells f p v

/-- A finding is about a clause: it has the clause's code, and for a requirement its key
as well. -/
def Reports (g : Finding) : Clause → Prop
  | .unmet r => g.code = "unmet_requirement" ∧
      g.data.member? "requirement" = some (.string r.key)
  | c => g.code = c.code.name

theorem Violation.code_clause (v : Violation) : v.clause.code = v.code := by cases v <;> rfl

theorem Code.name_injective {c d : Code} (h : c.name = d.name) : c = d := by
  have left : ∀ c ∈ Code.all, Code.all.find? (fun d => d.name == c.name) = some c := by decide
  have mem : ∀ c : Code, c ∈ Code.all := fun c => by cases c <;> decide
  have hc := left c (mem c)
  rw [h, left d (mem d)] at hc
  exact (Option.some_inj.mp hc).symm

theorem Requirement.key_injective {r s : Requirement} (h : r.key = s.key) : r = s := by
  have left : ∀ r ∈ Requirement.all,
      Requirement.all.find? (fun s => s.key == r.key) = some r := by decide
  have mem : ∀ r : Requirement, r ∈ Requirement.all := fun r => by cases r <;> decide
  have hr := left r (mem r)
  rw [h, left s (mem s)] at hr
  exact (Option.some_inj.mp hr).symm

end Lint
end GlyphLine

import GlyphLine.Digest.Sha256
import GlyphLine.Lint.Rules
import GlyphLine.Log.Event
import GlyphLine.Width

/-!
# The outcome of linting

Linting a text against a policy gives a verdict, a list of findings and a summary.  A
finding is a violation as it is reported, with its identifiers, its texts and a
fingerprint.

* `lint`: the outcome for a text.
* `lintEvents`: what linting tells.
-/

namespace GlyphLine
namespace Lint

/-- A reported violation. -/
structure Finding where
  checkId : String
  code : String
  message : String
  help : Option String
  fingerprint : Option String
  data : Json
  deriving BEq, Repr

/-- The verdict on a text.  A text without tokens is not adopted, if it had to be, and
then no rule has been applied. -/
inductive Verdict where
  | pass
  | fail
  | noAdoption
  deriving DecidableEq, Repr

/-- The name of a verdict in a report. -/
def Verdict.name : Verdict → String
  | .pass => "pass"
  | .fail => "fail"
  | .noAdoption => "no_adoption"

/-- The name of a verdict in a log. -/
def Verdict.logName : Verdict → String
  | .pass => "Pass"
  | .fail => "Fail"
  | .noAdoption => "NoAdoption"

/-- The exit code of a verdict. -/
def Verdict.exitCode : Verdict → Nat
  | .pass => 0
  | .fail => 1
  | .noAdoption => 2

/-- What was linted against what, in numbers and names. -/
structure Summary where
  policy : String := ""
  adoptionRequired : Bool := false
  scanned : Nat := 0
  unique : Nat := 0
  malformed : Nat := 0
  load : Option String := none
  pressure : Option String := none
  readyTier : Option String := none
  findings : Nat := 0
  deriving DecidableEq, Repr

/-- The result of linting a text. -/
structure Outcome where
  verdict : Verdict
  findings : List Finding
  summary : Summary
  deriving BEq, Repr

/-- The text that identifies a finding: its check, its code and its message. -/
def identity (checkId code message : String) : String :=
  checkId ++ "|" ++ code ++ "|" ++ message

/-- A violation as a finding. -/
def Violation.finding (v : Violation) : Finding :=
  let checkId := v.code.check.id
  let code := v.code.name
  { checkId := checkId
    code := code
    message := v.message
    help := some (Violation.advice v.code)
    fingerprint := some (Digest.fingerprint (identity checkId code v.message))
    data := v.data }

/-- The greatest count that a report can hold. -/
def countLimit : Nat := Width.greatest 32

/-- A count as a report holds it. -/
def pinned (n : Nat) : Nat := min n countLimit

/-- The summary for tokens, a policy and a number of findings. -/
def summary (t : TokenSet) (p : Policy) (adoptionRequired : Bool) (findings : Nat) : Summary where
  policy := p.id
  adoptionRequired := adoptionRequired
  scanned := pinned t.ordered.length
  unique := pinned t.unique.length
  malformed := pinned t.malformed.length
  load := t.firstValue "~LOAD:"
  pressure := t.pressure.map Pressure.name
  readyTier := t.readyTier.map ReadyTier.name
  findings := pinned findings

/-- Whether a text is not adopted though it had to be. -/
def isUnadopted (t : TokenSet) (adoptionRequired : Bool) : Bool := adoptionRequired && t.isEmpty

/-- The verdict for a list of violations. -/
def Verdict.of (vs : List Violation) : Verdict := if vs.isEmpty then .pass else .fail

/-- The outcome for tokens and a policy. -/
def lintTokens (t : TokenSet) (p : Policy) (adoptionRequired : Bool) : Outcome :=
  if isUnadopted t adoptionRequired then ⟨.noAdoption, [], summary t p adoptionRequired 0⟩
  else
    let vs := violations t p
    ⟨.of vs, vs.map Violation.finding, summary t p adoptionRequired vs.length⟩

/-- The outcome for a text and a policy. -/
def lint (text : String) (p : Policy) (adoptionRequired : Bool) : Outcome :=
  lintTokens (.ofText text) p adoptionRequired

/-- The source of the events of a whole run of the checks. -/
def lintSource : String := "glyphlint_domain::engine"

/-- The source of the events of single checks. -/
def checkSource : String := "glyphlint_domain::checks"

/-- What linting tells: the number of findings of each check, and the verdict. -/
def lintEvents (text : String) (p : Policy) (adoptionRequired : Bool) : List Log.Event :=
  let t := TokenSet.ofText text
  if isUnadopted t adoptionRequired then
    [⟨.debug, lintSource, "no ~tokens found and adoption is required", []⟩]
  else
    let checks := Check.all.map fun c =>
      (⟨.debug, checkSource, "check finished",
        [("check", .text c.logName), ("findings", .count (violationsOf t p c).length)]⟩ :
        Log.Event)
    let vs := violations t p
    checks ++ [⟨.debug, lintSource, "lint complete",
      [("tokens", .count t.ordered.length), ("findings", .count vs.length),
        ("verdict", .written (Verdict.of vs).logName)]⟩]

end Lint
end GlyphLine

import GlyphLine.Explain.Layout
import GlyphLine.Host.Act

/-!
# Coverage of explanations

Every check and every code has to have an explanation, and none of its parts may be
empty.

* `coverageErrors`: what is missing.
* `explainCoverage`: the explanations checked.
-/

namespace GlyphLine
namespace Upkeep

/-- What is missing from the explanation of a name. -/
def coverageErrorsOf (kind name : String) : List String :=
  let label := kind ++ " '" ++ name ++ "' has "
  match Explain.lookup? name with
  | none => [label ++ "no explanation"]
  | some e =>
    [("title", e.title), ("description", e.description), ("remediation", e.remediation)].filterMap
      fun p => if p.2.isEmpty then some (label ++ "empty " ++ p.1) else none

/-- What is missing from the explanations. -/
def coverageErrors : List String :=
  Explain.checkIds.flatMap (coverageErrorsOf "Check ID") ++
    Explain.codeNames.flatMap (coverageErrorsOf "Code")

variable {m : Type → Type} [Monad m] [Host m]

/-- The explanations checked, and what is missing told. -/
def explainCoverage : Act m Unit := do
  let errors := coverageErrors
  if errors.isEmpty then
    Act.printLines [
      "✓ " ++ toString Explain.checkIds.length ++ " check IDs have explanations",
      "✓ " ++ toString Explain.codeNames.length ++ " codes have explanations",
      "", "✓ All explain coverage checks passed!"]
  else
    Act.tellLines (errors.map ("  - " ++ ·))
    throw ⟨"Explain coverage validation failed with " ++ toString errors.length ++ " errors", []⟩

end Upkeep
end GlyphLine

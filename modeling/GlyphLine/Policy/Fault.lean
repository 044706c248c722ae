import GlyphLine.Json.Fault
import GlyphLine.Yaml.Fault

/-!
# What can be wrong with a policy

A document may not be readable in its format, and it may name a pressure or a tier that
does not exist.
-/

namespace GlyphLine
namespace Policy

/-- What is wrong with a policy. -/
inductive Fault where
  | yaml (f : Yaml.Fault)
  | json (f : Json.Fault)
  | unknownPressure (load value : String)
  | unknownReadyTier (value : String)
  deriving DecidableEq, Repr

/-- The message of what lies behind a fault, if something does. -/
def Fault.cause? : Fault → Option String
  | .yaml f => some f.message
  | .json f => some f.message
  | _ => none

/-- The message of a fault. -/
def Fault.message : Fault → String
  | .yaml f => "invalid ICEMAP YAML: " ++ f.message
  | .json f => "invalid ICEMAP JSON: " ++ f.message
  | .unknownPressure load value =>
    "unknown min_pressure " ++ Text.quoted value ++ " for load " ++ Text.quoted load ++
      " (expected P0|P1|P2|P3)"
  | .unknownReadyTier value =>
    "unknown official_require.require_ready_tier " ++ Text.quoted value ++
      " (expected core|ui|demo)"

end Policy
end GlyphLine

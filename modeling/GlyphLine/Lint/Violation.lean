import GlyphLine.Json.Basic
import GlyphLine.Level.Pressure
import GlyphLine.Level.ReadyTier
import GlyphLine.Lint.Code
import GlyphLine.Text.Basic

/-!
# Violations

A violation is a rule that a text does not keep, with what makes it so: the token, the
load class, the names that are missing.  From this follow its code, its message, the
advice that goes with it, and the data for a reader that is a program.
-/

namespace GlyphLine
namespace Lint

/-- A rule that is not kept.  There is one kind for each code. -/
inductive Violation where
  | invalidToken (token : String)
  | freezeForbidsPass
  | iceFailForbidsPass
  | zdmMismatchForbidsPass
  | missingEvidence (names : List String)
  | missingShot (tier : ReadyTier)
  | missingReport
  | unknownLoad (load policy : String) (known : List String)
  | missingPressure (load : String)
  | pressureTooLow (load : String) (required actual : Pressure)
  | missingIcemap (load policy : String)
  | icemapMismatch (declared policy : String)
  | missingProbes (load : String) (probes : List String)
  | vetoSignal (load : String) (signals : List String)
  | unmet (requirement : Requirement) (need policy : String)
  deriving DecidableEq, Repr

namespace Violation

/-- The code of a violation. -/
def code : Violation → Code
  | .invalidToken _ => .invalidTokenCharacters
  | .freezeForbidsPass => .freezeForbidsPass
  | .iceFailForbidsPass => .iceFailForbidsPass
  | .zdmMismatchForbidsPass => .zdmMismatchForbidsPass
  | .missingEvidence _ => .missingEvidence
  | .missingShot _ => .missingShot
  | .missingReport => .missingReport
  | .unknownLoad .. => .unknownLoad
  | .missingPressure _ => .missingPressure
  | .pressureTooLow .. => .pressureTooLow
  | .missingIcemap .. => .missingIcemap
  | .icemapMismatch .. => .icemapMismatch
  | .missingProbes .. => .missingProbes
  | .vetoSignal .. => .vetoSignal
  | .unmet .. => .unmetRequirement

/-- The message of a violation. -/
def message : Violation → String
  | .invalidToken token => "Invalid token characters: " ++ token
  | .freezeForbidsPass => "~P3 forbids ~PASS (freeze mode)"
  | .iceFailForbidsPass => "~ICE- forbids ~PASS (substrate failed)"
  | .zdmMismatchForbidsPass => "~ZDM- forbids ~PASS (mismatch detected)"
  | .missingEvidence names => "READY requires evidence tokens missing: " ++ Text.join ", " names
  | .missingShot _ => "READY:ui requires ~SHOT"
  | .missingReport => "READY:demo requires ~REPORT"
  | .unknownLoad load policy _ => "Unknown ~LOAD:" ++ load ++ " for policy " ++ policy
  | .missingPressure load =>
    "~LOAD:" ++ load ++ " requires an explicit pressure token (~P0/~P1/~P2/~P3)"
  | .pressureTooLow load required _ =>
    "Pressure too low for ~LOAD:" ++ load ++ ": need " ++ required.token ++ " or higher"
  | .missingIcemap load _ => "~LOAD:" ++ load ++ " requires ~ICEMAP:<id>"
  | .icemapMismatch declared policy =>
    "~ICEMAP:" ++ declared ++ " does not match policy file icemap_id=" ++ policy
  | .missingProbes load probes =>
    "Missing required probes for ~LOAD:" ++ load ++ ": " ++ Text.join ", " probes
  | .vetoSignal _ signals =>
    "Veto signals present (" ++ Text.join ", " signals ++ ") so ~PASS is illegal"
  | .unmet _ need _ => "~DEMO:official requires " ++ need

/-- The advice that goes with a code. -/
def advice : Code → String
  | .invalidTokenCharacters =>
    "Tokens may only use A-Z a-z 0-9 and : + - ? ! _ / . | after the `~`."
  | .freezeForbidsPass => "Drop ~PASS while the freeze pressure ~P3 is declared."
  | .iceFailForbidsPass => "Fix the substrate and report ~ICE+, or drop ~PASS."
  | .zdmMismatchForbidsPass => "Resolve the mismatch and report ~ZDM+, or drop ~PASS."
  | .missingEvidence =>
    "Back the READY claim with commit, hash, JSON, architecture, manifest and identity tokens."
  | .missingShot => "Reference a screenshot, e.g. ~SHOT:login.png."
  | .missingReport => "Reference the demo report, e.g. ~REPORT:demo.html."
  | .unknownLoad => "Use a load class defined in the policy's `loads` section."
  | .missingPressure => "Declare the pressure in effect with one of ~P0, ~P1, ~P2, ~P3."
  | .pressureTooLow => "Raise the declared pressure to the load class minimum."
  | .missingIcemap => "High-sensitivity loads must name their governing policy."
  | .icemapMismatch =>
    "Lint against the policy named in the text, or correct the ~ICEMAP token."
  | .missingProbes => "Run each required probe and add a ~PROBE:<name> token for it."
  | .vetoSignal => "Clear the veto signals or drop ~PASS."
  | .unmetRequirement =>
    "Add the tokens required by the policy's official_require section."

/-- The two tokens that exclude each other. -/
def pairData (token : String) : Json :=
  .object [("tokens", Json.strings [token, "~PASS"])]

/-- What a program can know of a violation.  The members are in order of their names. -/
def data : Violation → Json
  | .invalidToken token => .object [("token", .string token)]
  | .freezeForbidsPass => pairData "~P3"
  | .iceFailForbidsPass => pairData "~ICE-"
  | .zdmMismatchForbidsPass => pairData "~ZDM-"
  | .missingEvidence names => .object [("missing", Json.strings names)]
  | .missingShot tier => .object [("tier", .string tier.name)]
  | .missingReport => .object [("tier", .string ReadyTier.demo.name)]
  | .unknownLoad load policy known => .object [
      ("icemap_id", .string policy), ("known_loads", Json.strings known),
      ("load", .string load)]
  | .missingPressure load => .object [("load", .string load)]
  | .pressureTooLow load required actual => .object [
      ("actual", .string actual.name), ("load", .string load),
      ("required", .string required.name)]
  | .missingIcemap load policy => .object [
      ("icemap_id", .string policy), ("load", .string load)]
  | .icemapMismatch declared policy => .object [
      ("declared", .string declared), ("icemap_id", .string policy)]
  | .missingProbes load probes => .object [
      ("load", .string load), ("missing", Json.strings probes)]
  | .vetoSignal load signals => .object [
      ("load", .string load), ("signals", Json.strings signals)]
  | .unmet requirement _ policy => .object [
      ("icemap_id", .string policy), ("requirement", .string requirement.key)]

end Violation
end Lint
end GlyphLine

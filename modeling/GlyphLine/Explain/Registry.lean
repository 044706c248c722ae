import GlyphLine.Lint.Code

/-!
# Explanations

What each check and each code means, how a violation is mended, and a text with the
violation beside one without it.  An explanation is found by the identifier of a check
or by the name of a code.  The names that are registered are listed beside the table of
explanations, and both have to be kept in step.

* `Explain.explanations`: the table of explanations.
* `Explain.lookup?`: the explanation of an identifier.
* `Explain.checkIds`, `Explain.codeNames`: the registered names.
-/

namespace GlyphLine

/-- What a check or a code means. -/
structure Explanation where
  title : String
  description : String
  remediation : String
  before : String
  after : String
  deriving DecidableEq, Repr

namespace Explain

open Lint

/-- Which characters a token may have. -/
def tokenCharset : Explanation where
  title := "Token Characters"
  description :=
    "Every whitespace-separated word starting with `~` is treated as a token and must match\n" ++
    "`~[A-Za-z0-9:+-?!_/.|]+`.\n" ++
    "\n" ++
    "A malformed token usually means punctuation from the surrounding prose was glued onto it\n" ++
    "(`~PASS,` or `(~P1)`), or that a bare `~` was typed. The malformed text still counts as a\n" ++
    "token for the other checks, so `~PASS,` does NOT count as `~PASS`."
  remediation :=
    "Separate tokens from punctuation with whitespace, and only use the allowed characters."
  before :=
    "Ready to ship ~PASS, see ~RUN:nightly#42"
  after :=
    "Ready to ship ~PASS see ~RUN:nightly-42"

/-- What a pass may not stand beside. -/
def illegalCombo : Explanation where
  title := "Illegal Token Combinations"
  description :=
    "Some verdicts make a pass claim impossible, regardless of any other evidence:\n" ++
    "- `~P3` (freeze pressure) forbids `~PASS`\n" ++
    "- `~ICE-` (substrate failed) forbids `~PASS`\n" ++
    "- `~ZDM-` (mismatch detected) forbids `~PASS`\n" ++
    "\n" ++
    "Each combination is reported on its own; all of them are checked."
  remediation :=
    "Drop the `~PASS` claim, or resolve the blocking verdict and update the token\n" ++
    "(`~ICE+`, `~ZDM+`, or a lower pressure once the freeze is lifted)."
  before :=
    "~P3 ~PASS"
  after :=
    "~P3 ~FAIL"

/-- What a claim of readiness needs. -/
def readyEvidence : Explanation where
  title := "Readiness Evidence"
  description :=
    "Any `~READY:<tier>` claim must be backed by an evidence bundle:\n" ++
    "- `~COMMIT`, `~HASH`, `~JSON`, `~ARCH`, `~MANI` (bare or valued, e.g. `~JSON:report.json`)\n" ++
    "- at least one `~ENV:`, `~RUN:`, `~TRACE:` and `~ICEMAP:` token\n" ++
    "\n" ++
    "Missing items are reported together in one finding, sorted."
  remediation :=
    "Add the missing evidence tokens, pointing at the artifacts that back the claim."
  before :=
    "~READY:core ~COMMIT"
  after :=
    "~READY:core ~COMMIT ~HASH ~JSON:atomic.json ~ARCH ~MANI ~ENV:ci ~RUN:42 ~TRACE:t-1 " ++
    "~ICEMAP:ice-v1"

/-- What a load class asks for. -/
def icemap : Explanation where
  title := "ICEMAP Load-Class Policy"
  description :=
    "A `~LOAD:<class>` token binds the text to a load class of the ICEMAP policy. The class\n" ++
    "must exist in the policy, an explicit pressure token must meet the class minimum, the\n" ++
    "class's required probes must be present, and its veto signals forbid `~PASS`.\n" ++
    "\n" ++
    "High-sensitivity classes (`prod`, `public`, `pay`) must also name their governing policy\n" ++
    "with `~ICEMAP:<id>`, and any `~ICEMAP:<id>` must match the policy file in use."
  remediation :=
    "Declare a known load class, an explicit `~P0`..`~P3` at or above its minimum, every\n" ++
    "required `~PROBE:<name>`, and the matching `~ICEMAP:<id>`."
  before :=
    "~LOAD:prod ~PASS"
  after :=
    "~LOAD:prod ~P2 ~ICEMAP:ice-v1 ~PROBE:latency ~PASS"

/-- What an official claim has to meet. -/
def officialClaim : Explanation where
  title := "Official Claim Requirements"
  description :=
    "`~DEMO:official` is a high-stakes claim gated by the policy's `official_require` bundle.\n" ++
    "Each configured requirement (pass claim, `~ENV:`/`~RUN:` identity, exact run, `~ICE+`,\n" ++
    "RGCA all plus, `~ZD+`, `~ZDM+`, `~T+`, readiness tier, `~BS+`, `~TB+`) is checked on its " ++
    "own\n" ++
    "and reported on its own."
  remediation :=
    "Add every token the policy's `official_require` section asks for, or drop the official\n" ++
    "claim."
  before :=
    "~DEMO:official ~PASS"
  after :=
    "~DEMO:official ~PASS ~ICE+ ~RGCA+ ~ENV:prod ~RUN:release"

/-- A pass in a freeze. -/
def freezeForbidsPass : Explanation where
  title := "Freeze Mode Forbids PASS"
  description :=
    "`~P3` is the maximum pressure (freeze mode). While it is the highest pressure declared,\n" ++
    "no pass claim is allowed."
  remediation :=
    "Remove `~PASS` or lower the pressure once the freeze has been lifted."
  before :=
    "~P1 ~P3 ~PASS"
  after :=
    "~P1 ~PASS"

/-- A pass beside a failed substrate. -/
def iceFailForbidsPass : Explanation where
  title := "Failed Substrate Forbids PASS"
  description :=
    "`~ICE-` records a failed substrate verdict, which invalidates any pass claim."
  remediation :=
    "Fix the substrate and report `~ICE+`, or drop `~PASS`."
  before :=
    "~ICE- ~PASS"
  after :=
    "~ICE+ ~PASS"

/-- A pass beside a detected mismatch. -/
def zdmMismatchForbidsPass : Explanation where
  title := "Detected Mismatch Forbids PASS"
  description :=
    "`~ZDM-` records a detected mismatch, which invalidates any pass claim."
  remediation :=
    "Resolve the mismatch and report `~ZDM+`, or drop `~PASS`."
  before :=
    "~ZDM- ~PASS"
  after :=
    "~ZDM+ ~PASS"

/-- A tier without a screenshot. -/
def missingShot : Explanation where
  title := "READY:ui Requires a Screenshot"
  description :=
    "The `ui` and `demo` readiness tiers need a `~SHOT` token (bare or valued)."
  remediation :=
    "Attach a screenshot and reference it, e.g. `~SHOT:login.png`."
  before :=
    "~READY:ui"
  after :=
    "~READY:ui ~SHOT:login.png"

/-- A demo without a report. -/
def missingReport : Explanation where
  title := "READY:demo Requires a Report"
  description :=
    "The `demo` readiness tier needs a `~REPORT` token (bare or valued) in addition to `~SHOT`."
  remediation :=
    "Publish the demo report and reference it, e.g. `~REPORT:demo.html`."
  before :=
    "~READY:demo ~SHOT"
  after :=
    "~READY:demo ~SHOT ~REPORT:demo.html"

/-- A load that the policy does not define. -/
def unknownLoad : Explanation where
  title := "Unknown Load Class"
  description :=
    "The `~LOAD:<class>` value is not defined in the policy's `loads` section. No other\n" ++
    "load-class check runs for the text."
  remediation :=
    "Use one of the load classes defined by the policy, or add the class to the policy."
  before :=
    "~LOAD:prdo ~P2"
  after :=
    "~LOAD:prod ~P2"

/-- A load without a pressure. -/
def missingPressure : Explanation where
  title := "Load Requires Explicit Pressure"
  description :=
    "Declaring a load class is a fail-closed commitment: an explicit pressure token is required."
  remediation :=
    "Add one of `~P0`, `~P1`, `~P2`, `~P3`."
  before :=
    "~LOAD:staging"
  after :=
    "~LOAD:staging ~P1"

/-- A pressure below that of the load. -/
def pressureTooLow : Explanation where
  title := "Pressure Below Load Minimum"
  description :=
    "The highest declared pressure is below the `min_pressure` of the load class."
  remediation :=
    "Raise the pressure to at least the minimum named in the finding."
  before :=
    "~LOAD:staging ~P0"
  after :=
    "~LOAD:staging ~P1"

/-- A sensitive load without a policy. -/
def missingIcemap : Explanation where
  title := "High-Sensitivity Load Requires ICEMAP"
  description :=
    "The `prod`, `public` and `pay` load classes must identify their governing policy."
  remediation :=
    "Add `~ICEMAP:<id>` with the `icemap_id` of the policy."
  before :=
    "~LOAD:prod ~P2"
  after :=
    "~LOAD:prod ~P2 ~ICEMAP:ice-v1"

/-- A policy other than the one in use. -/
def icemapMismatch : Explanation where
  title := "ICEMAP Does Not Match Policy"
  description :=
    "The text names a different policy document than the one it is being linted against."
  remediation :=
    "Lint against the named policy, or correct the `~ICEMAP:<id>` token."
  before :=
    "~ICEMAP:ice-v0"
  after :=
    "~ICEMAP:ice-v1"

/-- A load without its probes. -/
def missingProbes : Explanation where
  title := "Missing Required Probes"
  description :=
    "The load class lists probes in `required_probes` that have no `~PROBE:<name>` token."
  remediation :=
    "Run the probes and add a `~PROBE:<name>` token for each one."
  before :=
    "~LOAD:staging ~P1"
  after :=
    "~LOAD:staging ~P1 ~PROBE:latency"

/-- A pass beside a veto signal. -/
def vetoSignal : Explanation where
  title := "Veto Signal Forbids PASS"
  description :=
    "A `~SIG:<name>` listed in the load class's `veto_signals` is present together with " ++
    "`~PASS`.\n" ++
    "Veto signals never fail a text on their own, only in combination with a pass claim."
  remediation :=
    "Clear the signal or drop `~PASS`."
  before :=
    "~LOAD:prod ~P2 ~ICEMAP:ice-v1 ~SIG:oom ~PASS"
  after :=
    "~LOAD:prod ~P2 ~ICEMAP:ice-v1 ~SIG:oom ~FAIL"

/-! ## Finding an explanation -/

/-- The explanations, each under the identifier of a check or the name of a code.  A group of
codes can share one explanation, and with its check as well. -/
def explanations : List (String × Explanation) := [
  (Check.tokenCharset.id, tokenCharset),
  (Check.illegalCombo.id, illegalCombo),
  (Check.readyEvidence.id, readyEvidence),
  (Check.icemap.id, icemap),
  (Check.officialClaim.id, officialClaim),
  (Code.invalidTokenCharacters.name, tokenCharset),
  (Code.freezeForbidsPass.name, freezeForbidsPass),
  (Code.iceFailForbidsPass.name, iceFailForbidsPass),
  (Code.zdmMismatchForbidsPass.name, zdmMismatchForbidsPass),
  (Code.missingEvidence.name, readyEvidence),
  (Code.missingShot.name, missingShot),
  (Code.missingReport.name, missingReport),
  (Code.unknownLoad.name, unknownLoad),
  (Code.missingPressure.name, missingPressure),
  (Code.pressureTooLow.name, pressureTooLow),
  (Code.missingIcemap.name, missingIcemap),
  (Code.icemapMismatch.name, icemapMismatch),
  (Code.missingProbes.name, missingProbes),
  (Code.vetoSignal.name, vetoSignal),
  (Code.unmetRequirement.name, officialClaim)]

/-- The explanation of the check or the code with a given name. -/
def lookup? (name : String) : Option Explanation := explanations.lookup name

/-- The registered identifiers of checks. -/
def checkIds : List String := [
  Check.tokenCharset.id, Check.illegalCombo.id, Check.readyEvidence.id, Check.icemap.id,
  Check.officialClaim.id]

/-- The registered names of codes. -/
def codeNames : List String := [
  Code.invalidTokenCharacters.name,
  Code.freezeForbidsPass.name,
  Code.iceFailForbidsPass.name,
  Code.zdmMismatchForbidsPass.name,
  Code.missingEvidence.name,
  Code.missingShot.name,
  Code.missingReport.name,
  Code.unknownLoad.name,
  Code.missingPressure.name,
  Code.pressureTooLow.name,
  Code.missingIcemap.name,
  Code.icemapMismatch.name,
  Code.missingProbes.name,
  Code.vetoSignal.name,
  Code.unmetRequirement.name]

end Explain
end GlyphLine

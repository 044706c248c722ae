import GlyphLine.Lint.Violation
import GlyphLine.Policy.Basic
import GlyphLine.Token.Set

/-!
# The rules

Each check looks at the tokens of a text, and most at the policy, and lists the
violations that it finds in a fixed order.  The checks are independent of each other:
none is left out because of what another one finds.

* `violationsOf`: the violations of one check.
* `violations`: those of all checks.
-/

namespace GlyphLine
namespace Lint

/-- A violation, if a rule is broken. -/
def when (broken : Bool) (v : Violation) : List Violation := if broken then [v] else []

/-! ## Tokens and combinations -/

/-- Every token that is not well formed is a violation, each time it occurs. -/
def charsetViolations (t : TokenSet) : List Violation := t.malformed.map .invalidToken

/-- A pass must not be claimed in a freeze, nor beside a failed substrate or a detected
mismatch. -/
def comboViolations (t : TokenSet) : List Violation :=
  if t.contains "~PASS" then
    when (t.pressure == some .p3) .freezeForbidsPass ++
      when (t.contains "~ICE-") .iceFailForbidsPass ++
      when (t.contains "~ZDM-") .zdmMismatchForbidsPass
  else []

/-! ## Readiness -/

/-- The evidence that a claim of readiness needs, bare or with a value. -/
def evidenceBases : List String := ["~COMMIT", "~HASH", "~JSON", "~ARCH", "~MANI"]

/-- The identities that a claim of readiness needs, with a value. -/
def identityStarts : List String := ["~ENV:", "~RUN:", "~TRACE:", "~ICEMAP:"]

/-- The evidence that is missing, by name and in increasing order.  The name of an
identity is its beginning with a star. -/
def missingEvidence (t : TokenSet) : List String :=
  let bases := evidenceBases.filter fun b => !t.hasBase b
  let identities := identityStarts.filter fun s => !t.hasStart s
  (bases ++ identities.map (· ++ "*")).mergeSort fun s u => decide (s ≤ u)

/-- The tiers `ui` and `demo` need a screenshot, and the tier `demo` a report. -/
def tierViolations (t : TokenSet) : List Violation :=
  match t.readyTier with
  | some .ui => when (!t.hasBase "~SHOT") (.missingShot .ui)
  | some .demo => when (!t.hasBase "~SHOT") (.missingShot .demo) ++
      when (!t.hasBase "~REPORT") .missingReport
  | _ => []

/-- A claim of readiness needs all evidence, and what its tier needs. -/
def readyViolations (t : TokenSet) : List Violation :=
  if t.hasStart "~READY:" then
    let missing := missingEvidence t
    when (!missing.isEmpty) (.missingEvidence missing) ++ tierViolations t
  else []

/-! ## Load classes -/

/-- A pressure must be declared, and be high enough for the load. -/
def pressureViolations (t : TokenSet) (load : String) (c : LoadClass) : List Violation :=
  match t.pressure with
  | none => [.missingPressure load]
  | some p => when (decide (p < c.minPressure)) (.pressureTooLow load c.minPressure p)

/-- Under a sensitive load the policy must be named, and a policy that is named must be
the one in use. -/
def namingViolations (t : TokenSet) (load : String) (p : Policy) : List Violation :=
  let named := t.firstValue "~ICEMAP:"
  when (Policy.sensitiveLoads.contains load && named.isNone) (.missingIcemap load p.id) ++
    (match named with
    | some id => when (id != p.id) (.icemapMismatch id p.id)
    | none => [])

/-- The required probes that no token names, in the order of the policy. -/
def missingProbes (t : TokenSet) (c : LoadClass) : List String :=
  let named := t.valuesWith "~PROBE:"
  c.probes.filter fun p => !named.contains p

/-- The veto signals that a token names, in the order of the policy. -/
def activeVetoes (t : TokenSet) (c : LoadClass) : List String :=
  let named := t.valuesWith "~SIG:"
  c.vetoSignals.filter fun s => named.contains s

/-- All required probes must be named, and no veto signal beside a pass. -/
def signalViolations (t : TokenSet) (load : String) (c : LoadClass) : List Violation :=
  let probes := missingProbes t c
  let signals := activeVetoes t c
  when (!probes.isEmpty) (.missingProbes load probes) ++
    when (!signals.isEmpty && t.contains "~PASS") (.vetoSignal load signals)

/-- The first load that a text declares must be one of the policy, and the text must
keep the rules of its class. -/
def loadViolations (t : TokenSet) (p : Policy) : List Violation :=
  match t.firstValue "~LOAD:" with
  | none => []
  | some load =>
    match p.load? load with
    | none => [.unknownLoad load p.id p.loads.names]
    | some c =>
      pressureViolations t load c ++ namingViolations t load p ++ signalViolations t load c

/-! ## Official claims -/

/-- The token of an official claim. -/
def officialToken : String := "~DEMO:official"

/-- What a requirement asks for, if it is configured. -/
def need? (o : Official) : Requirement → Option String
  | .pass => if o.pass then some "~PASS" else none
  | .env => if o.env then some "~ENV:<...>" else none
  | .run => if o.run then some "~RUN:<...>" else none
  | .runMustBe => o.runMustBe.map ("~RUN:" ++ ·)
  | .iceMustBe => if o.iceMustBe = some "+" then some "~ICE+" else none
  | .rgcaAllPlus =>
    if o.rgcaAllPlus then some "RGCA all plus (~RGCA+ or ~R+ ~G+ ~C+ ~A+)" else none
  | .zdPlus => if o.zdPlus then some "~ZD+" else none
  | .zdmPlus => if o.zdmPlus then some "~ZDM+" else none
  | .thaletPlus => if o.thaletPlus then some "~T+" else none
  | .readyTier => o.readyTier.map ReadyTier.token
  | .bridgespecPlus => if o.bridgespecPlus then some "~BS+" else none
  | .tbPlus => if o.tbPlus then some "~TB+" else none

/-- Whether tokens meet a requirement.  An expected run binds only if a run is declared,
and only the first one counts. -/
def isMet (o : Official) (t : TokenSet) : Requirement → Bool
  | .pass => t.contains "~PASS"
  | .env => (t.firstValue "~ENV:").isSome
  | .run => (t.firstValue "~RUN:").isSome
  | .runMustBe =>
    match t.firstValue "~RUN:" with
    | none => true
    | some run => o.runMustBe == some run
  | .iceMustBe => t.contains "~ICE+"
  | .rgcaAllPlus => t.rgcaAllPlus
  | .zdPlus => t.contains "~ZD+"
  | .zdmPlus => t.contains "~ZDM+"
  | .thaletPlus => t.contains "~T+"
  | .readyTier => t.readyTier == o.readyTier
  | .bridgespecPlus => t.contains "~BS+"
  | .tbPlus => t.contains "~TB+"

/-- The violation of a requirement that is configured and not met. -/
def unmet? (t : TokenSet) (p : Policy) (r : Requirement) : Option Violation :=
  match need? p.official r with
  | none => none
  | some need => if isMet p.official t r then none else some (.unmet r need p.id)

/-- An official claim must meet every configured requirement. -/
def officialViolations (t : TokenSet) (p : Policy) : List Violation :=
  if t.contains officialToken then Requirement.all.filterMap (unmet? t p) else []

/-! ## All checks -/

/-- The violations of one check. -/
def violationsOf (t : TokenSet) (p : Policy) : Check → List Violation
  | .tokenCharset => charsetViolations t
  | .illegalCombo => comboViolations t
  | .readyEvidence => readyViolations t
  | .icemap => loadViolations t p
  | .officialClaim => officialViolations t p

/-- The violations of all checks, one check after the other. -/
def violations (t : TokenSet) (p : Policy) : List Violation :=
  Check.all.flatMap (violationsOf t p)

end Lint
end GlyphLine

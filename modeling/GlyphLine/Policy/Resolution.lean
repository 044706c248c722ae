import GlyphLine.Log.Event
import GlyphLine.Policy.Basic
import GlyphLine.Policy.Document
import GlyphLine.Policy.Fault

/-!
# From documents to policies

A document resolves to a policy: scalars become texts, switches become truth values,
and the names of pressures and tiers become levels.  What is missing takes its default.
Only an unknown pressure or tier is a fault; loads are looked at in the order of their
names, and the requirements after them.

* `Document.resolve`: the policy of a document.
* `resolutionEvents`: what a resolution tells.
-/

namespace GlyphLine
namespace Policy

/-- The pressure that a text names, with white space around it or without. -/
def pressureOf (load value : String) : Except Fault Pressure :=
  match Pressure.ofName? (Text.trim value) with
  | some p => .ok p
  | none => .error (.unknownPressure load value)

/-- The tier that a text names, with white space around it or without. -/
def readyTierOf (value : String) : Except Fault ReadyTier :=
  match ReadyTier.ofName? (Text.trim value) with
  | some t => .ok t
  | none => .error (.unknownReadyTier value)

/-- The texts of a list that may be missing. -/
def texts (values : Option (List Scalar)) : List String := (values.getD []).map Scalar.toText

/-- The load class of a section. -/
def LoadSection.resolve (name : String) (s : LoadSection) : Except Fault LoadClass :=
  let pressure : Except Fault Pressure :=
    match s.minPressure with
    | none => .ok .p0
    | some v => pressureOf name v.toText
  pressure.map fun p => ⟨p, texts s.probes, texts s.vetoSignals⟩

/-- Whether a switch is there and on. -/
def isOn (switch : Option Scalar) : Bool := switch.any Scalar.isEnabled

/-- The text of a scalar, if it is there and its text is not empty. -/
def configured (v : Option Scalar) : Option String :=
  (v.map Scalar.toText).filter fun s => !s.isEmpty

/-- The requirements of a section. -/
def OfficialSection.resolve (s : OfficialSection) : Except Fault Official :=
  let tier : Except Fault (Option ReadyTier) :=
    match configured s.readyTier with
    | none => .ok none
    | some v => (readyTierOf v).map some
  tier.map fun t => {
    pass := isOn s.pass
    env := isOn s.env
    run := isOn s.run
    runMustBe := configured s.runMustBe
    iceMustBe := configured s.iceMustBe
    rgcaAllPlus := isOn s.rgcaAllPlus
    zdPlus := isOn s.zdPlus
    zdmPlus := isOn s.zdmPlus
    thaletPlus := isOn s.thaletPlus
    readyTier := t
    bridgespecPlus := isOn s.bridgespecPlus
    tbPlus := isOn s.tbPlus }

/-- The load classes of the sections of a document. -/
def resolveLoads (loads : Option (ByName (Option LoadSection))) :
    Except Fault (ByName LoadClass) :=
  ((loads.getD .empty).map fun name s => LoadSection.resolve name (s.getD {})).collect

/-- The policy of a document. -/
def Document.resolve (d : Document) : Except Fault Policy :=
  match resolveLoads d.loads with
  | .error e => .error e
  | .ok loads =>
    match OfficialSection.resolve (d.official.getD {}) with
    | .error e => .error e
    | .ok official => .ok ⟨(d.id.map Scalar.toText).getD "", loads, official⟩

/-- The source of the events of a resolution. -/
def resolutionSource : String := "glyphlint_settings::resolve"

/-- What the resolution to a policy tells: a warning if a value for `ice_must_be` has no
effect, and that it is done. -/
def resolutionEvents (p : Policy) : List Log.Event :=
  let warnings := match p.official.iceMustBe with
    | none => []
    | some v =>
      if v = "+" then []
      else [⟨.warn, resolutionSource,
        "official_require.ice_must_be only enforces \"+\"; ignoring", [("value", .text v)]⟩]
  warnings ++ [⟨.debug, resolutionSource, "resolved ICEMAP policy",
    [("icemap_id", .written p.id), ("loads", .count p.loads.entries.length)]⟩]

end Policy
end GlyphLine

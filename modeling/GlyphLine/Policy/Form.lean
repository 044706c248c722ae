import GlyphLine.Schema.Basic

/-!
# The form of policy files

The schema of policy documents.  It accepts every document whose sections and fields
have values of the right kinds; names that it does not know are of no account.
-/

namespace GlyphLine
namespace Policy

/-- A named form, or null. -/
def orNull (name : String) : Rule := .anyOf [[.named name], [.kinds [.null]]]

/-- A scalar. -/
def scalarRules : List Rule := [
  .remark [
    "A scalar written as a string, a number or a boolean. Always compared as its text form.",
    "",
    "The text form keeps the `.0` of whole floats (`1.0`) and capitalizes booleans (`True`),",
    "so ids written by existing IceLayer tooling keep matching their `~ICEMAP:` tokens."],
  .anyOf [[.kinds [.string]], [.kinds [.integer], .width "int64"],
    [.kinds [.number], .width "double"], [.kinds [.boolean]]]]

/-- A switch. -/
def switchRules : List Rule := [
  .remark [
    "An `official_require` switch. YAML 1.1 spellings (`yes`, `on`) and numbers are accepted."],
  .anyOf [[.kinds [.boolean]], [.kinds [.integer], .width "int64"],
    [.kinds [.number], .width "double"], [.kinds [.string]]]]

/-- A scalar that may be null. -/
def scalarOrNull : List Rule := [orNull "ScalarValue"]

/-- A switch that may be null. -/
def switchOrNull : List Rule := [orNull "FlagValue"]

/-- A list of scalars that may be null. -/
def scalarsOrNull : List Rule := [.kinds [.array, .null], .items [.named "ScalarValue"]]

/-- The section of a load class. -/
def loadRules : List Rule := [
  .kinds [.object],
  .members [
    ("min_pressure", .remark ["`P0` (default), `P1`, `P2` or `P3`."] :: scalarOrNull),
    ("required_probes", .remark ["Probe names that must appear as `~PROBE:<name>`."] ::
      scalarsOrNull),
    ("veto_signals", .remark
      ["Signal names that make `~PASS` illegal when present as `~SIG:<name>`."] ::
      scalarsOrNull)] none]

/-- The section of the requirements for an official claim. -/
def officialRules : List Rule := [
  .kinds [.object],
  .members [
    ("env_required", switchOrNull),
    ("ice_must_be", .remark ["Only `\"+\"` is enforced."] :: scalarOrNull),
    ("require_bridgespec_plus", switchOrNull),
    ("require_pass", switchOrNull),
    ("require_ready_tier", .remark ["`core`, `ui` or `demo`."] :: scalarOrNull),
    ("require_rgca_all_plus", switchOrNull),
    ("require_tb_plus", switchOrNull),
    ("require_thalet_plus", switchOrNull),
    ("require_zd_plus", switchOrNull),
    ("require_zdm_plus", switchOrNull),
    ("run_must_be", .remark ["Expected `~RUN:` value; only checked when a run is declared."] ::
      scalarOrNull),
    ("run_required", switchOrNull)] none]

/-- The form of policy files. -/
def form : Schema where
  title := "IcemapDocumentV1"
  rules := [
    .remark [
      "ICEMAP policy document, schema v1 (`icemap.yaml` or `icemap.json`).",
      "",
      "This is a *user-facing* model: it is permissive, so `null` sections are accepted and",
      "unknown keys are ignored."],
    .kinds [.object],
    .members [
      ("icemap_id", .remark
        ["Policy identity, matched against `~ICEMAP:<id>`. Numbers are accepted."] :: scalarOrNull),
      ("loads", [.remark ["Map of load class name -> requirements."], .kinds [.object, .null],
        .members [] (some [orNull "LoadConfig"])]),
      ("official_require", [.remark ["Requirements gating `~DEMO:official`."],
        orNull "OfficialRequireConfig"])] none]
  definitions := [
    ("FlagValue", switchRules),
    ("LoadConfig", loadRules),
    ("OfficialRequireConfig", officialRules),
    ("ScalarValue", scalarRules)]

end Policy
end GlyphLine

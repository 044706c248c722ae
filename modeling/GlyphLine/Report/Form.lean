import GlyphLine.Lint.Outcome
import GlyphLine.Schema.Basic

/-!
# The form of report files

The schema of the JSON files that reports are kept in.
-/

namespace GlyphLine
namespace Report

/-- A text. -/
def textRules : List Rule := [.kinds [.string]]

/-- A text that may be absent. -/
def optionalTextRules : List Rule := [.kinds [.string, .null]]

/-- A count. -/
def countRules : List Rule := [.kinds [.integer], .width "uint32", .minimum 0]

/-- A finding. -/
def findingRules : List Rule := [
  .remark [
    "A single violation produced by a lint run.",
    "",
    "`message` is the human-readable violation line printed by the CLI; the other fields",
    "exist so machine consumers do not have to parse it."],
  .kinds [.object],
  .members [
    ("check_id", textRules),
    ("code", textRules),
    ("data", [.remark
      ["Check-specific structured payload (kept open-ended for forward compatibility)."]]),
    ("fingerprint", .remark [
      "Stable identifier intended for dedup and trending: a hash of",
      "`check_id + code + message`."] ::
      optionalTextRules),
    ("help", optionalTextRules),
    ("message", textRules)] none,
  .required ["check_id", "code", "message"]]

/-- A summary. -/
def summaryRules : List Rule := [
  .remark ["Glyphlint-specific summary payload for the report."],
  .kinds [.object],
  .members [
    ("findings_total", countRules),
    ("icemap_id", .remark ["`icemap_id` of the policy the text was linted against."] :: textRules),
    ("load", optionalTextRules),
    ("pressure", optionalTextRules),
    ("ready_tier", optionalTextRules),
    ("require_adoption", [.kinds [.boolean]]),
    ("tokens_malformed", countRules),
    ("tokens_scanned", .remark ["Tokens in original order, duplicates included."] :: countRules),
    ("tokens_unique", countRules)] none,
  .required ["icemap_id", "require_adoption", "tokens_scanned", "tokens_unique",
    "tokens_malformed", "findings_total"]]

/-- A tool. -/
def toolRules : List Rule := [
  .kinds [.object],
  .members [("name", textRules), ("version", textRules)] none,
  .required ["name", "version"]]

/-- A verdict. -/
def verdictRules : List Rule := [
  .remark [
    "Outcome of a lint run.",
    "",
    "`NoAdoption` is distinct from `Fail`: adoption was required and the text carried no",
    "`~` tokens at all, so no rule was evaluated."],
  .kinds [.string],
  .oneOf ([.pass, .fail, .noAdoption].map Lint.Verdict.name)]

/-- The form of report files. -/
def form : Schema where
  title := "ReportEnvelope"
  rules := [
    .remark [
      "A generic report envelope.",
      "",
      "Keeping this generic allows tool-specific data while still enforcing a stable outer shape."],
    .kinds [.object],
    .members [
      ("data", [.named "GlyphlintData"]),
      ("findings", [.kinds [.array], .items [.named "Finding"]]),
      ("finished_at", textRules),
      ("schema", .remark ["Versioned schema identifier for the envelope shape."] :: textRules),
      ("started_at", textRules),
      ("tool", [.named "ToolMeta"]),
      ("verdict", [.named "Verdict"])] none,
    .required ["schema", "tool", "started_at", "finished_at", "verdict", "findings", "data"]]
  definitions := [
    ("Finding", findingRules),
    ("GlyphlintData", summaryRules),
    ("ToolMeta", toolRules),
    ("Verdict", verdictRules)]

end Report
end GlyphLine

import GlyphLine.Lint.Outcome
import GlyphLine.Timestamp

/-!
# Reports

A report is the outcome of a run with the tool that made it and the times between which
it was made.  Reports are kept as JSON.

* `Report.toJson`: a report as a JSON value.  What is absent has no member.
-/

namespace GlyphLine

/-- The identifier of the form that reports have. -/
def reportSchema : String := "glyphlint.report.v1"

/-- The tool that made a report. -/
structure Tool where
  name : String
  version : String
  deriving DecidableEq, Repr

/-- A report. -/
structure Report where
  tool : Tool
  startedAt : Timestamp
  finishedAt : Timestamp
  outcome : Lint.Outcome
  deriving BEq, Repr

namespace Report

open Lint

/-- A member of an object, if there is a value for it. -/
def member? (name : String) (s : Option String) : List (String × Json) :=
  match s with
  | some s => [(name, .string s)]
  | none => []

/-- A finding as a JSON value. -/
def findingJson (f : Finding) : Json :=
  .object ([("check_id", .string f.checkId), ("code", .string f.code),
    ("message", .string f.message)] ++ member? "help" f.help ++
    member? "fingerprint" f.fingerprint ++
    (if f.data.isNull then [] else [("data", f.data)]))

/-- A summary as a JSON value. -/
def summaryJson (s : Summary) : Json :=
  .object ([("icemap_id", .string s.policy), ("require_adoption", .bool s.adoptionRequired),
    ("tokens_scanned", Json.ofNat s.scanned), ("tokens_unique", Json.ofNat s.unique),
    ("tokens_malformed", Json.ofNat s.malformed)] ++ member? "load" s.load ++
    member? "pressure" s.pressure ++ member? "ready_tier" s.readyTier ++
    [("findings_total", Json.ofNat s.findings)])

/-- A report as a JSON value. -/
def toJson (r : Report) : Json := .object [
  ("schema", .string reportSchema),
  ("tool", .object [("name", .string r.tool.name), ("version", .string r.tool.version)]),
  ("started_at", .string r.startedAt.text),
  ("finished_at", .string r.finishedAt.text),
  ("verdict", .string r.outcome.verdict.name),
  ("findings", .array (r.outcome.findings.map findingJson)),
  ("data", summaryJson r.outcome.summary)]

end Report
end GlyphLine

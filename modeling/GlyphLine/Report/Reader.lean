import GlyphLine.Json.Printer
import GlyphLine.Json.Reader
import GlyphLine.Json.Shape
import GlyphLine.Report.Basic

/-!
# Reading and writing reports

A report's file is JSON of a fixed form, which names itself in a member of its own.  A
file is read in three steps: it has to be JSON, it has to be of the form that this
library knows, and its members have to be those of a report.

* `Report.file`: the content of a report's file.
* `Report.ofFile`: the report of a file's content.
-/

namespace GlyphLine
namespace Report

open Lint Json

/-- The content of a report's file. -/
def file (r : Report) : String := r.toJson.file

/-! ## Shapes -/

/-- A timestamp in its written form. -/
def timestampShape : Shape Timestamp
  | .string s =>
    match Timestamp.ofText? s with
    | some t => .ok t
    | none => .error .noTime
  | v => .error (.wrongType (.of v) "an RFC3339-formatted `OffsetDateTime`")

/-- All verdicts. -/
def verdicts : List Verdict := [.pass, .fail, .noAdoption]

/-- The verdict with a name. -/
def verdictOf (name : String) : Except Fault Verdict :=
  match verdicts.find? fun v => v.name == name with
  | some v => .ok v
  | none => .error (.unknownVariant name (verdicts.map Verdict.name))

/-- A verdict: its name, or an object that has the name as its only key. -/
def verdictShape : Shape Verdict
  | .string s => verdictOf s
  | .object [(name, v)] =>
    match verdictOf name with
    | .error f => .error f
    | .ok verdict => if v.isNull then .ok verdict else .error (.wrongType (.of v) "unit")
  | .object _ => .error (.wrongValue .map "map with a single key")
  | v => .error (.wrongType (.of v) "string or map")

/-- The name and the version of a tool. -/
def toolShape : Shape Tool := .record "ToolMeta" [
  .of "name" .string fun a t => { t with name := a },
  .of "version" .string fun a t => { t with version := a }] ⟨"", ""⟩

/-- A finding.  Its data may be anything, and may be left out of a list as well. -/
def findingShape : Shape Finding := .record "Finding" [
  .of "check_id" .string fun a f => { f with checkId := a },
  .of "code" .string fun a f => { f with code := a },
  .of "message" .string fun a f => { f with message := a },
  .optional "help" .string fun a f => { f with help := a },
  .optional "fingerprint" .string fun a f => { f with fingerprint := a },
  ⟨"data", false, false, fun v f => .ok { f with data := v }⟩] ⟨"", "", "", none, none, .null⟩

/-- A summary. -/
def summaryShape : Shape Summary := .record "GlyphlintData" [
  .of "icemap_id" .string fun a s => { s with policy := a },
  .of "require_adoption" .bool fun a s => { s with adoptionRequired := a },
  .of "tokens_scanned" .count fun a s => { s with scanned := a },
  .of "tokens_unique" .count fun a s => { s with unique := a },
  .of "tokens_malformed" .count fun a s => { s with malformed := a },
  .optional "load" .string fun a s => { s with load := a },
  .optional "pressure" .string fun a s => { s with pressure := a },
  .optional "ready_tier" .string fun a s => { s with readyTier := a },
  .of "findings_total" .count fun a s => { s with findings := a }] {}

/-- A report.  The name of its form has been looked at before. -/
def shape : Shape Report := .record "ReportEnvelope" [
  .of "schema" .string fun _ r => r,
  .of "tool" toolShape fun a r => { r with tool := a },
  .of "started_at" timestampShape fun a r => { r with startedAt := a },
  .of "finished_at" timestampShape fun a r => { r with finishedAt := a },
  .of "verdict" verdictShape fun a r => { r with outcome.verdict := a },
  .of "findings" (.list findingShape) fun a r => { r with outcome.findings := a },
  .of "data" summaryShape fun a r => { r with outcome.summary := a }]
  ⟨⟨"", ""⟩, .epoch, .epoch, ⟨.pass, [], {}⟩⟩

/-! ## Files -/

/-- Why a file holds no report. -/
inductive Unreadable where
  | json (f : Fault)
  | schema (found : String)
  | shape (f : Fault)
  deriving DecidableEq, Repr

/-- What was being done, and what went wrong with it. -/
def Unreadable.messages : Unreadable → List String
  | .json f => ["parse report json", f.message]
  | .schema found =>
    ["unknown report schema: " ++ Text.quoted found ++ " (expected " ++ reportSchema ++ ")"]
  | .shape f => ["parse glyphlint v1 report", f.message]

/-- The name that a value gives to its form; the empty one if it gives none. -/
def schemaOf (v : Json) : String := ((v.member? "schema").bind Json.string?).getD ""

/-- The report of a file's content. -/
def ofFile (content : String) : Except Unreadable Report :=
  match Json.parse content with
  | .error f => .error (.json f)
  | .ok v =>
    if schemaOf v = reportSchema then (shape v).mapError .shape
    else .error (.schema (schemaOf v))

end Report
end GlyphLine

import GlyphLine.Json.Basic

/-!
# What differs from run to run

Two runs on the same input give reports that differ in their times and, with another
release, in the version of the tool.  Masking puts fixed texts in these places, so that
reports can be compared.

* `maskTimes`: the times, at any depth.
* `mask`: the times, and the version of a report.
-/

namespace GlyphLine
namespace Report

/-- What stands for a time. -/
def timeMask : String := "__TIMESTAMP__"

/-- What stands for a version. -/
def versionMask : String := "__VERSION__"

/-- The keys whose values are times. -/
def isTimeKey (key : String) : Bool := key == "started_at" || key == "finished_at"

mutual

/-- A value with its times masked. -/
def maskTimes : Json → Json
  | .array vs => .array (maskItems vs)
  | .object ms => .object (maskMembers ms)
  | v => v

/-- Values with their times masked. -/
def maskItems : List Json → List Json
  | [] => []
  | v :: vs => maskTimes v :: maskItems vs

/-- Members with their times masked, which are texts whatever they were. -/
def maskMembers : List (String × Json) → List (String × Json)
  | [] => []
  | (k, v) :: ms =>
    (k, if isTimeKey k then .string timeMask else maskTimes v) :: maskMembers ms

end

/-- Whether members have a key. -/
def hasKey (ms : List (String × Json)) (key : String) : Bool := (ms.lookup key).isSome

/-- The members that make an object a report. -/
def reportKeys : List String := ["schema", "tool", "verdict", "findings"]

/-- A tool with its version masked. -/
def maskVersion : Json → Json
  | .object ms =>
    .object (ms.map fun m => if m.1 == "version" then (m.1, .string versionMask) else m)
  | v => v

/-- A report with the version of its tool masked; anything else as it is. -/
def maskTool : Json → Json
  | .object ms =>
    if reportKeys.all (hasKey ms) then
      .object (ms.map fun m => if m.1 == "tool" then (m.1, maskVersion m.2) else m)
    else .object ms
  | v => v

/-- A value with its times and, if it is a report, the version of its tool masked. -/
def mask (v : Json) : Json := maskTimes (maskTool v)

end Report
end GlyphLine

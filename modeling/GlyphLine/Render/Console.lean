import GlyphLine.Lint.Outcome

/-!
# The outcome on a console

The verdict in one line and, if it is a failure, the message of every finding in a line
behind it.
-/

namespace GlyphLine
namespace Render

open Lint

/-- The line for a text that is not adopted. -/
def unadoptedLine : String := "glyphlint: FAIL (no ~tokens found; add a GlyphLine)"

/-- The line of a finding. -/
def consoleItem (f : Finding) : String := "- " ++ f.message

/-- The lines of an outcome. -/
def consoleLines (o : Outcome) : List String :=
  match o.verdict with
  | .noAdoption => [unadoptedLine]
  | .pass => ["glyphlint: PASS"]
  | .fail => "glyphlint: FAIL" :: o.findings.map consoleItem

/-- The outcome as it is printed. -/
def console (o : Outcome) : String := Text.lines (consoleLines o)

end Render
end GlyphLine

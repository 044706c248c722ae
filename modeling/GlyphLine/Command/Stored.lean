import GlyphLine.Command.Lint
import GlyphLine.Render.Annotation

/-!
# Kept reports

A report that has been kept in a file is shown again, as Markdown or as annotations.
-/

namespace GlyphLine
namespace Command

variable {m : Type → Type} [Monad m] [Host m]

/-- The report of a file. -/
def readReport (path : String) : Act m Report := do
  let content ← Act.readText ("read report: " ++ path) path
  Act.ofExcept (fun f => .ofMessages f.messages) (Report.ofFile content)

/-- A kept report as Markdown, printed or written to a file. -/
def markdown (path : String) (output : Option String) : Act m Unit := do
  let report ← readReport path
  let text := Render.markdown report.outcome
  match output with
  | some _ => writeAsked "write markdown output" "text" output text
  | none => Act.print text

/-- A kept report as annotations, one in a line. -/
def annotations (path : String) (max : Nat) : Act m Unit := do
  let report ← readReport path
  Act.printLines (Render.annotations report.outcome max)

end Command
end GlyphLine

import GlyphLine.Command.Request
import GlyphLine.Host.Act
import GlyphLine.Log.Filter
import GlyphLine.Policy.Adoption
import GlyphLine.Render.Console
import GlyphLine.Render.Markdown
import GlyphLine.Report.Reader
import GlyphLine.Report.Run

/-!
# Linting a text

The policy is read first, then the text, and both have to be there before anything is
written.  The outcome goes to the output, then to the file of the report, and at last to
the file of its Markdown; a failure leaves what has been written and writes no more.

* `readInput`: the policy and the text of a run.
* `lint`: the outcome of a run, where it is asked for, and its exit code.
-/

namespace GlyphLine
namespace Command

variable {m : Type → Type} [Monad m] [Host m]

/-- The text to be linted: that of a file, or the whole input.  Bytes that are no text
do no harm, they only make tokens malformed. -/
def readLinted (path : Option String) : Act m String := do
  let bytes ← match path with
    | some path => Act.during ("read text: " ++ path) (Host.read path)
    | none => Act.during "read text from stdin" Host.input
  pure (Text.decodeLossy bytes)

/-- What a run is given. -/
def readInput (o : LintOptions) : Act m Report.Input := do
  let policy ← Act.readText ("read ICEMAP policy: " ++ o.policy) o.policy
  let text ← readLinted o.text
  let required ← (Host.environment Policy.adoptionVariable : m _)
  pure ⟨policy, .ofPath o.policy, text, Policy.requiresAdoption o.adoptionRequired required⟩

/-- The events that the filter of the environment shows, told as the lines of a log. -/
def tellEvents (events : List Log.Event) : m Unit := do
  let filter := Log.Filter.ofVariable (← Host.environment Log.Filter.variableName)
  (events.filter filter.shows).forM fun e => do
    Host.tell (e.line (← Host.now).logText ++ "\n")

/-- The report of a run.  What the run tells is told. -/
def runReport (i : Report.Input) : Act m Report := do
  let startedAt ← (Host.now : m _)
  (tellEvents (Report.runEvents i) : m Unit)
  let finishedAt ← (Host.now : m _)
  let (_, report) ← Act.ofExcept (fun f => .ofMessages (Report.loadingMessages f))
    (Report.run i Report.thisTool startedAt finishedAt)
  pure report

/-- A content written to a file, whose directories are made if they are missing. -/
def writeFile (what path content : String) : Act m Unit := do
  match Path.parent? path with
  | some directory =>
    Act.during ("create directory: " ++ directory) (Act.createDirectories directory)
  | none => pure ()
  Act.during ("write " ++ what ++ ": " ++ path) (Host.write path (Text.encode content))

/-- A content written to the file that is asked for, if one is. -/
def writeAsked (doing what : String) (path : Option String) (content : String) : Act m Unit :=
  match path with
  | some path => (writeFile what path content : Act m Unit).adapt fun f => f.under doing
  | none => pure ()

/-- A text linted, and the exit code for its verdict. -/
def lint (o : LintOptions) : Act m Nat := do
  let report ← runReport (← readInput o)
  Act.print (Render.console report.outcome)
  writeAsked "write report json" "report" o.report report.file
  writeAsked "write markdown" "text" o.markdown (Render.markdown report.outcome)
  pure report.outcome.verdict.exitCode

end Command
end GlyphLine

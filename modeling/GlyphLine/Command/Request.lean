import GlyphLine.Command.Words
import GlyphLine.Text.Decimal

/-!
# Requests

A command line asks for one of four things: to lint a text, to show a kept report as
Markdown or as annotations, or to explain a name.  The first word says which, and if it
does not, a text is to be linted.

* `Request`: what can be asked for.
* `Request.ofWords`: what a command line asks for.
-/

namespace GlyphLine
namespace Command

/-- How a text is to be linted: the policy, the text if it is in a file, and where the
outcome is to be kept. -/
structure LintOptions where
  policy : String
  text : Option String := none
  adoptionRequired : Bool := false
  report : Option String := none
  markdown : Option String := none
  deriving DecidableEq, Repr

/-- What can be asked for. -/
inductive Request where
  | lint (o : LintOptions)
  | markdown (report : String) (output : Option String)
  | annotations (report : String) (max : Nat)
  | explain (name : String)
  deriving DecidableEq, Repr

/-- What can be asked for help with. -/
inductive Topic where
  | whole
  | markdown
  | annotations
  | explain
  | help
  deriving DecidableEq, Repr

/-- The names of the topics that have one. -/
def topics : List (String × Topic) := [("md", .markdown), ("annotations", .annotations),
  ("explain", .explain), ("help", .help)]

/-- What a command line leads to if it asks for nothing that can be done. -/
inductive Refused where
  | help (t : Topic)
  | version
  | words (t : Topic) (why : Refusal)
  deriving DecidableEq, Repr

/-- What ended the reading of the words of a topic. -/
def Refused.of (t : Topic) : Stop → Refused
  | .help => .help t
  | .version => .version
  | .refused why => .words t why

/-- No word is an operand. -/
def noOperand {σ : Type} (_ : String) (_ : σ) : Option σ := none

/-! ## Linting -/

/-- What has been set for linting. -/
structure LintWords where
  policy : Option String := none
  text : Option String := none
  adoptionRequired : Bool := false
  report : Option String := none
  markdown : Option String := none

/-- The options for linting. -/
def lintOptions : List (CommandOption LintWords) := [
  .text "icemap" none LintWords.policy fun v s => { s with policy := some v },
  .text "text" none LintWords.text fun v s => { s with text := some v },
  .switch "require" LintWords.adoptionRequired fun s => { s with adoptionRequired := true },
  .text "report-out" none LintWords.report fun v s => { s with report := some v },
  .text "markdown-out" none LintWords.markdown fun v s => { s with markdown := some v },
  .help, .version]

/-- The request to lint a text. -/
def lintRequest (ws : List String) : Except Stop Request := do
  let s ← readWords lintOptions noOperand ws {}
  match s.policy with
  | some policy => .ok (.lint ⟨policy, s.text, s.adoptionRequired, s.report, s.markdown⟩)
  | none => .error (.refused (.missing "--icemap"))

/-! ## Kept reports -/

/-- What has been set for a kept report. -/
structure ReportWords where
  report : Option String := none
  output : Option String := none
  max : Option Nat := none

/-- The option for the file of a report. -/
def reportOption : CommandOption ReportWords :=
  .text "report" none ReportWords.report fun v s => { s with report := some v }

/-- The file of the report that has been set. -/
def ReportWords.required (s : ReportWords) : Except Stop String :=
  match s.report with
  | some report => .ok report
  | none => .error (.refused (.missing "--report"))

/-- The request to show a kept report as Markdown. -/
def markdownRequest (ws : List String) : Except Stop Request := do
  let output : CommandOption ReportWords :=
    .text "output" (some 'o') ReportWords.output fun v s => { s with output := some v }
  let s ← readWords [reportOption, output, .help] noOperand ws {}
  .ok (.markdown (← s.required) s.output)

/-- How many annotations are shown if no number is given. -/
def defaultMax : Nat := 10

/-- The request to show a kept report as annotations. -/
def annotationsRequest (ws : List String) : Except Stop Request := do
  let max : CommandOption ReportWords :=
    .valueOf "max" none Text.count? ReportWords.max fun n s => { s with max := some n }
  let s ← readWords [reportOption, max, .help] noOperand ws {}
  .ok (.annotations (← s.required) (s.max.getD defaultMax))

/-! ## Explanations -/

/-- The request to explain a name, which is the only operand. -/
def explainRequest (ws : List String) : Except Stop Request := do
  let operand (w : String) (s : Option String) : Option (Option String) :=
    if s.isNone then some (some w) else none
  match ← readWords [.help] operand ws none with
  | some name => .ok (.explain name)
  | none => .error (.refused (.missing "<IDENTIFIER>"))

/-! ## All requests -/

/-- What a request for help is about. -/
def helpTopic : List String → Refused
  | [] => .help .whole
  | w :: ws =>
    match topics.lookup w, ws with
    | some t, [] => .help t
    | some t, w :: _ => .words t (.unknownTopic w)
    | none, _ => .words .whole (.unknownTopic w)

/-- What a command line asks for. -/
def Request.ofWords (ws : List String) : Except Refused Request :=
  match ws with
  | "md" :: ws => (markdownRequest ws).mapError (.of .markdown)
  | "annotations" :: ws => (annotationsRequest ws).mapError (.of .annotations)
  | "explain" :: ws => (explainRequest ws).mapError (.of .explain)
  | "help" :: ws => .error (helpTopic ws)
  | ws => (lintRequest ws).mapError (.of .whole)

end Command
end GlyphLine

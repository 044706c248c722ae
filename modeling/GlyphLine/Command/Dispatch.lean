import GlyphLine.Command.Lint
import GlyphLine.Command.Manual
import GlyphLine.Command.Stored
import GlyphLine.Explain.Layout

/-!
# The linter's command line

* `perform`: what a request does.
* `run`: what a command line does.

Both give the exit code.  It is 2 for a command line that is refused and 1 for whatever
else goes wrong.
-/

namespace GlyphLine
namespace Command

variable {m : Type → Type} [Monad m] [Host m]

/-- The exit code of an act.  Its failure is told in the given form. -/
def exitCode (layout : Failure → String) (a : Act m Nat) : m Nat := do
  match ← a.run with
  | .ok code => pure code
  | .error f =>
    Host.tell (layout f)
    pure 1

/-- The failure of linting in one line. -/
def lintFailure (f : Failure) : String := "glyphlint error: " ++ f.line ++ "\n"

/-- A name explained, or the names that can be. -/
def explain (name : String) : m Nat := do
  let a := Explain.answer name
  match a with
  | .found _ =>
    Host.print a.text
    pure 0
  | .unknown _ =>
    Host.tell a.text
    pure 1

/-- What a request does. -/
def perform : Request → m Nat
  | .lint o => exitCode lintFailure (lint o)
  | .markdown report output => exitCode Failure.layout do
      markdown report output
      pure 0
  | .annotations report max => exitCode Failure.layout do
      annotations report max
      pure 0
  | .explain name => explain name

/-- What a command line does that asks for nothing that can be done. -/
def refuse : Refused → m Nat
  | .help t => do
    Host.print (page t)
    pure 0
  | .version => do
    Host.print (versionLine ++ "\n")
    pure 0
  | .words t why => do
    Host.tell (refusal t why)
    pure 2

/-- What a command line does. -/
def run (ws : List String) : m Nat :=
  match Request.ofWords ws with
  | .ok r => perform r
  | .error r => refuse r

end Command
end GlyphLine

import GlyphLine.Policy.Loading
import GlyphLine.Report.Basic

/-!
# Runs

A run reads a policy, lints a text against it, and reports the outcome with the times
at which it began and ended.

* `run`: the policy and the report of a run.
* `runEvents`: what a run tells.
-/

namespace GlyphLine
namespace Report

open Lint

/-- What a run is given. -/
structure Input where
  policyText : String
  form : Policy.Notation
  text : String
  adoptionRequired : Bool
  deriving DecidableEq, Repr

/-- This tool. -/
def thisTool : Tool := ⟨"glyphlint", "0.1.0"⟩

/-- What was being done when no policy could be had. -/
def loadingContext : String := "load ICEMAP policy"

/-- What was being done, and what went wrong with it, for a policy that could not be
loaded. -/
def loadingMessages (f : Policy.Fault) : List String :=
  loadingContext :: f.message :: f.cause?.toList

/-- The policy and the report of a run by a tool between two times. -/
def run (i : Input) (tool : Tool) (startedAt finishedAt : Timestamp) :
    Except Policy.Fault (Policy × Report) :=
  (Policy.load i.policyText i.form).map fun p =>
    (p, ⟨tool, startedAt, finishedAt, lint i.text p i.adoptionRequired⟩)

/-- The source of the events of a run. -/
def runSource : String := "glyphlint_app::lint"

/-- What a run tells: what the resolution and the linting tell, and its verdict.  A run
whose policy cannot be loaded tells nothing. -/
def runEvents (i : Input) : List Log.Event :=
  match Policy.load i.policyText i.form with
  | .error _ => []
  | .ok p =>
    let o := lint i.text p i.adoptionRequired
    Policy.resolutionEvents p ++ lintEvents i.text p i.adoptionRequired ++
      [⟨.info, runSource, "glyphlint finished",
        [("icemap_id", .written p.id), ("verdict", .written o.verdict.logName),
          ("findings", .count o.findings.length)]⟩]

end Report
end GlyphLine

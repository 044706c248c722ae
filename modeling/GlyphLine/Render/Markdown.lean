import GlyphLine.Lint.Outcome

/-!
# The outcome as Markdown

A heading, a list of facts, and the findings.  Names stand in code spans; messages are
escaped, so that tokens in them do not turn into markup.

* `codeSpan`: a code span that holds a text.
* `escaped`: a message in which nothing is markup.
* `markdown`: the outcome.
-/

namespace GlyphLine
namespace Render

open Lint

/-- The character that bounds code spans. -/
def backquote : Char := '\x60'

/-- The length of the longest run of a character so far, and that of the last run, with
one more character. -/
def longerRun (c : Char) (r : Nat × Nat) (d : Char) : Nat × Nat :=
  if d = c then (max r.1 (r.2 + 1), r.2 + 1) else (r.1, 0)

/-- The length of the longest run of a character. -/
def longestRun (c : Char) (cs : List Char) : Nat :=
  (cs.foldl (longerRun c) (0, 0)).1

/-- A code span that holds a text.  Its fence is longer than any run of backquotes in
the text, and a space keeps the fence apart from a backquote at either end. -/
def codeSpanChars (cs : List Char) : List Char :=
  let fence := List.replicate (longestRun backquote cs + 1) backquote
  if cs.head? == some backquote || cs.getLast? == some backquote then
    fence ++ ' ' :: cs ++ ' ' :: fence
  else fence ++ cs ++ fence

/-- A code span that holds a text. -/
def codeSpan (s : String) : String := String.ofList (codeSpanChars s.toList)

/-- The characters that are markup unless a backslash stands in front of them. -/
def markupChars : List Char := ['~', backquote, '_', '*', '|', '[', ']', '\\']

/-- How one character of a message is written. -/
def escapedChar (c : Char) : List Char :=
  if c = '<' then "&lt;".toList
  else if c = '>' then "&gt;".toList
  else if markupChars.contains c then ['\\', c]
  else [c]

/-- A message in which nothing is markup. -/
def escaped (s : String) : String := String.ofList (s.toList.flatMap escapedChar)

/-- The verdict in the list of facts. -/
def verdictText : Verdict → String
  | .pass => "PASS"
  | .fail => "FAIL"
  | .noAdoption => "FAIL (no adoption)"

/-- A fact that names something, if there is a name. -/
def namedFact (label start : String) (name : Option String) : List String :=
  match name with
  | some s => ["- " ++ label ++ ": " ++ codeSpan (start ++ s)]
  | none => []

/-- The list of facts. -/
def factLines (v : Verdict) (s : Summary) : List String :=
  ["- Verdict: **" ++ verdictText v ++ "**",
    "- Policy: " ++ (if s.policy.isEmpty then "(unnamed)" else codeSpan s.policy),
    "- Tokens: " ++ toString s.scanned ++ " scanned / " ++ toString s.unique ++ " unique / " ++
      toString s.malformed ++ " malformed"] ++
  namedFact "Load" "~LOAD:" s.load ++ namedFact "Pressure" "~" s.pressure ++
  namedFact "Ready tier" "~READY:" s.readyTier ++
  ["- Findings: " ++ toString s.findings]

/-- The item of a finding, with its help if it has one. -/
def findingLines (f : Finding) : List String :=
  ("- `" ++ f.checkId ++ "` / `" ++ f.code ++ "`: " ++ escaped f.message) ::
    (match f.help with
    | some h => ["  - help: " ++ escaped h]
    | none => [])

/-- What stands behind the facts. -/
def resultLines (o : Outcome) : List String :=
  if o.verdict = .noAdoption then
    ["> No `~` tokens found and adoption is required. Add a GlyphLine."]
  else if o.findings.isEmpty then ["No findings."]
  else ["## Findings", ""] ++ o.findings.flatMap findingLines

theorem resultLines_of_fail {o : Outcome} (hverdict : o.verdict = .fail) (hne : o.findings ≠ []) :
    resultLines o = "## Findings" :: "" :: o.findings.flatMap findingLines := by
  rw [resultLines, hverdict, if_neg (by decide), if_neg (mt List.isEmpty_iff.mp hne)]
  rfl

/-- The outcome as Markdown. -/
def markdown (o : Outcome) : String :=
  Text.lines (["# Glyphlint report", ""] ++ factLines o.verdict o.summary ++ [""] ++ resultLines o)

end Render
end GlyphLine

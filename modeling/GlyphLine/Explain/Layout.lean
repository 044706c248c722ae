import GlyphLine.Explain.Registry
import GlyphLine.Text.Basic
import GlyphLine.Text.Blank

/-!
# Explanations as texts

An explanation is laid out with underlined headings and its examples between fences.
For a name that nothing has, the names that there are get listed.

* `layout`: an explanation.
* `notFound`: the names.
* `answer`: what is printed for a name.
-/

namespace GlyphLine
namespace Explain

/-- A heading with a line of `c` under it. -/
def heading (c : Char) (s : String) : List String :=
  [s, String.ofList (List.replicate s.length c)]

/-- An example under its label. -/
def exampleLines (label text : String) : List String := [label, "```text", text, "```"]

/-- An explanation as a text. -/
def layout (e : Explanation) : String :=
  Text.lines (heading '=' e.title ++ ["", e.description, ""] ++
    heading '-' "Remediation" ++ [e.remediation, ""] ++
    heading '-' "Examples" ++ [""] ++
    exampleLines "Before (violation):" e.before ++ [""] ++
    exampleLines "After (fixed):" e.after)

/-- A name that nothing has, and the names that there are. -/
def notFound (name : String) (checkIds codes : List String) : String :=
  Text.lines (["Unknown check_id or code: " ++ name, "", "Available check_ids:"] ++
    checkIds.map ("  - " ++ ·) ++ ["", "Available codes:"] ++ codes.map ("  - " ++ ·))

/-- What is known about a name, with white space around it or without. -/
inductive Answer where
  | found (e : Explanation)
  | unknown (name : String)
  deriving DecidableEq, Repr

/-- The answer for a name. -/
def answer (name : String) : Answer :=
  match lookup? (Text.trim name) with
  | some e => .found e
  | none => .unknown (Text.trim name)

/-- The text of an answer. -/
def Answer.text : Answer → String
  | .found e => layout e
  | .unknown name => notFound name checkIds codeNames

end Explain
end GlyphLine

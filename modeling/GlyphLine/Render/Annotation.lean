import GlyphLine.Lint.Outcome

/-!
# The outcome as annotations

A build service shows an error wherever a line of a certain form is printed.  Every
finding is one such line; line ends in it, and the sign of their escapes, are escaped.

* `annotations`: the lines of an outcome, up to a number.
-/

namespace GlyphLine
namespace Render

open Lint

/-- What every annotation begins with. -/
def annotationStart : String := "::error title=glyphlint::"

/-- How one character of an annotation is written. -/
def annotationChar (c : Char) : List Char :=
  if c = '%' then ['%', '2', '5']
  else if c = '\r' then ['%', '0', 'D']
  else if c = '\n' then ['%', '0', 'A']
  else [c]

/-- A text without line ends. -/
def oneLine (s : String) : String := String.ofList (s.toList.flatMap annotationChar)

/-- What the annotation of a finding says. -/
def annotationText (f : Finding) : String :=
  "[" ++ f.checkId ++ ":" ++ f.code ++ "] " ++ f.message

/-- The annotation of a finding. -/
def annotationLine (f : Finding) : String := annotationStart ++ oneLine (annotationText f)

/-- The annotation for a text that is not adopted. -/
def unadoptedError : String :=
  annotationStart ++ "no ~tokens found; add a GlyphLine"

/-- The annotations of an outcome, at most `max` of them. -/
def annotations (o : Outcome) (max : Nat) : List String :=
  if o.verdict = .noAdoption then [unadoptedError].take max
  else (o.findings.take max).map annotationLine

end Render
end GlyphLine

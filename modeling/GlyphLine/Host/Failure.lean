import GlyphLine.Text.Basic

/-!
# Failures of commands

A command fails with a list of messages: what was being done, and what went wrong with
it, from the outside in.  There are two ways to show them.

* `Failure.line`: in one line.
* `Failure.layout`: the first one, and the others as its causes.
-/

namespace GlyphLine

/-- What was being done, and what went wrong with it. -/
structure Failure where
  message : String
  causes : List String := []
  deriving DecidableEq, Repr

namespace Failure

/-- The failure in something that was being done. -/
def under (f : Failure) (message : String) : Failure := ⟨message, f.message :: f.causes⟩

/-- The failure with a list of messages. -/
def ofMessages : List String → Failure
  | [] => ⟨"", []⟩
  | m :: ms => ⟨m, ms⟩

/-- All messages in one line. -/
def line (f : Failure) : String := Text.join ": " (f.message :: f.causes)

/-- A text with the same columns in front of all of its lines but the first. -/
def indented (columns : String) (s : String) : String :=
  Text.join ("\n" ++ columns) ((Text.pieces (· == '\n') s.toList).map String.ofList)

/-- The causes with their numbers. -/
def numbered : (number : Nat) → List String → List String
  | _, [] => []
  | n, c :: cs =>
    let label := toString n
    let gap := String.ofList (List.replicate (5 - label.length) ' ')
    (gap ++ label ++ ": " ++ indented "       " c) :: numbered (n + 1) cs

/-- The causes, which have numbers if there are several. -/
def causeLines : List String → List String
  | [] => []
  | [c] => ["", "Caused by:", "    " ++ indented "    " c]
  | cs => ["", "Caused by:"] ++ numbered 0 cs

/-- The message with the causes behind it. -/
def layout (f : Failure) : String :=
  Text.lines (("Error: " ++ f.message) :: causeLines f.causes)

end Failure

end GlyphLine

import GlyphLine.Text.Quoted

/-!
# Events

While a text is linted, events tell what happens.  An event has a level, the source
that tells it, a message, and fields with a value each.

* `Event`: the events.
* `Event.line`: an event as a line of a log.
-/

namespace GlyphLine
namespace Log

/-- How much attention an event deserves; the fewer, the more. -/
inductive Level where
  | error
  | warn
  | info
  | debug
  | trace
  deriving DecidableEq, Repr

/-- The name of a level. -/
def Level.name : Level → String
  | .error => "ERROR"
  | .warn => "WARN"
  | .info => "INFO"
  | .debug => "DEBUG"
  | .trace => "TRACE"

/-- How many levels deserve more attention. -/
def Level.rank : Level → Nat
  | .error => 0
  | .warn => 1
  | .info => 2
  | .debug => 3
  | .trace => 4

/-- The value of a field: a text, which a log shows between quotes, or something that is
written as it is. -/
inductive Value where
  | text (s : String)
  | written (s : String)
  deriving DecidableEq, Repr

/-- The characters of a value. -/
def Value.content : Value → String
  | .text s => s
  | .written s => s

/-- A value in a line of a log. -/
def Value.inLine : Value → String
  | .text s => Text.quoted s
  | .written s => s

/-- The value of a count. -/
def Value.count (n : Nat) : Value := .written (toString n)

/-- Something that happened. -/
structure Event where
  level : Level
  source : String
  message : String
  fields : List (String × Value) := []
  deriving DecidableEq, Repr

/-- A line of a log: the time, the level at the right of five columns, the message and
the fields. -/
def Event.line (e : Event) (time : String) : String :=
  let level := e.level.name
  let gap := String.ofList (List.replicate (6 - level.length) ' ')
  let fields := e.fields.map fun f => " " ++ f.1 ++ "=" ++ f.2.inLine
  time ++ gap ++ level ++ " " ++ e.message ++ String.join fields

end Log
end GlyphLine

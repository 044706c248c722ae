import GlyphLine.Log.Event
import GlyphLine.Text.Basic
import GlyphLine.Text.Blank
import GlyphLine.Text.Decimal

/-!
# Filters

A filter says which events a log shows.  It is a list of directives: each one is about
the events of some sources, or those with a certain field, and names the last level that
is shown.  Of all directives about an event the most specific one decides; an event that
none is about is not shown.

A filter is written as its directives with commas between them, each as `source`,
`level` or `source=level`.  Behind the source there may be a part in brackets, about the
spans of time in which events fall; `[{field}]` asks for a field.  There are no spans
here, and nothing falls into one.

* `Directive.ofChars?`, `Filter.ofText?`: the readers.
* `Filter.ofVariable`: the filter of the environment.
* `Filter.shows`: whether an event is shown.
-/

namespace GlyphLine
namespace Log

/-- The last level that is shown, if any is. -/
abbrev Limit := Option Level

/-- The names of the limits; the number of a name stands for the same limit. -/
def limits : List (String × Limit) := [("off", none), ("error", some .error),
  ("warn", some .warn), ("info", some .info), ("debug", some .debug), ("trace", some .trace)]

/-- The limit of a name in letters of either size, or of a number. -/
def limit? (s : String) : Option Limit :=
  match Text.count? s with
  | some n => (limits[n]?).map Prod.snd
  | none => limits.lookup (Text.lower s)

/-- Which events a directive is about: those of the sources that begin with `source`,
and among them those that have the field. -/
structure Directive where
  source : Option String := none
  eventField : Option String := none
  limit : Limit := some .trace
  deriving DecidableEq, Repr

namespace Directive

/-- What is written about spans behind a source: nothing that has an effect, a field of
events, or a span. -/
inductive Part where
  | none
  | field (name : String)
  | span
  deriving DecidableEq, Repr

/-- What a part in brackets is about, and what follows it.  A part that does not end
stands for nothing. -/
def part? (cs : List Char) : Option (Part × List Char) :=
  let (span, rest) := cs.span fun c => c != ']' && c != '\x7b'
  match rest with
  | ']' :: rest => some (.span, rest)
  | '\x7b' :: rest =>
    let (field, rest) := rest.span (· != '\x7d')
    match rest with
    | [] => some (if span.isEmpty then .none else .span, [])
    | _ :: rest =>
      let about : Part :=
        if span.isEmpty && !field.contains '=' then .field (String.ofList field) else .span
      match rest with
      | [] => if field.isEmpty then none else some (about, [])
      | ']' :: rest => if field.isEmpty then none else some (about, rest)
      | _ => none
  | _ => some (.none, [])

/-- The limit behind a source: the one that is named behind an equals sign, or none at
all. -/
def ending? : List Char → Option Limit
  | [] => some (some .trace)
  | '=' :: cs => if cs.isEmpty then some (some .trace) else limit? (String.ofList cs)
  | _ => none

/-- The directive, or none if it is about a span, for a source and a part in brackets. -/
def ofPart? (source : Option String) (cs : List Char) : Option (Option Directive) :=
  match part? cs with
  | none => none
  | some (about, rest) => (ending? rest).map fun limit =>
    match about with
    | .none => some ⟨source, none, limit⟩
    | .field name => some ⟨source, some name, limit⟩
    | .span => none

/-- Whether a name can begin with a character. -/
def isNameStart (c : Char) : Bool := c.isAlphanum || "-:_".contains c || 0x80 ≤ c.toNat

/-- The directive of a piece of a filter's text, or none if it is about a span; no result
at all if the piece is not a directive. -/
def ofChars? (cs : List Char) : Option (Option Directive) :=
  match cs with
  | [] => some (some {})
  | '[' :: cs => ofPart? none cs
  | c :: cs =>
    if !isNameStart c then none
    else
      let (name, rest) := (c :: cs).span fun c => c != '=' && c != '['
      let name := String.ofList name
      match rest with
      | [] =>
        match limit? name with
        | some limit => some (some ⟨none, none, limit⟩)
        | none => some (some ⟨some name, none, some .trace⟩)
      | '[' :: rest => ofPart? (some name) rest
      | rest => (ending? rest).map fun limit => some ⟨some name, none, limit⟩

/-- Whether a directive is about an event. -/
def isAbout (d : Directive) (e : Event) : Bool :=
  d.source.all (fun s => Text.startsWith s e.source) &&
    d.eventField.all fun f => f == "message" || (e.fields.map Prod.fst).contains f

/-- How specific a directive is about its sources. -/
def width (d : Directive) : Nat :=
  match d.source with
  | none => 0
  | some s => s.utf8ByteSize + 1

/-- Whether a directive decides before another one that is about the same event: the one
with the longer source does, then the one that asks for a field, or for the greater one. -/
def decidesBefore (d other : Directive) : Bool :=
  d.width > other.width || (d.width = other.width &&
    match d.eventField, other.eventField with
    | some f, some g => g < f
    | some _, none => true
    | none, _ => false)

end Directive

/-- The directives of a filter, in the order in which they are written. -/
structure Filter where
  directives : List Directive
  deriving DecidableEq, Repr

namespace Filter

/-- The directives of pieces, without those about spans, if all pieces are directives. -/
def collect? : List (List Char) → Option (List Directive)
  | [] => some []
  | p :: ps => do
    let d ← Directive.ofChars? (Text.trimChars p)
    let ds ← collect? ps
    some (d.toList ++ ds)

/-- The filter of a text.  A text without any directive stands for errors only. -/
def ofText? (s : String) : Option Filter :=
  match (Text.pieces (· == ',') s.toList).filter fun p => !p.isEmpty with
  | [] => some ⟨[⟨none, none, some .error⟩]⟩
  | ps => (collect? ps).map Filter.mk

/-- The filter that shows warnings and errors. -/
def warnings : Filter := ⟨[⟨none, none, some .warn⟩]⟩

/-- The name of the environment variable that can hold a filter. -/
def variableName : String := "GLYPHLINT_LOG"

/-- The filter of the value of the variable; warnings and errors if it holds none. -/
def ofVariable (value : Option String) : Filter := (value.bind ofText?).getD warnings

/-- The directive that decides about an event: the most specific one, and of two equals
the later one. -/
def decisive? (f : Filter) (e : Event) : Option Directive :=
  (f.directives.filter fun d => d.isAbout e).foldl (fun best d =>
    match best with
    | none => some d
    | some b => if b.decidesBefore d then some b else some d) none

/-- Whether an event is shown. -/
def shows (f : Filter) (e : Event) : Bool :=
  ((f.decisive? e).bind Directive.limit).any fun l => e.level.rank ≤ l.rank

end Filter
end Log
end GlyphLine

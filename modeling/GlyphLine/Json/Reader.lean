import GlyphLine.Field
import GlyphLine.Json.Container

/-!
# Reading JSON texts by shape

A reader takes a text apart as it expects it to be, and stops at the first thing that
is not so.  Beside the characters it is given the number of characters of the whole
text, which bounds its loops, and the number of lists and objects that may still be
entered.

* `Reader.any`: any value.
* `Reader.optional`, `Reader.choice`, `Reader.list`, `Reader.table`, `Reader.record`:
  values of a shape.
* `Reader.run`: a whole text.
-/

namespace GlyphLine
namespace Json

open Lexeme

/-- A reader: from the size of the text, the lists and objects that may still be
entered, and the characters from the value on. -/
def Reader (α : Type) : Type := (size depth : Nat) → List Char → Read α

/-- How many lists and objects may stand inside each other. -/
def maxDepth : Nat := 127

/-- The reader whose results are passed through `f`. -/
def Reader.map {α β : Type} (f : α → β) (r : Reader α) : Reader β := fun size depth s =>
  (r size depth s).map fun (a, rest) => (f a, rest)

/-- A value of any kind.  Of the members of an object with one key the last one counts,
and the members are put in order. -/
def value (size : Nat) : (depth : Nat) → List Char → Read Json
  | depth, s =>
    match skipSpace s with
    | [] => .error .endOfValue
    | 'n' :: rest => (word ['u', 'l', 'l'] rest).map fun rest => (.null, rest)
    | 't' :: rest => (word ['r', 'u', 'e'] rest).map fun rest => (.bool true, rest)
    | 'f' :: rest => (word ['a', 'l', 's', 'e'] rest).map fun rest => (.bool false, rest)
    | '\"' :: rest => (Lexeme.string size rest).map fun (t, rest) => (.string t, rest)
    | '[' :: rest =>
      match depth with
      | 0 => .error .tooDeep
      | depth + 1 =>
        (items (value size depth) size true [] rest).map fun (vs, rest) => (.array vs, rest)
    | '{' :: rest =>
      match depth with
      | 0 => .error .tooDeep
      | depth + 1 =>
        let step (ms : List (String × Json)) (key : String) (s : List Char) : Read _ :=
          match colon s with
          | .error f => .error f
          | .ok s => (value size depth s).map fun (v, rest) => (putEntry key v ms, rest)
        (members size step size true [] rest).map fun (ms, rest) => (.object ms, rest)
    | c :: rest =>
      if c = '-' || c.isDigit then
        (Lexeme.number (c :: rest)).map fun (n, rest) => (.number n, rest)
      else .error .noValue

/-- What a number is found to be. -/
def Found.ofNumber : Number → Found
  | .whole n => .whole n
  | .double d => .double d

/-- The fault of a text that should begin with a bracket and does not: a word, a number
or a string is read first, and may have a fault of its own. -/
def unexpected {α : Type} (size : Nat) (expected : String) (s : List Char) : Read α :=
  let found : Except Fault Found :=
    match s with
    | [] => .error .endOfValue
    | 'n' :: rest => (word ['u', 'l', 'l'] rest).map fun _ => .null
    | 't' :: rest => (word ['r', 'u', 'e'] rest).map fun _ => .bool true
    | 'f' :: rest => (word ['a', 'l', 's', 'e'] rest).map fun _ => .bool false
    | '\"' :: rest => (Lexeme.string size rest).map fun (t, _) => .string t
    | '[' :: _ => .ok .sequence
    | '{' :: _ => .ok .map
    | c :: rest =>
      if c = '-' || c.isDigit then
        (Lexeme.number (c :: rest)).map fun (n, _) => Found.ofNumber n
      else .error .noValue
  match found with
  | .ok found => .error (.wrongType found expected)
  | .error f => .error f

/-- The value of a member whose key has been read, for a record and the names of the
fields that it has got.  The second value for a field is a fault; the value of an
unknown key is skipped. -/
def fieldStep {σ : Type} (size depth : Nat) (fields : List (Field Reader σ))
    (state : σ × List String) (key : String) (s : List Char) : Read (σ × List String) :=
  match fields.find? fun f => f.name == key with
  | none =>
    match colon s with
    | .error f => .error f
    | .ok s => (skipValue size s).map fun rest => (state, rest)
  | some field =>
    if state.2.contains key then .error (.duplicateField key)
    else
      match colon s with
      | .error f => .error f
      | .ok s =>
        (field.read size depth s).map fun (set, rest) => ((set state.1, key :: state.2), rest)

/-- The fields of a record that is written as a list, in their order.  Fields at the end
may be left out. -/
def fieldItems {σ : Type} (size depth : Nat) :
    List (Field Reader σ) → (first : Bool) → σ → List Char → Read σ
  | [], _, state, s => (endOfItems s).map fun rest => (state, rest)
  | field :: fields, first, state, s =>
    match nextItem first s with
    | .error f => .error f
    | .ok (false, rest) => .ok (state, rest)
    | .ok (true, rest) =>
      match field.read size depth rest with
      | .error f => .error f
      | .ok (set, rest) => fieldItems size depth fields false (set state) rest

namespace Reader

/-- A value of any kind. -/
def any : Reader Json := value

/-- `null`, or a value for `r`. -/
def optional {α : Type} (r : Reader α) : Reader (Option α) := fun size depth s =>
  match skipSpace s with
  | 'n' :: rest => (word ['u', 'l', 'l'] rest).map fun rest => (none, rest)
  | s => (r.map some) size depth s

/-- A value of any kind that `choose` accepts, for a type of the given name. -/
def choice {α : Type} (type : String) (choose : Json → Option α) : Reader α :=
  fun size depth s =>
    match value size depth s with
    | .error f => .error f
    | .ok (v, rest) =>
      match choose v with
      | some a => .ok (a, rest)
      | none => .error (.noVariant type)

/-- A list of values for `r`. -/
def list {α : Type} (r : Reader α) : Reader (List α) := fun size depth s =>
  match skipSpace s with
  | '[' :: rest =>
    match depth with
    | 0 => .error .tooDeep
    | depth + 1 => items (r size depth) size true [] rest
  | s => unexpected size "a sequence" s

/-- An object whose keys are names and whose values are for `r`. -/
def table {α : Type} (r : Reader α) : Reader (ByName α) := fun size depth s =>
  match skipSpace s with
  | '{' :: rest =>
    match depth with
    | 0 => .error .tooDeep
    | depth + 1 =>
      let step (t : ByName α) (key : String) (s : List Char) : Read (ByName α) :=
        match colon s with
        | .error f => .error f
        | .ok s => (r size depth s).map fun (a, rest) => (t.insert key a, rest)
      members size step size true ByName.empty rest
  | s => unexpected size "a map" s

/-- A record with the given fields, all of which may be missing: an object with these
keys, or the list of the values of the fields. -/
def record {σ : Type} (type : String) (fields : List (Field Reader σ)) (blank : σ) : Reader σ :=
  fun size depth s =>
    match skipSpace s with
    | '{' :: rest =>
      match depth with
      | 0 => .error .tooDeep
      | depth + 1 =>
        (members size (fieldStep size depth fields) size true (blank, []) rest).map
          fun (state, rest) => (state.1, rest)
    | '[' :: rest =>
      match depth with
      | 0 => .error .tooDeep
      | depth + 1 => fieldItems size depth fields true blank rest
    | s => unexpected size ("struct " ++ type) s

/-- The result of a reader on a whole text, behind which only white space may stand. -/
def run {α : Type} (r : Reader α) (text : String) : Except Fault α :=
  let s := text.toList
  match r (s.length + 1) maxDepth s with
  | .error f => .error f
  | .ok (a, rest) =>
    match skipSpace rest with
    | [] => .ok a
    | _ => .error .trailingText

end Reader

/-- The value of a JSON text. -/
def parse (text : String) : Except Fault Json := Reader.any.run text

end Json
end GlyphLine

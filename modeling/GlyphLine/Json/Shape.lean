import GlyphLine.Json.Basic
import GlyphLine.Json.Fault
import GlyphLine.Width

/-!
# Values of a shape

A value that has been read whole is taken apart by shape.  A record may be an object,
whose members are looked at in the order of their keys, or the list of the values of
its fields.

* `Shape.string`, `Shape.bool`, `Shape.count`, `Shape.optional`, `Shape.list`: the
  plain shapes.
* `Shape.record`: records.
-/

namespace GlyphLine
namespace Json

/-- A way to take a value apart. -/
def Shape (α : Type) : Type := Json → Except Fault α

/-- What a value is found to be. -/
def Found.of : Json → Found
  | .null => .null
  | .bool b => .bool b
  | .number (.whole n) => .whole n
  | .number (.double d) => .double d
  | .string s => .string s
  | .array _ => .sequence
  | .object _ => .map

/-- A field of a record that is taken from a value: whether a member for it is needed,
whether an item for it is needed when the record is a list, and how its value changes
the record. -/
structure Part (σ : Type) where
  name : String
  needsMember : Bool
  needsItem : Bool
  set : Json → σ → Except Fault σ

/-- The parts of a record from the members of an object. -/
def setMembers {σ : Type} (parts : List (Part σ)) :
    List (String × Json) → σ → Except Fault σ
  | [], state => .ok state
  | (key, v) :: rest, state =>
    match parts.find? fun p => p.name == key with
    | none => setMembers parts rest state
    | some p =>
      match p.set v state with
      | .error f => .error f
      | .ok state => setMembers parts rest state

/-- The first part that needs a member and has none. -/
def missingPart {σ : Type} (parts : List (Part σ)) (members : List (String × Json)) :
    Option String :=
  (parts.find? fun p => p.needsMember && (members.lookup p.name).isNone).map Part.name

/-- The parts of a record from the items of a list. -/
def setItems {σ : Type} (length : Nat) (expected : String) :
    List (Part σ) → List Json → σ → Except Fault σ
  | [], [], state => .ok state
  | [], _ :: _, _ => .error (.wrongLength length "fewer elements in array")
  | p :: parts, [], state =>
    if p.needsItem then .error (.wrongLength length expected)
    else setItems length expected parts [] state
  | p :: parts, v :: vs, state =>
    match p.set v state with
    | .error f => .error f
    | .ok state => setItems length expected parts vs state

namespace Shape

/-- A string. -/
def string : Shape String
  | .string s => .ok s
  | v => .error (.wrongType (.of v) "a string")

/-- A truth value. -/
def bool : Shape Bool
  | .bool b => .ok b
  | v => .error (.wrongType (.of v) "a boolean")

/-- A natural number of thirty-two bits. -/
def count : Shape Nat
  | .number (.whole n) =>
    if Width.isUnsigned 32 n then .ok n.toNat else .error (.wrongValue (.whole n) "u32")
  | v => .error (.wrongType (.of v) "u32")

/-- `null`, or a value of a shape. -/
def optional {α : Type} (shape : Shape α) : Shape (Option α)
  | .null => .ok none
  | v => (shape v).map some

/-- A list of values of a shape. -/
def list {α : Type} (shape : Shape α) : Shape (List α)
  | .array vs => vs.mapM shape
  | v => .error (.wrongType (.of v) "a sequence")

/-- A record with the given parts. -/
def record {σ : Type} (type : String) (parts : List (Part σ)) (blank : σ) : Shape σ
  | .object members =>
    match setMembers parts members blank with
    | .error f => .error f
    | .ok state =>
      match missingPart parts members with
      | some name => .error (.missingField name)
      | none => .ok state
  | .array vs =>
    setItems vs.length
      ("struct " ++ type ++ " with " ++ toString parts.length ++ " elements") parts vs blank
  | v => .error (.wrongType (.of v) ("struct " ++ type))

end Shape

/-- A part that has to be there. -/
def Part.of {α σ : Type} (name : String) (shape : Shape α) (set : α → σ → σ) : Part σ :=
  ⟨name, true, true, fun v state => (shape v).map fun a => set a state⟩

/-- A part that may be missing from an object. -/
def Part.optional {α σ : Type} (name : String) (shape : Shape α) (set : Option α → σ → σ) :
    Part σ :=
  ⟨name, false, true, fun v state => (shape.optional v).map fun a => set a state⟩

end Json
end GlyphLine

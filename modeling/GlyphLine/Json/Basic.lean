import GlyphLine.ByName
import GlyphLine.Double.Basic

/-!
# JSON values

Values as a JSON text can hold them.  A number is a whole number that fits into
sixty-four bits, signed or unsigned, or a double.  An object is the list of its
members in the order in which they are written.
-/

namespace GlyphLine

/-- A number of a JSON text. -/
inductive Number where
  | whole (n : Int)
  | double (d : Double)
  deriving DecidableEq, Repr, Inhabited

/-- A value of a JSON text. -/
inductive Json where
  | null
  | bool (b : Bool)
  | number (n : Number)
  | string (s : String)
  | array (items : List Json)
  | object (members : List (String × Json))
  deriving BEq, Repr, Inhabited

namespace Json

/-- A natural number as a value. -/
def ofNat (n : Nat) : Json := .number (.whole n)

/-- Strings as an array. -/
def strings (ss : List String) : Json := .array (ss.map .string)

/-- The member of an object with a given name. -/
def member? (name : String) : Json → Option Json
  | .object members => members.lookup name
  | _ => none

/-- The text of a string value. -/
def string? : Json → Option String
  | .string s => some s
  | _ => none

/-- The items of an array. -/
def items? : Json → Option (List Json)
  | .array items => some items
  | _ => none

/-- Whether the value is `null`. -/
def isNull : Json → Bool
  | .null => true
  | _ => false

end Json
end GlyphLine

import GlyphLine.Double.Text
import GlyphLine.Json.Basic
import GlyphLine.Text.Basic
import GlyphLine.Text.Blank
import GlyphLine.Width

/-!
# Scalars of a policy document

Where a policy expects a text or a switch, its document may hold a string, a number or
a truth value.  As a text, a scalar is compared in its written form; as a switch, it is
on or off.

* `Scalar.toText`: the written form.  Whole doubles keep their `.0`, and truth values are
  written `True` and `False`.
* `Scalar.isEnabled`: whether it is on as a switch.
-/

namespace GlyphLine

/-- A string, a whole number of sixty-four bits, a double or a truth value. -/
inductive Scalar where
  | text (s : String)
  | whole (n : Int)
  | double (d : Double)
  | bool (b : Bool)
  deriving DecidableEq, Repr

namespace Scalar

/-- A whole number as a scalar: a double if it does not fit into sixty-four bits. -/
def ofWhole (n : Int) : Scalar := if Width.isSigned 64 n then .whole n else .double (.ofInt n)

/-- The scalar of a JSON value, if it is one. -/
def ofJson? : Json → Option Scalar
  | .string s => some (.text s)
  | .number (.whole n) => some (ofWhole n)
  | .number (.double d) => some (.double d)
  | .bool b => some (.bool b)
  | _ => none

/-- The written form. -/
def toText : Scalar → String
  | .text s => s
  | .whole n => toString n
  | .double d => d.plain
  | .bool b => if b then "True" else "False"

/-- The texts that turn a switch on. -/
def switchedOn : List String := ["true", "yes", "on", "1"]

/-- Whether a switch is on: truth itself, a number other than zero, or one of four
texts, in letters of either size and with white space around it. -/
def isEnabled : Scalar → Bool
  | .bool b => b
  | .whole n => n != 0
  | .double .nan => false
  | .double d => !d.isZero
  | .text s => switchedOn.contains (Text.lower (Text.trim s))

end Scalar
end GlyphLine

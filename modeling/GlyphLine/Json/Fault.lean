import GlyphLine.Double.Text
import GlyphLine.Text.Basic
import GlyphLine.Text.Quoted

/-!
# What can be wrong with a JSON text

A fault is either one of the text, which is then no JSON, or one of the data: the text
is JSON, but not of the expected shape.  Every fault has a message and a category.
-/

namespace GlyphLine
namespace Json

/-- What was found in the place of something else. -/
inductive Found where
  | null
  | bool (b : Bool)
  | whole (n : Int)
  | double (d : Double)
  | string (s : String)
  | sequence
  | map
  deriving DecidableEq, Repr

/-- How a message names what was found. -/
def Found.text : Found → String
  | .null => "null"
  | .bool b => "boolean `" ++ (if b then "true" else "false") ++ "`"
  | .whole n => "integer `" ++ toString n ++ "`"
  | .double d => "floating point `" ++ d.compact ++ "`"
  | .string s => "string " ++ Text.quoted s
  | .sequence => "sequence"
  | .map => "map"

/-- What is wrong with a text or with its data. -/
inductive Fault where
  | endOfValue
  | endOfString
  | endOfList
  | endOfObject
  | noValue
  | noWord
  | noColon
  | noListEnd
  | noObjectEnd
  | keyNotString
  | trailingComma
  | trailingText
  | badNumber
  | outOfRange
  | badEscape
  | endOfEscape
  | loneSurrogate
  | controlCharacter
  | tooDeep
  | wrongType (found : Found) (expected : String)
  | wrongValue (found : Found) (expected : String)
  | wrongLength (length : Nat) (expected : String)
  | missingField (name : String)
  | duplicateField (name : String)
  | unknownVariant (name : String) (known : List String)
  | noVariant (type : String)
  | noTime
  deriving DecidableEq, Repr

/-- The three kinds of faults. -/
inductive Category where
  | endOfText
  | wrongText
  | wrongData
  deriving DecidableEq, Repr

namespace Fault

/-- A name between backquotes. -/
def marked (name : String) : String := "`" ++ name ++ "`"

/-- The message of a fault. -/
def message : Fault → String
  | .endOfValue => "EOF while parsing a value"
  | .endOfString => "EOF while parsing a string"
  | .endOfList => "EOF while parsing a list"
  | .endOfObject => "EOF while parsing an object"
  | .noValue => "expected value"
  | .noWord => "expected ident"
  | .noColon => "expected `:`"
  | .noListEnd => "expected `,` or `]`"
  | .noObjectEnd => "expected `,` or `\x7d`"
  | .keyNotString => "key must be a string"
  | .trailingComma => "trailing comma"
  | .trailingText => "trailing characters"
  | .badNumber => "invalid number"
  | .outOfRange => "number out of range"
  | .badEscape => "invalid escape"
  | .endOfEscape => "unexpected end of hex escape"
  | .loneSurrogate => "lone leading surrogate in hex escape"
  | .controlCharacter => "control character (\\u0000-\\u001F) found while parsing a string"
  | .tooDeep => "recursion limit exceeded"
  | .wrongType found expected => "invalid type: " ++ found.text ++ ", expected " ++ expected
  | .wrongValue found expected => "invalid value: " ++ found.text ++ ", expected " ++ expected
  | .wrongLength length expected =>
    "invalid length " ++ toString length ++ ", expected " ++ expected
  | .missingField name => "missing field " ++ marked name
  | .duplicateField name => "duplicate field " ++ marked name
  | .unknownVariant name known =>
    "unknown variant " ++ marked name ++ ", expected one of " ++
      Text.join ", " (known.map marked)
  | .noVariant type => "data did not match any variant of untagged enum " ++ type
  | .noTime => "no date and time of the expected form"

/-- The category of a fault: the text ends too early, it is no JSON for another
reason, or it is JSON of another shape. -/
def category : Fault → Category
  | .endOfValue | .endOfString | .endOfList | .endOfObject => .endOfText
  | .wrongType .. | .wrongValue .. | .wrongLength .. | .missingField _ | .duplicateField _
  | .unknownVariant .. | .noVariant _ | .noTime => .wrongData
  | _ => .wrongText

end Fault
end Json
end GlyphLine

import GlyphLine.Double.Basic
import GlyphLine.Text.Basic
import GlyphLine.Text.Decimal
import GlyphLine.Width

/-!
# What plain scalars stand for

A plain scalar stands for null, a truth value, a whole number, a double or its own
text, whichever comes first.

* Null is written `~`, `null`, `Null` or `NULL`, or not at all.
* Whole numbers are decimal, or behind `0x`, `0o` and `0b` in the bases sixteen, eight
  and two.  Digits behind a zero are no decimal number but a text.
* A double needs a digit; infinities and the value that is no number are written
  behind a point.

* `Plain.of`: what a plain scalar stands for.
-/

namespace GlyphLine
namespace Yaml

/-- What a scalar can stand for. -/
inductive Plain where
  | null
  | bool (b : Bool)
  | whole (n : Int)
  | double (d : Double)
  | text (s : String)
  deriving DecidableEq, Repr

namespace Plain

/-- Whether a text means null, other than by being empty. -/
def isNull (s : String) : Bool := ["null", "Null", "NULL", "~"].contains s

/-- The truth value of a text. -/
def bool? (s : String) : Option Bool :=
  if ["true", "True", "TRUE"].contains s then some true
  else if ["false", "False", "FALSE"].contains s then some false
  else none

/-- The value of a digit in any base up to sixteen. -/
def digit? (c : Char) : Option Nat :=
  if c.isDigit then some (c.toNat - '0'.toNat)
  else if 'a' ≤ c && c ≤ 'f' then some (c.toNat - 'a'.toNat + 10)
  else if 'A' ≤ c && c ≤ 'F' then some (c.toNat - 'A'.toNat + 10)
  else none

/-- The value of a digit in a base. -/
def digitIn? (base : Nat) (c : Char) : Option Nat := (digit? c).filter (· < base)

/-- The number of one or more digits in a base. -/
def natural? (base : Nat) (cs : List Char) : Option Nat :=
  if cs.isEmpty then none
  else (cs.mapM (digitIn? base)).map fun ds => ds.foldl (fun n d => n * base + d) 0

/-- Whether a character is a sign. -/
def isSign (c : Char) : Bool := c == '+' || c == '-'

/-- The characters behind a sign, if there is one. -/
def dropSign : List Char → List Char
  | [] => []
  | c :: rest => if isSign c then rest else c :: rest

/-- Whether a text has two or more digits, the first of which is zero, behind a sign or
none. -/
def isZeroLed (cs : List Char) : Bool :=
  match dropSign cs with
  | '0' :: d :: rest => (d :: rest).all Char.isDigit
  | _ => false

/-- The absolute value of a whole number that is written without a sign. -/
def magnitude? (cs : List Char) : Option Nat :=
  match cs with
  | '0' :: 'x' :: rest => natural? 16 rest
  | '0' :: 'o' :: rest => natural? 8 rest
  | '0' :: 'b' :: rest => natural? 2 rest
  | cs => if isZeroLed cs then none else natural? 10 cs

/-- A whole number, of any size. -/
def whole? (cs : List Char) : Option Int :=
  match cs with
  | '-' :: rest => (magnitude? rest).map fun n => -(n : Int)
  | '+' :: rest => (magnitude? rest).map fun n => (n : Int)
  | cs => (magnitude? cs).map fun n => (n : Int)

/-- The digits in front of a point and those behind it; one of either is needed. -/
def mantissa (cs : List Char) : Option (List Char × List Char × List Char) :=
  let (front, rest) := cs.span Char.isDigit
  match rest with
  | '.' :: rest =>
    let (back, rest) := rest.span Char.isDigit
    if front.isEmpty && back.isEmpty then none else some (front, back, rest)
  | rest => if front.isEmpty then none else some (front, [], rest)

/-- An exponent, or nothing. -/
def exponent? (cs : List Char) : Option Int :=
  match cs with
  | [] => some 0
  | c :: rest =>
    if c = 'e' || c = 'E' then
      (natural? 10 (dropSign rest)).map fun n =>
        if rest.head? == some '-' then -(n : Int) else (n : Int)
    else none

/-- A decimal number without a sign, in any of the usual notations. -/
def decimal? (negative : Bool) (cs : List Char) : Option Double :=
  match mantissa cs with
  | none => none
  | some (front, back, rest) =>
    let digits := Text.digitsValue (front ++ back)
    (exponent? rest).map fun e => Double.ofDecimal negative digits (e - back.length)

/-- A decimal number with a sign or without. -/
def signedDecimal? (cs : List Char) : Option Double :=
  match cs with
  | '-' :: rest => decimal? true rest
  | '+' :: rest => decimal? false rest
  | cs => decimal? false cs

/-- Infinity, without its sign. -/
def isInfinity (s : String) : Bool := [".inf", ".Inf", ".INF"].contains s

/-- A double.  Decimal numbers beyond the range are none. -/
def double? (s : String) : Option Double :=
  if isInfinity s || ["+.inf", "+.Inf", "+.INF"].contains s then some (.infinite false)
  else if ["-.inf", "-.Inf", "-.INF"].contains s then some (.infinite true)
  else if [".nan", ".NaN", ".NAN"].contains s then some .nan
  else (signedDecimal? s.toList).filter Double.isFinite

/-- What a plain scalar without a tag stands for. -/
def of (s : String) : Plain :=
  if s.isEmpty || isNull s then .null
  else
    match bool? s with
    | some b => .bool b
    | none =>
      match (whole? s.toList).filter (Width.fits 128) with
      | some n => .whole n
      | none =>
        if isZeroLed s.toList then .text s
        else
          match double? s with
          | some d => .double d
          | none => .text s

end Plain

/-- The tags of the core kinds begin with this text. -/
def corePart : String := "tag:yaml.org,2002:"

/-- What a scalar with a tag stands for, if its text fits the tag.  Other tags than the
four of kinds make it a text. -/
def Plain.tagged (tag text : String) : Option Plain :=
  if tag = corePart ++ "bool" then (Plain.bool? text).map .bool
  else if tag = corePart ++ "int" then
    ((Plain.whole? text.toList).filter (Width.fits 128)).map .whole
  else if tag = corePart ++ "float" then (Plain.double? text).map .double
  else if tag = corePart ++ "null" then if Plain.isNull text then some .null else none
  else some (.text text)

end Yaml
end GlyphLine

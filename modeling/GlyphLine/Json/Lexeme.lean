import GlyphLine.Json.Basic
import GlyphLine.Json.Fault
import GlyphLine.Text.Decimal
import GlyphLine.Width

/-!
# Words, numbers and strings of a JSON text

Readers of the smallest parts of a JSON text.  A reader takes the characters from the
first one of the part on and gives back the part and the characters behind it.

Each part can also be *skipped*.  Skipping checks less: a number may be of any size,
and the escapes of a string may name any code unit.

* `word`, `number`, `string`: the readers.
* `skipNumber`, `skipString`: the ones that skip.
-/

namespace GlyphLine
namespace Json

/-- What a reader gives: a result and the characters behind it, or a fault. -/
abbrev Read (α : Type) := Except Fault (α × List Char)

namespace Lexeme

/-- White space of a JSON text. -/
def isSpace (c : Char) : Bool := c == ' ' || c == '\n' || c == '\t' || c == '\r'

/-- The characters behind white space. -/
def skipSpace (s : List Char) : List Char := s.dropWhile isSpace

/-- The rest of a word, of which the first letter has been read. -/
def word : (letters : List Char) → List Char → Except Fault (List Char)
  | [], s => .ok s
  | _ :: _, [] => .error .endOfValue
  | l :: ls, c :: s => if l = c then word ls s else .error .noWord

/-! ## Numbers -/

/-- The greatest number of sixty-four bits. -/
def wordLimit : Nat := Width.greatest 64

/-- The digits of a number so far, as a whole number of at most sixty-four bits with a
power of ten.  It is full once a digit did not fit. -/
structure Significand where
  value : Nat
  exponent : Int
  full : Bool
  deriving DecidableEq, Repr

/-- The value with one more digit. -/
def Significand.next (s : Significand) (c : Char) : Nat := s.value * 10 + Text.digitValue c

/-- Whether one more digit fits. -/
def Significand.takes (s : Significand) (c : Char) : Bool := !s.full && s.next c ≤ wordLimit

/-- One more digit before the point.  Digits that do not fit only raise the exponent. -/
def Significand.whole (s : Significand) (c : Char) : Significand :=
  if s.takes c then { s with value := s.next c }
  else { s with exponent := s.exponent + 1, full := true }

/-- One more digit behind the point.  Digits that do not fit are dropped. -/
def Significand.fraction (s : Significand) (c : Char) : Significand :=
  if s.takes c then { s with value := s.next c, exponent := s.exponent - 1 }
  else { s with full := true }

/-- The digits before the point. -/
def Significand.ofWhole (digits : List Char) : Significand :=
  digits.foldl .whole ⟨0, 0, false⟩

/-- The digits behind the point, after those before it. -/
def Significand.withFraction (s : Significand) (digits : List Char) : Significand :=
  digits.foldl .fraction { s with full := false }

/-- `10 ^ 308` as a double, the largest power of ten that is one. -/
def greatestPower : Double := .ofDecimal false 1 308

/-- A number divided by `10 ^ n`.  Powers beyond `10 ^ 308` are taken in steps, each of
which is rounded; three of them make every number zero. -/
def dividePower : (steps : Nat) → Double → (n : Nat) → Double
  | 0, d, _ => d
  | steps + 1, d, n =>
    if n ≤ 308 then d.div (.ofDecimal false 1 n)
    else if d.isZero then d
    else dividePower steps (d.div greatestPower) (n - 308)

/-- The double of a whole number and a power of ten.  The whole number is rounded to a
double, and so is its product with, or its quotient by, the power. -/
def ofParts (negative : Bool) (value : Nat) (exponent : Int) : Except Fault Double :=
  let d := Double.ofNat negative value
  if exponent < 0 then .ok (dividePower 4 d exponent.natAbs)
  else if 308 < exponent then if value = 0 then .ok d else .error .outOfRange
  else
    match d.mul (.ofDecimal false 1 exponent) with
    | .infinite _ => .error .outOfRange
    | product => .ok product

/-- A number without point and exponent: a whole number if it fits into sixty-four
bits, else a double.  A negative zero is a double. -/
def ofWhole (negative : Bool) (s : Significand) : Except Fault Number :=
  if s.full then Number.double <$> ofParts negative s.value s.exponent
  else if negative then
    if s.value = 0 || Width.size 63 < s.value then .ok (.double (.ofNat true s.value))
    else .ok (.whole (-(s.value : Int)))
  else .ok (.whole s.value)

/-- The sign of an exponent: whether it is negative, and what follows. -/
def exponentSign : List Char → Bool × List Char
  | '+' :: s => (false, s)
  | '-' :: s => (true, s)
  | s => (false, s)

/-- An exponent, from behind its letter on. -/
def exponent (negative : Bool) (sig : Significand) (s : List Char) : Read Number :=
  let (below, s) := exponentSign s
  let (digits, rest) := s.span Char.isDigit
  match digits, rest with
  | [], [] => .error .endOfValue
  | [], _ :: _ => .error .badNumber
  | digits, rest =>
    let e : Int := Text.digitsValue digits
    (ofParts negative sig.value (sig.exponent + if below then -e else e)).map fun d =>
      (.double d, rest)

/-- A fraction, from behind the point on. -/
def fraction (negative : Bool) (sig : Significand) (s : List Char) : Read Number :=
  let (digits, rest) := s.span Char.isDigit
  let sig := sig.withFraction digits
  match digits, rest with
  | [], [] => .error .endOfValue
  | [], _ :: _ => .error .badNumber
  | _, 'e' :: rest | _, 'E' :: rest => exponent negative sig rest
  | _, rest => (ofParts negative sig.value sig.exponent).map fun d => (.double d, rest)

/-- What follows the digits before the point. -/
def afterWhole (negative : Bool) (sig : Significand) : List Char → Read Number
  | '.' :: s => fraction negative sig s
  | 'e' :: s | 'E' :: s => exponent negative sig s
  | s => (ofWhole negative sig).map fun n => (n, s)

/-- A number, from behind its sign on. -/
def unsigned (negative : Bool) : List Char → Read Number
  | [] => .error .endOfValue
  | c :: s =>
    if c = '0' then
      match s with
      | d :: _ => if d.isDigit then .error .badNumber else afterWhole negative (.ofWhole ['0']) s
      | [] => afterWhole negative (.ofWhole ['0']) []
    else if c.isDigit then
      let (digits, rest) := s.span Char.isDigit
      afterWhole negative (.ofWhole (c :: digits)) rest
    else .error .badNumber

/-- A number. -/
def number : List Char → Read Number
  | '-' :: s => unsigned true s
  | s => unsigned false s

/-- At least one digit, skipped. -/
def skipDigits (s : List Char) : Except Fault (List Char) :=
  match s.span Char.isDigit with
  | ([], _) => .error .badNumber
  | (_, rest) => .ok rest

/-- An exponent, skipped from behind its letter on. -/
def skipExponent (s : List Char) : Except Fault (List Char) := skipDigits (exponentSign s).2

/-- A fraction, skipped from behind the point on. -/
def skipFraction (s : List Char) : Except Fault (List Char) :=
  match skipDigits s with
  | .ok ('e' :: rest) | .ok ('E' :: rest) => skipExponent rest
  | other => other

/-- What follows the digits before the point, skipped. -/
def skipAfterWhole : List Char → Except Fault (List Char)
  | '.' :: s => skipFraction s
  | 'e' :: s | 'E' :: s => skipExponent s
  | s => .ok s

/-- A number, skipped from behind its sign on. -/
def skipUnsigned : List Char → Except Fault (List Char)
  | [] => .error .badNumber
  | c :: s =>
    if c = '0' then
      match s with
      | d :: _ => if d.isDigit then .error .badNumber else skipAfterWhole s
      | [] => .ok []
    else if c.isDigit then skipAfterWhole (s.dropWhile Char.isDigit)
    else .error .badNumber

/-- A number, skipped. -/
def skipNumber : List Char → Except Fault (List Char)
  | '-' :: s => skipUnsigned s
  | s => skipUnsigned s

/-! ## Strings -/

/-- The value of a hexadecimal digit. -/
def hexDigit? (c : Char) : Option Nat :=
  if c.isDigit then some (Text.digitValue c)
  else if 'a' ≤ c && c ≤ 'f' then some (c.toNat - 'a'.toNat + 10)
  else if 'A' ≤ c && c ≤ 'F' then some (c.toNat - 'A'.toNat + 10)
  else none

/-- The code unit of four hexadecimal digits, from the first of them on.  A text that
has fewer than four bytes left ends too early. -/
def codeUnit (s : List Char) : Read Nat :=
  match (s.take 4).mapM hexDigit? with
  | some [a, b, c, d] => .ok (((a * 16 + b) * 16 + c) * 16 + d, s.drop 4)
  | _ =>
    if 4 ≤ (s.take 4).foldl (fun n c => n + c.utf8Size) 0 then .error .badEscape
    else .error .endOfString

/-- Whether a code unit is the first one of two. -/
def isLeading (n : Nat) : Bool := 0xD800 ≤ n && n ≤ 0xDBFF

/-- Whether a code unit is the second one of two. -/
def isTrailing (n : Nat) : Bool := 0xDC00 ≤ n && n ≤ 0xDFFF

/-- The second one of two code units, with its backslash and letter. -/
def trailingUnit : List Char → Read Nat
  | [] => .error .endOfString
  | '\\' :: [] => .error .endOfString
  | '\\' :: 'u' :: s =>
    match codeUnit s with
    | .ok (n, rest) => if isTrailing n then .ok (n, rest) else .error .loneSurrogate
    | .error f => .error f
  | _ => .error .endOfEscape

/-- A character by one or two code units, from the first digit on. -/
def escapedUnits (s : List Char) : Read Char :=
  match codeUnit s with
  | .error f => .error f
  | .ok (n, rest) =>
    if isTrailing n then .error .loneSurrogate
    else if isLeading n then
      (trailingUnit rest).map fun (m, rest) =>
        (Char.ofNat (0x10000 + (n - 0xD800) * 0x400 + (m - 0xDC00)), rest)
    else .ok (Char.ofNat n, rest)

/-- The character that a single letter stands for behind a backslash. -/
def shortEscape? : Char → Option Char
  | '\"' => some '\"'
  | '\\' => some '\\'
  | '/' => some '/'
  | 'b' => some '\x08'
  | 'f' => some '\x0c'
  | 'n' => some '\n'
  | 'r' => some '\r'
  | 't' => some '\t'
  | _ => none

/-- An escaped character, from behind the backslash on. -/
def escaped : List Char → Read Char
  | [] => .error .endOfString
  | 'u' :: s => escapedUnits s
  | c :: s =>
    match shortEscape? c with
    | some d => .ok (d, s)
    | none => .error .badEscape

/-- Whether a character may not stand in a string. -/
def isControl (c : Char) : Bool := c.toNat < 0x20

/-- The characters of a string, from behind the opening quote on; those already read
are given in reverse order.  Every step takes one character or more, so that as many
steps as there are characters are enough. -/
def stringSteps : (steps : Nat) → (done : List Char) → List Char → Read (List Char)
  | 0, _, _ => .error .endOfString
  | _ + 1, _, [] => .error .endOfString
  | steps + 1, done, c :: s =>
    if c = '\"' then .ok (done.reverse, s)
    else if c = '\\' then
      match escaped s with
      | .ok (d, rest) => stringSteps steps (d :: done) rest
      | .error f => .error f
    else if isControl c then .error .controlCharacter
    else stringSteps steps (c :: done) s

/-- A string, from behind the opening quote on. -/
def string (budget : Nat) (s : List Char) : Read String :=
  (stringSteps budget [] s).map fun (cs, rest) => (String.ofList cs, rest)

/-- An escape, skipped from behind the backslash on. -/
def skipEscape : List Char → Except Fault (List Char)
  | [] => .error .endOfString
  | 'u' :: s => (codeUnit s).map Prod.snd
  | c :: s => if (shortEscape? c).isSome then .ok s else .error .badEscape

/-- A string, skipped from behind the opening quote on. -/
def skipString : (budget : Nat) → List Char → Except Fault (List Char)
  | 0, _ => .error .endOfString
  | _ + 1, [] => .error .endOfString
  | budget + 1, c :: s =>
    if c = '\"' then .ok s
    else if c = '\\' then
      match skipEscape s with
      | .ok rest => skipString budget rest
      | .error f => .error f
    else if isControl c then .error .controlCharacter
    else skipString budget s

end Lexeme
end Json
end GlyphLine

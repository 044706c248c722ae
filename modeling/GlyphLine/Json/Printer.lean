import GlyphLine.Double.Text
import GlyphLine.Json.Basic

/-!
# Writing JSON texts

A value is written over several lines: each item and each member stands in a line of
its own, two columns further in than its bracket.  Empty lists and objects are written
as their two brackets.  A string is written with the escapes that it needs and no
others.

* `stringChars`: a string.
* `chars`: a value.
* `pretty`: the text of a value.
-/

namespace GlyphLine
namespace Json

/-- One of the sixteen hexadecimal digits, in small letters. -/
def hexChar (n : Nat) : Char := Nat.digitChar n

/-- How one character stands in a string. -/
def stringChar (c : Char) : List Char :=
  if c = '\"' then ['\\', '\"']
  else if c = '\\' then ['\\', '\\']
  else if c = '\x08' then ['\\', 'b']
  else if c = '\t' then ['\\', 't']
  else if c = '\n' then ['\\', 'n']
  else if c = '\x0c' then ['\\', 'f']
  else if c = '\r' then ['\\', 'r']
  else if c.toNat < 0x20 then ['\\', 'u', '0', '0', hexChar (c.toNat / 16), hexChar (c.toNat % 16)]
  else [c]

/-- A string between its quotes. -/
def stringChars (s : String) : List Char :=
  '\"' :: s.toList.flatMap stringChar ++ ['\"']

/-- The digits of a number. -/
def numberChars : Number → List Char
  | .whole n => (toString n).toList
  | .double d => d.compact.toList

/-- The end of a line, and the columns in front of the next one. -/
def newLine (columns : Nat) : List Char := '\n' :: List.replicate columns ' '

mutual

/-- A value that begins in a line which is `columns` columns in. -/
def chars (columns : Nat) : Json → List Char
  | .null => ['n', 'u', 'l', 'l']
  | .bool true => ['t', 'r', 'u', 'e']
  | .bool false => ['f', 'a', 'l', 's', 'e']
  | .number n => numberChars n
  | .string s => stringChars s
  | .array [] => ['[', ']']
  | .array (v :: vs) =>
    '[' :: newLine (columns + 2) ++ chars (columns + 2) v ++ itemChars (columns + 2) vs ++
      newLine columns ++ [']']
  | .object [] => ['{', '}']
  | .object ((k, v) :: ms) =>
    '{' :: newLine (columns + 2) ++ stringChars k ++ [':', ' '] ++ chars (columns + 2) v ++
      memberChars (columns + 2) ms ++ newLine columns ++ ['}']

/-- The items of a list behind the first one. -/
def itemChars (columns : Nat) : List Json → List Char
  | [] => []
  | v :: vs => ',' :: newLine columns ++ chars columns v ++ itemChars columns vs

/-- The members of an object behind the first one. -/
def memberChars (columns : Nat) : List (String × Json) → List Char
  | [] => []
  | (k, v) :: ms =>
    ',' :: newLine columns ++ stringChars k ++ [':', ' '] ++ chars columns v ++
      memberChars columns ms

end

/-- The text of a value. -/
def pretty (v : Json) : String := String.ofList (chars 0 v)

/-- The text of a value as a file, with a line feed at its end. -/
def file (v : Json) : String := v.pretty ++ "\n"

end Json
end GlyphLine

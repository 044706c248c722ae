import GlyphLine.Text.Category

/-!
# Quoted texts in messages

A message that shows a text from outside puts it between double quotes and escapes
what could not be read on a line: the quote and the backslash, the common controls
by a letter, combining and unprintable characters by their number.
-/

namespace GlyphLine
namespace Text

/-- The digits of `n` in base sixteen, in small letters and without leading zeros. -/
def hexDigits (n : Nat) : List Char := Nat.toDigits 16 n

/-- A character by its number in base sixteen, between braces. -/
def numbered (c : Char) : List Char := "\\u\x7b".toList ++ hexDigits c.toNat ++ ['\x7d']

/-- How one character stands inside a quoted text. -/
def quoteChar (c : Char) : List Char :=
  if c = '\x00' then ['\\', '0']
  else if c = '\t' then ['\\', 't']
  else if c = '\r' then ['\\', 'r']
  else if c = '\n' then ['\\', 'n']
  else if c = '\"' then ['\\', '\"']
  else if c = '\\' then ['\\', '\\']
  else if isCombining c || isUnprintable c then numbered c
  else [c]

/-- A text between double quotes, escaped. -/
def quoted (s : String) : String :=
  String.ofList ('\"' :: s.toList.flatMap quoteChar ++ ['\"'])

end Text
end GlyphLine

/-!
# White space and separators

A text is cut into words at *separators*: the white space of the Unicode standard
and the four information separators U+001C to U+001F, which the standard does not
count as white space.  Trimming, in contrast, removes white space only.

* `isBlank`, `isSeparator`: the two classes.
* `trim`: white space removed at both ends.
-/

namespace GlyphLine
namespace Text

/-- The twenty-five code points with the property `White_Space`. -/
def isBlank (c : Char) : Bool :=
  let n := c.toNat
  (0x09 ≤ n && n ≤ 0x0D) || n == 0x20 || n == 0x85 || n == 0xA0 || n == 0x1680 ||
    (0x2000 ≤ n && n ≤ 0x200A) || n == 0x2028 || n == 0x2029 || n == 0x202F ||
    n == 0x205F || n == 0x3000

/-- White space, or one of the information separators U+001C to U+001F. -/
def isSeparator (c : Char) : Bool :=
  isBlank c || (0x1C ≤ c.toNat && c.toNat ≤ 0x1F)

/-- White space removed at both ends. -/
def trimChars (cs : List Char) : List Char :=
  ((cs.dropWhile isBlank).reverse.dropWhile isBlank).reverse

/-- White space removed at both ends of a string. -/
def trim (s : String) : String := String.ofList (trimChars s.toList)

end Text
end GlyphLine

import GlyphLine.Yaml.Fault

/-!
# Characters and positions of a YAML text

A cursor is a place in a text: the characters from there on, and how many characters,
lines and columns lie before it.  The form of a text depends on columns, for
indentation, and on lines and distances, for keys.

* `isBreak`, `isGap`, `isWordChar`: classes of characters.
* `Cursor`: places, with the ways to go on.
-/

namespace GlyphLine
namespace Yaml

/-- A space or a tab. -/
def isGap (c : Char) : Bool := c == ' ' || c == '\t'

/-- A line feed, a carriage return, a next line, a line separator or a paragraph
separator. -/
def isBreak (c : Char) : Bool :=
  c == '\r' || c == '\n' || c == '\u0085' || c == '\u2028' || c == '\u2029'

/-- A space, a tab or a line break. -/
def isGapOrBreak (c : Char) : Bool := isGap c || isBreak c

/-- The characters of anchors, handles and directive names. -/
def isWordChar (c : Char) : Bool := c.isAlphanum || c == '-' || c == '_'

/-- The mark that may stand in front of a text. -/
def byteOrderMark : Char := '\uFEFF'

/-- The characters that may occur in a text at all. -/
def isAllowed (c : Char) : Bool :=
  let n := c.toNat
  c == '\t' || c == '\n' || c == '\r' || (0x20 ≤ n && n ≤ 0x7E) || n == 0x85 ||
    (0xA0 ≤ n && n ≤ 0xFFFD) || 0x10000 ≤ n

/-- A place in a text. -/
structure Cursor where
  rest : List Char
  index : Nat := 0
  line : Nat := 0
  column : Nat := 0
  deriving DecidableEq, Repr

namespace Cursor

/-- Whether the next character exists and satisfies `p`. -/
def isAt (k : Cursor) (p : Char → Bool) : Bool :=
  match k.rest with
  | [] => false
  | c :: _ => p c

/-- Whether a list of characters is empty or begins with white space. -/
def endsWord : List Char → Bool
  | [] => true
  | c :: _ => isGapOrBreak c

/-- Whether the text ends here or white space comes next. -/
def atGapOrEnd (k : Cursor) : Bool := endsWord k.rest

/-- Whether the line ends here. -/
def atLineEnd (k : Cursor) : Bool :=
  match k.rest with
  | [] => true
  | c :: _ => isBreak c

/-- The place `n` characters further on in the same line. -/
def advance (k : Cursor) (n : Nat) : Cursor :=
  ⟨k.rest.drop n, k.index + n, k.line, k.column + n⟩

/-- The run of characters from here on that satisfy `p`, all in one line, and the place
behind it. -/
def run (k : Cursor) (p : Char → Bool) : List Char × Cursor :=
  let (cs, rest) := k.rest.span p
  (cs, ⟨rest, k.index + cs.length, k.line, k.column + cs.length⟩)

/-- The place behind the characters from here on that satisfy `p`. -/
def skip (k : Cursor) (p : Char → Bool) : Cursor := (k.run p).2

/-- A line break: what it counts for, and the place behind it.  A carriage return with
a line feed is one break; the breaks of a text file count as line feeds. -/
def lineBreak (k : Cursor) : List Char × Cursor :=
  match k.rest with
  | '\r' :: '\n' :: rest => (['\n'], ⟨rest, k.index + 2, k.line + 1, 0⟩)
  | c :: rest =>
    if c = '\r' || c = '\n' || c = '\u0085' then (['\n'], ⟨rest, k.index + 1, k.line + 1, 0⟩)
    else if isBreak c then ([c], ⟨rest, k.index + 1, k.line + 1, 0⟩)
    else ([], k)
  | [] => ([], k)

/-- Whether one of the two marks between documents stands here, at the start of a line. -/
def atDocumentMark (k : Cursor) : Bool :=
  k.column == 0 &&
    match k.rest with
    | '-' :: '-' :: '-' :: rest => endsWord rest
    | '.' :: '.' :: '.' :: rest => endsWord rest
    | _ => false

/-- The place behind a comment, if one begins here. -/
def skipComment (k : Cursor) : Cursor :=
  if k.isAt (· == '#') then k.skip fun c => !isBreak c else k

end Cursor
end Yaml
end GlyphLine

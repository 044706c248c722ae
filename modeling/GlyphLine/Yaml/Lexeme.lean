import GlyphLine.Text.Decimal
import GlyphLine.Yaml.Cursor
import GlyphLine.Yaml.Token

/-!
# Scalars and properties of a YAML text

How a scalar is read in each of its five styles, and how anchors, tags and directives
are read.  All but the plain and the block styles end inside the text that they begin;
those two end where the indentation or the next indicator ends them.

White space between the words of a quoted or plain scalar is a *fold*: without a line
break it is kept, with one break it is a space, with more it is all breaks but the
first.

* `plain`, `quoted`, `block`: the scalars.
* `name`, `tag`, `directive`: the properties and directives.
-/

namespace GlyphLine
namespace Yaml
namespace Lexeme

/-! ## Folds -/

/-- White space between two words. -/
structure Fold where
  blanks : List Char := []
  first : List Char := []
  others : List Char := []
  broken : Bool := false
  deriving DecidableEq, Repr

/-- What a fold counts for. -/
def Fold.text (f : Fold) : List Char :=
  if f.broken then
    if f.first == ['\n'] then (if f.others.isEmpty then [' '] else f.others)
    else f.first ++ f.others
  else f.blanks

/-- The white space from here on.  Behind a line break no tab may stand left of
`margin`. -/
def fold (margin : Nat) : (rounds : Nat) → Fold → Cursor → Except Fault (Fold × Cursor)
  | 0, f, k => .ok (f, k)
  | rounds + 1, f, k =>
    match k.rest with
    | [] => .ok (f, k)
    | c :: _ =>
      if isGap c then
        if f.broken then
          if c = '\t' && k.column < margin then .error .tabInIndentation
          else fold margin rounds f (k.advance 1)
        else
          let (gap, k) := k.run isGap
          fold margin rounds { f with blanks := f.blanks ++ gap } k
      else if isBreak c then
        let (br, k) := k.lineBreak
        if f.broken then fold margin rounds { f with others := f.others ++ br } k
        else fold margin rounds { f with first := br, broken := true } k
      else .ok (f, k)

/-! ## Plain scalars -/

/-- The indicators of a flow collection. -/
def isFlowIndicator (c : Char) : Bool :=
  c == ',' || c == '[' || c == ']' || c == '{' || c == '}'

/-- The longest word from here on that can belong to a plain scalar, in reverse order. -/
def plainWord (inFlow : Bool) (done : List Char) : List Char → Except Fault (List Char)
  | [] => .ok done
  | c :: rest =>
    if isGapOrBreak c then .ok done
    else if c = ':' then
      match rest with
      | [] => .ok done
      | d :: _ =>
        if inFlow && (isFlowIndicator d || d = '?') then .error .unexpectedColon
        else if isGapOrBreak d then .ok done
        else plainWord inFlow (c :: done) rest
    else if inFlow && isFlowIndicator c then .ok done
    else plainWord inFlow (c :: done) rest

/-- A plain scalar from here on, behind the words already read and the fold behind them.
Gives the text in reverse order, the place behind it, and whether a line has ended
before that place. -/
def plainWords (inFlow : Bool) (margin : Nat) :
    (rounds : Nat) → (done : List Char) → Fold → Cursor →
      Except Fault (List Char × Bool × Cursor)
  | 0, done, f, k => .ok (done, f.broken, k)
  | rounds + 1, done, f, k =>
    if k.atDocumentMark || k.isAt (· == '#') then .ok (done, f.broken, k)
    else
      match plainWord inFlow [] k.rest with
      | .error e => .error e
      | .ok [] => .ok (done, f.broken, k)
      | .ok word =>
        let done := word ++ (f.text.reverse ++ done)
        let k := k.advance word.length
        if k.isAt isGapOrBreak then
          match fold margin (rounds + 1) {} k with
          | .error e => .error e
          | .ok (f, k) =>
            if !inFlow && k.column < margin then .ok (done, f.broken, k)
            else plainWords inFlow margin rounds done f k
        else .ok (done, false, k)

/-- A plain scalar: its text, whether a line has ended behind it, and the place where
the next token is looked for. -/
def plain (inFlow : Bool) (margin : Nat) (k : Cursor) : Except Fault (String × Bool × Cursor) :=
  (plainWords inFlow margin (k.rest.length + 1) [] {} k).map fun (cs, broken, k) =>
    (String.ofList cs.reverse, broken, k)

/-! ## Quoted scalars -/

/-- The value of a hexadecimal digit. -/
def hexDigit? (c : Char) : Option Nat :=
  if c.isDigit then some (c.toNat - '0'.toNat)
  else if 'a' ≤ c && c ≤ 'f' then some (c.toNat - 'a'.toNat + 10)
  else if 'A' ≤ c && c ≤ 'F' then some (c.toNat - 'A'.toNat + 10)
  else none

/-- The number of exactly `n` hexadecimal digits. -/
def hexNumber? (n : Nat) (cs : List Char) : Option Nat :=
  if (cs.take n).length < n then none
  else ((cs.take n).mapM hexDigit?).map fun ds => ds.foldl (fun v d => v * 16 + d) 0

/-- The character that a letter stands for behind a backslash. -/
def shortEscape? : Char → Option Char
  | '0' => some '\x00'
  | 'a' => some '\x07'
  | 'b' => some '\x08'
  | 't' => some '\t'
  | '\t' => some '\t'
  | 'n' => some '\n'
  | 'v' => some '\x0b'
  | 'f' => some '\x0c'
  | 'r' => some '\r'
  | 'e' => some '\x1b'
  | ' ' => some ' '
  | '\"' => some '\"'
  | '/' => some '/'
  | '\\' => some '\\'
  | 'N' => some '\u0085'
  | '_' => some '\u00a0'
  | 'L' => some '\u2028'
  | 'P' => some '\u2029'
  | _ => none

/-- How many digits a letter calls for behind a backslash. -/
def longEscape? : Char → Option Nat
  | 'x' => some 2
  | 'u' => some 4
  | 'U' => some 8
  | _ => none

/-- Whether a number is a code point that is no surrogate. -/
def isCodePoint (n : Nat) : Bool := n < 0xD800 || (0xDFFF < n && n ≤ 0x10FFFF)

/-- An escape from behind its backslash on: the character, and how many characters the
escape has there. -/
def escape (cs : List Char) : Except Fault (Char × Nat) :=
  match cs with
  | [] => .error .badEscape
  | c :: rest =>
    match shortEscape? c, longEscape? c with
    | some d, _ => .ok (d, 1)
    | none, none => .error .badEscape
    | none, some n =>
      match hexNumber? n rest with
      | some v => if isCodePoint v then .ok (Char.ofNat v, n + 1) else .error .badEscape
      | none => .error .badEscape

/-- A word of a quoted scalar from here on, in reverse order behind `done`, and whether
an escaped line break has ended it.  A word goes up to white space or the closing
quote. -/
def quotedWord (single : Bool) :
    (rounds : Nat) → (done : List Char) → Cursor → Except Fault (List Char × Bool × Cursor)
  | 0, done, k => .ok (done, false, k)
  | rounds + 1, done, k =>
    match k.rest with
    | [] => .ok (done, false, k)
    | c :: rest =>
      if isGapOrBreak c then .ok (done, false, k)
      else if single then
        if c = '\'' then
          match rest with
          | '\'' :: _ => quotedWord single rounds ('\'' :: done) (k.advance 2)
          | _ => .ok (done, false, k)
        else quotedWord single rounds (c :: done) (k.advance 1)
      else if c = '\"' then .ok (done, false, k)
      else if c = '\\' then
        let k := k.advance 1
        if k.isAt isBreak then .ok (done, true, k.lineBreak.2)
        else
          match escape rest with
          | .ok (d, n) => quotedWord single rounds (d :: done) (k.advance n)
          | .error e => .error e
      else quotedWord single rounds (c :: done) (k.advance 1)

/-- A quoted scalar from behind its opening quote on, in reverse order behind `done`. -/
def quotedWords (single : Bool) :
    (rounds : Nat) → (done : List Char) → Cursor → Except Fault (List Char × Cursor)
  | 0, _, _ => .error .unendedQuote
  | rounds + 1, done, k =>
    if k.atDocumentMark || k.rest.isEmpty then .error .unendedQuote
    else
      match quotedWord single (rounds + 1) done k with
      | .error e => .error e
      | .ok (done, escaped, k) =>
        if k.isAt (· == if single then '\'' else '\"') then .ok (done, k.advance 1)
        else
          match fold 0 (rounds + 1) { broken := escaped } k with
          | .error e => .error e
          | .ok (f, k) => quotedWords single rounds (f.text.reverse ++ done) k

/-- A quoted scalar, with the place behind it. -/
def quoted (single : Bool) (k : Cursor) : Except Fault (String × Cursor) :=
  (quotedWords single (k.rest.length + 1) [] (k.advance 1)).map fun (cs, k) =>
    (String.ofList cs.reverse, k)

/-! ## Block scalars -/

/-- What becomes of the line breaks at the end of a block scalar. -/
inductive Chomping where
  | strip
  | clip
  | keep
  deriving DecidableEq, Repr

/-- The sign of a block scalar that says what becomes of its last breaks. -/
def chomping? : Char → Option Chomping
  | '-' => some .strip
  | '+' => some .keep
  | _ => none

/-- The header of a block scalar from behind its indicator on: the chomping, and the
indentation if one is given.  They may stand in either order. -/
def blockHeader (k : Cursor) : Except Fault (Chomping × Option Nat × Cursor) :=
  match k.rest with
  | c :: d :: _ =>
    match chomping? c with
    | some ch =>
      if d = '0' then .error .badHeader
      else if d.isDigit then .ok (ch, some (d.toNat - '0'.toNat), k.advance 2)
      else .ok (ch, none, k.advance 1)
    | none =>
      if c = '0' then .error .badHeader
      else if c.isDigit then
        let n := c.toNat - '0'.toNat
        match chomping? d with
        | some ch => .ok (ch, some n, k.advance 2)
        | none => .ok (.clip, some n, k.advance 1)
      else .ok (.clip, none, k)
  | [c] =>
    match chomping? c with
    | some ch => .ok (ch, none, k.advance 1)
    | none =>
      if c = '0' then .error .badHeader
      else if c.isDigit then .ok (.clip, some (c.toNat - '0'.toNat), k.advance 1)
      else .ok (.clip, none, k)
  | [] => .ok (.clip, none, k)

/-- Empty lines and indentation in front of a line of a block scalar: the breaks, the
greatest column met, and the place of the first character that is neither.  Without a
known indentation all spaces belong to it. -/
def blockBreaks (indent : Option Nat) :
    (rounds : Nat) → (breaks : List Char) → (widest : Nat) → Cursor →
      Except Fault (List Char × Nat × Cursor)
  | 0, breaks, widest, k => .ok (breaks, widest, k)
  | rounds + 1, breaks, widest, k =>
    let within (column : Nat) : Bool :=
      match indent with
      | some n => column < n
      | none => true
    let spaces := (k.rest.takeWhile (· == ' ')).length
    let k := k.advance (match indent with
      | some n => min spaces (n - k.column)
      | none => spaces)
    let widest := max widest k.column
    if within k.column && k.isAt (· == '\t') then .error .tabInIndentation
    else if k.isAt isBreak then
      let (br, k) := k.lineBreak
      blockBreaks indent rounds (breaks ++ br) widest k
    else .ok (breaks, widest, k)

/-- The breaks that wait in front of the next line of a block scalar: the one that ended
the last line, and those of the empty lines. -/
structure Pending where
  leading : List Char := []
  trailing : List Char := []
  deriving DecidableEq, Repr

/-- What the breaks in front of a line count for.  In a folded scalar a single break
between two lines that do not begin with white space is a space. -/
def Pending.text (p : Pending) (folded afterGap beforeGap : Bool) : List Char :=
  if folded && p.leading == ['\n'] && !afterGap && !beforeGap then
    (if p.trailing.isEmpty then [' '] else []) ++ p.trailing
  else p.leading ++ p.trailing

/-- The lines of a block scalar, in reverse order behind `done`. -/
def blockLines (folded : Bool) (indent : Nat) :
    (rounds : Nat) → (done : List Char) → (afterGap : Bool) → Pending → Cursor →
      Except Fault (List Char × Pending × Cursor)
  | 0, done, _, p, k => .ok (done, p, k)
  | rounds + 1, done, afterGap, p, k =>
    if k.column != indent || k.rest.isEmpty then .ok (done, p, k)
    else
      let gap := k.isAt isGap
      let (line, k) := k.run fun c => !isBreak c
      let done := line.reverse ++ ((p.text folded afterGap gap).reverse ++ done)
      let (br, k) := k.lineBreak
      match blockBreaks (some indent) (rounds + 1) [] 0 k with
      | .error e => .error e
      | .ok (breaks, _, k) => blockLines folded indent rounds done gap ⟨br, breaks⟩ k

/-- A block scalar, with the place behind it.  `parent` is the column of the collection
around it, `-1` outside of any. -/
def block (folded : Bool) (parent : Int) (k : Cursor) : Except Fault (String × Cursor) :=
  match blockHeader (k.advance 1) with
  | .error e => .error e
  | .ok (chomping, given, k) =>
    let k := (k.skip isGap).skipComment
    if !k.atLineEnd then .error .badHeader
    else
      let k := k.lineBreak.2
      let indent := given.map fun n => parent.toNat + n
      match blockBreaks indent (k.rest.length + 1) [] 0 k with
      | .error e => .error e
      | .ok (breaks, widest, k) =>
        let indent := indent.getD (max widest (max (parent + 1).toNat 1))
        match blockLines folded indent (k.rest.length + 1) [] false ⟨[], breaks⟩ k with
        | .error e => .error e
        | .ok (done, p, k) =>
          let tail := match chomping with
            | .strip => []
            | .clip => p.leading
            | .keep => p.leading ++ p.trailing
          .ok (String.ofList (done.reverse ++ tail), k)

/-! ## Anchors, tags and directives -/

/-- The characters besides white space that may stand behind an anchor. -/
def endsName (c : Char) : Bool :=
  isGapOrBreak c || ['?', ':', ',', ']', '}', '%', '@', '\x60'].contains c

/-- The name of an anchor or alias, from its indicator on. -/
def name (k : Cursor) : Except Fault (String × Cursor) :=
  let (cs, k) := (k.advance 1).run isWordChar
  if cs.isEmpty || !(k.rest.isEmpty || k.isAt endsName) then .error .badAnchor
  else .ok (String.ofList cs, k)

/-- The characters of a tag besides escapes; brackets and the comma only between angle
brackets and in directives. -/
def isTagChar (wide : Bool) (c : Char) : Bool :=
  isWordChar c ||
    [';', '/', '?', ':', '@', '&', '=', '+', '$', '.', '!', '~', '*', '\'', '(', ')'].contains c ||
    (wide && [',', '[', ']'].contains c)

/-- How many bytes a character has whose first byte is `b`, and the bits of it that the
first byte holds. -/
def byteWidth (b : Nat) : Option (Nat × Nat) :=
  if b < 0x80 then some (1, b)
  else if 0xC0 ≤ b && b < 0xE0 then some (2, b - 0xC0)
  else if 0xE0 ≤ b && b < 0xF0 then some (3, b - 0xE0)
  else if 0xF0 ≤ b && b < 0xF8 then some (4, b - 0xF0)
  else none

/-- The byte of a percent sign and two hexadecimal digits. -/
def escapedByte? : List Char → Option Nat
  | '%' :: rest => hexNumber? 2 rest
  | _ => none

/-- The bytes behind the first one of an escaped character. -/
def escapedBytes : (n : Nat) → (value : Nat) → Cursor → Except Fault (Nat × Cursor)
  | 0, value, k => .ok (value, k)
  | n + 1, value, k =>
    match escapedByte? k.rest with
    | some b =>
      if 0x80 ≤ b && b < 0xC0 then escapedBytes n (value * 64 + (b - 0x80)) (k.advance 3)
      else .error .badTag
    | none => .error .badTag

/-- An escaped character of a tag. -/
def escapedChar (k : Cursor) : Except Fault (Char × Cursor) :=
  match (escapedByte? k.rest).bind byteWidth with
  | none => .error .badTag
  | some (width, bits) =>
    (escapedBytes (width - 1) bits (k.advance 3)).map fun (v, k) =>
      (if isCodePoint v then Char.ofNat v else '\uFFFD', k)

/-- The characters of a tag from here on, in reverse order behind `done`. -/
def tagChars (wide : Bool) :
    (rounds : Nat) → (done : List Char) → Cursor → Except Fault (List Char × Cursor)
  | 0, done, k => .ok (done, k)
  | rounds + 1, done, k =>
    match k.rest with
    | [] => .ok (done, k)
    | c :: _ =>
      if c = '%' then
        match escapedChar k with
        | .ok (d, k) => tagChars wide rounds (d :: done) k
        | .error e => .error e
      else if isTagChar wide c then tagChars wide rounds (c :: done) (k.advance 1)
      else .ok (done, k)

/-- The characters of a tag from here on. -/
def tagText (wide : Bool) (k : Cursor) : Except Fault (List Char × Cursor) :=
  (tagChars wide (k.rest.length + 1) [] k).map fun (cs, k) => (cs.reverse, k)

/-- A handle from its exclamation mark on: the mark, word characters, and a second mark
if there is one. -/
def handle (k : Cursor) : List Char × Cursor :=
  let (cs, k) := (k.advance 1).run isWordChar
  if k.isAt (· == '!') then ('!' :: cs ++ ['!'], k.advance 1) else ('!' :: cs, k)

/-- Whether a handle has two marks. -/
def isNamedHandle (h : List Char) : Bool := h.length > 1 && h.getLast? == some '!'

/-- The handle and the suffix of a tag.  A tag between angle brackets has no handle, and
the tag that is a mark only is its own suffix. -/
def tagParts (k : Cursor) : Except Fault (String × String × Cursor) :=
  match k.rest with
  | _ :: '<' :: _ =>
    match tagText true (k.advance 2) with
    | .error e => .error e
    | .ok (cs, k) =>
      if cs.isEmpty || !k.isAt (· == '>') then .error .badTag
      else .ok ("", String.ofList cs, k.advance 1)
  | _ =>
    let (h, k) := handle k
    match tagText false k with
    | .error e => .error e
    | .ok (cs, k) =>
      if isNamedHandle h then
        if cs.isEmpty then .error .badTag else .ok (String.ofList h, String.ofList cs, k)
      else
        match h.tail ++ cs with
        | [] => .ok ("", "!", k)
        | suffix => .ok ("!", String.ofList suffix, k)

/-- A tag.  White space follows it, or a comma in a flow collection. -/
def tag (inFlow : Bool) (k : Cursor) : Except Fault (Token × Cursor) :=
  match tagParts k with
  | .error e => .error e
  | .ok (h, suffix, k) =>
    if k.atGapOrEnd || (inFlow && k.isAt (· == ',')) then .ok (.tag h suffix, k)
    else .error .badTag

/-- A number of one to nine digits. -/
def versionNumber (k : Cursor) : Except Fault (Nat × Cursor) :=
  let (ds, k) := k.run Char.isDigit
  if ds.isEmpty || 9 < ds.length then .error .badDirective
  else .ok (Text.digitsValue ds, k)

/-- The two numbers of a version. -/
def version (k : Cursor) : Except Fault (Token × Cursor) :=
  match versionNumber (k.skip isGap) with
  | .error e => .error e
  | .ok (major, k) =>
    if k.isAt (· == '.') then
      (versionNumber (k.advance 1)).map fun (minor, k) => (.version major minor, k)
    else .error .badDirective

/-- A handle and the tag that it stands for. -/
def handleTag (k : Cursor) : Except Fault (Token × Cursor) :=
  let k := k.skip isGap
  if !k.isAt (· == '!') then .error .badDirective
  else
    let (h, k) := handle k
    if (h.length > 1 && !isNamedHandle h) || !k.isAt isGap then .error .badDirective
    else
      match tagText true (k.skip isGap) with
      | .error e => .error e
      | .ok (cs, k) =>
        if cs.isEmpty || !k.atGapOrEnd then .error .badDirective
        else .ok (.handle (String.ofList h) (String.ofList cs), k)

/-- A directive, from its percent sign to the end of its line. -/
def directive (k : Cursor) : Except Fault (Token × Cursor) :=
  let (cs, k) := (k.advance 1).run isWordChar
  let body : Except Fault (Token × Cursor) :=
    if !k.atGapOrEnd then .error .badDirective
    else if cs = ['Y', 'A', 'M', 'L'] then version k
    else if cs = ['T', 'A', 'G'] then handleTag k
    else .error .badDirective
  match body with
  | .error e => .error e
  | .ok (token, k) =>
    let k := (k.skip isGap).skipComment
    if k.atLineEnd then .ok (token, k.lineBreak.2) else .error .badDirective

end Lexeme
end Yaml
end GlyphLine

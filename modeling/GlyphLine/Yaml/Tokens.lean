import GlyphLine.Yaml.Lexeme

/-!
# The tokens of a YAML text

Two things make tokens more than words.  Outside of brackets, indentation opens and
closes collections, and these starts and ends are tokens of their own.  And whether a
scalar or a collection is a key shows only at the colon behind it: until then it is
remembered where it began, and the token that announces a key is put there.

A place where a key may begin is forgotten at the end of its line, or more than 1024
characters further on.  If the indentation says that nothing but a key can be there, it
must not be forgotten.

* `Layout`: what has to be remembered between two tokens.
* `tokens`: the tokens of a text.
-/

namespace GlyphLine
namespace Yaml

/-- A place where a key may have begun: the number of its token, and whether there has
to be a key. -/
structure KeyPlace where
  required : Bool
  number : Nat
  index : Nat
  line : Nat
  column : Nat
  deriving DecidableEq, Repr

/-- What has been read and what is remembered: the place, the possible key of the
current flow collection and those of the collections around it, the columns of the
block collections that are open, whether a key may begin here, and the tokens so far in
reverse order. -/
structure Layout where
  cursor : Cursor
  key : Option KeyPlace := none
  outerKeys : List (Option KeyPlace) := []
  indent : Int := -1
  outerIndents : List Int := []
  keyAllowed : Bool := true
  reversed : List Token := []
  count : Nat := 0
  deriving DecidableEq, Repr

namespace Layout

/-- Whether the place is inside brackets. -/
def inFlow (s : Layout) : Bool := !s.outerKeys.isEmpty

/-- One more token. -/
def push (s : Layout) (t : Token) : Layout :=
  { s with reversed := t :: s.reversed, count := s.count + 1 }

/-- One more token, as the one with the given number. -/
def insertAt (s : Layout) (number : Nat) (t : Token) : Layout :=
  let after := s.count - number
  { s with
    reversed := s.reversed.take after ++ t :: s.reversed.drop after
    count := s.count + 1 }

/-- One more token, of `n` characters. -/
def take (s : Layout) (n : Nat) (t : Token) : Layout :=
  { s.push t with cursor := s.cursor.advance n }

/-! ## Keys -/

/-- Forgets the key if its line has ended or it is too far away. -/
def forgetOldKey (s : Layout) : Except Fault Layout :=
  match s.key with
  | none => .ok s
  | some p =>
    if p.line < s.cursor.line || p.index + 1024 < s.cursor.index then
      if p.required then .error .noColon else .ok { s with key := none }
    else .ok s

/-- Gives up the key: something stands here behind which no colon can make it one. -/
def dropKey (s : Layout) : Except Fault Layout :=
  match s.key with
  | some p => if p.required then .error .noColon else .ok { s with key := none }
  | none => .ok s

/-- Remembers that a key may begin here, if one may. -/
def rememberKey (s : Layout) : Except Fault Layout :=
  if s.keyAllowed then
    let k := s.cursor
    let required := !s.inFlow && s.indent == (k.column : Int)
    s.dropKey.map fun s => { s with key := some ⟨required, s.count, k.index, k.line, k.column⟩ }
  else .ok s

/-! ## Indentation -/

/-- Opens a block collection at a column, unless one is open there or further in. -/
def openBlock (s : Layout) (column : Nat) (t : Token) (number : Option Nat) : Layout :=
  if s.inFlow || (column : Int) ≤ s.indent then s
  else
    let s := { s with indent := column, outerIndents := s.indent :: s.outerIndents }
    match number with
    | some n => s.insertAt n t
    | none => s.push t

/-- Closes the block collections of `outer`, and the current one, that stand further in
than a column. -/
def closeBlocksTo (column : Int) : (outer : List Int) → Layout → Layout
  | [], s => s
  | indent :: outer, s =>
    if column < s.indent then
      closeBlocksTo column outer { s.push .blockEnd with indent := indent, outerIndents := outer }
    else s

/-- Closes the block collections that stand further in than a column. -/
def closeBlocks (s : Layout) (column : Int) : Layout :=
  if s.inFlow then s else closeBlocksTo column s.outerIndents s

/-! ## Tokens one by one -/

/-- The place of the next token, behind white space and comments.  A new line outside of
brackets may begin a key.  A tab may not stand where a key may begin. -/
def skipToToken : (rounds : Nat) → Layout → Layout
  | 0, s => s
  | rounds + 1, s =>
    let k := s.cursor
    let k := if k.index == 0 && k.isAt (· == byteOrderMark) then k.advance 1 else k
    let k := k.skip fun c => c == ' ' || (c == '\t' && (s.inFlow || !s.keyAllowed))
    let k := k.skipComment
    if k.isAt isBreak then
      skipToToken rounds
        { s with cursor := k.lineBreak.2, keyAllowed := s.keyAllowed || !s.inFlow }
    else { s with cursor := k }

/-- A mark of a document or a directive, which ends all open blocks. -/
def atMargin (s : Layout) : Except Fault Layout :=
  (s.closeBlocks (-1)).dropKey.map fun s => { s with keyAllowed := false }

/-- The bracket that opens a flow collection. -/
def openFlow (s : Layout) (t : Token) : Except Fault Layout :=
  s.rememberKey.map fun s =>
    { s.take 1 t with key := none, outerKeys := s.key :: s.outerKeys, keyAllowed := true }

/-- The bracket that closes a flow collection. -/
def closeFlow (s : Layout) (t : Token) : Except Fault Layout :=
  s.dropKey.map fun s =>
    let s := { s.take 1 t with keyAllowed := false }
    match s.outerKeys with
    | key :: outer => { s with key := key, outerKeys := outer }
    | [] => s

/-- The comma of a flow collection. -/
def comma (s : Layout) : Except Fault Layout :=
  s.dropKey.map fun s => { s.take 1 .comma with keyAllowed := true }

/-- The dash of a block entry. -/
def entry (s : Layout) : Except Fault Layout :=
  if !s.inFlow && !s.keyAllowed then .error .misplaced
  else
    (s.openBlock s.cursor.column .blockSequence none).dropKey.map fun s =>
      { s.take 1 .entry with keyAllowed := true }

/-- The question mark in front of a key. -/
def keyMark (s : Layout) : Except Fault Layout :=
  if !s.inFlow && !s.keyAllowed then .error .misplaced
  else
    (s.openBlock s.cursor.column .blockMapping none).dropKey.map fun s =>
      { s.take 1 .key with keyAllowed := !s.inFlow }

/-- The colon in front of a value.  It turns what has been remembered into a key. -/
def value (s : Layout) : Except Fault Layout :=
  match s.key with
  | some p =>
    let s := (s.insertAt p.number .key).openBlock p.column .blockMapping (some p.number)
    .ok { s.take 1 .value with key := none, keyAllowed := false }
  | none =>
    if !s.inFlow && !s.keyAllowed then .error .misplaced
    else
      let s := s.openBlock s.cursor.column .blockMapping none
      .ok { s.take 1 .value with keyAllowed := !s.inFlow }

/-- A token that has been read, with the place behind it. -/
def pushAt (s : Layout) (t : Token) (k : Cursor) : Layout := { s.push t with cursor := k }

/-- An anchor, an alias, a tag or a quoted scalar: a key may begin here, but none may
begin directly behind it. -/
def inKey (s : Layout) (read : Layout → Except Fault (Token × Cursor)) : Except Fault Layout :=
  match s.rememberKey with
  | .error e => .error e
  | .ok s => (read s).map fun (t, k) => { s.pushAt t k with keyAllowed := false }

/-- A plain scalar. -/
def plain (s : Layout) : Except Fault Layout :=
  match s.rememberKey with
  | .error e => .error e
  | .ok s =>
    (Lexeme.plain s.inFlow (s.indent + 1).toNat s.cursor).map fun (text, broken, k) =>
      { s.pushAt (.scalar true text) k with keyAllowed := broken }

/-- A block scalar. -/
def block (s : Layout) (folded : Bool) : Except Fault Layout :=
  match s.dropKey with
  | .error e => .error e
  | .ok s =>
    (Lexeme.block folded s.indent s.cursor).map fun (text, k) =>
      { s.pushAt (.scalar false text) k with keyAllowed := true }

/-- A directive, which stands in a line of its own. -/
def directive (s : Layout) : Except Fault Layout :=
  match s.atMargin with
  | .error e => .error e
  | .ok s => (Lexeme.directive s.cursor).map fun (t, k) => s.pushAt t k

/-- The characters that begin no plain scalar. -/
def isIndicator (c : Char) : Bool :=
  ['-', '?', ':', ',', '[', ']', '{', '}', '#', '&', '*', '!', '|', '>', '\'', '\"', '%', '@',
    '\x60'].contains c

/-- Whether a plain scalar may begin with the character `c` and the ones behind it. -/
def startsPlain (inFlow : Bool) (c : Char) (rest : List Char) : Bool :=
  let beforeGap : Bool := match rest with
    | [] => false
    | d :: _ => isGap d
  !(isGapOrBreak c || isIndicator c) || (c == '-' && !beforeGap) ||
    (!inFlow && (c == '?' || c == ':') && !Cursor.endsWord rest)

/-- The token that begins here. -/
def next (s : Layout) (c : Char) (rest : List Char) : Except Fault Layout :=
  let k := s.cursor
  let wordEnds := Cursor.endsWord rest
  if k.column == 0 && c == '%' then s.directive
  else if k.atDocumentMark then
    s.atMargin.map fun s => s.take 3 (if c == '-' then .documentStart else .documentEnd)
  else if c == '[' then s.openFlow .listStart
  else if c == '{' then s.openFlow .mapStart
  else if c == ']' then s.closeFlow .listEnd
  else if c == '}' then s.closeFlow .mapEnd
  else if c == ',' then s.comma
  else if c == '-' && wordEnds then s.entry
  else if c == '?' && (s.inFlow || wordEnds) then s.keyMark
  else if c == ':' && (s.inFlow || wordEnds) then s.value
  else if c == '*' then
    s.inKey fun s => (Lexeme.name s.cursor).map fun (n, k) => (.alias n, k)
  else if c == '&' then
    s.inKey fun s => (Lexeme.name s.cursor).map fun (n, k) => (.anchor n, k)
  else if c == '!' then s.inKey fun s => Lexeme.tag s.inFlow s.cursor
  else if c == '|' && !s.inFlow then s.block false
  else if c == '>' && !s.inFlow then s.block true
  else if c == '\'' then
    s.inKey fun s => (Lexeme.quoted true s.cursor).map fun (t, k) => (.scalar false t, k)
  else if c == '\"' then
    s.inKey fun s => (Lexeme.quoted false s.cursor).map fun (t, k) => (.scalar false t, k)
  else if startsPlain s.inFlow c rest then s.plain
  else .error .noToken

/-- The tokens from here to the end of the text.  Every token and every line break has a
character of its own, so that there are no more rounds than characters are left. -/
def finish : (rounds : Nat) → Layout → Except Fault (List Token)
  | 0, _ => .error .noToken
  | rounds + 1, s =>
    match (skipToToken (rounds + 1) s).forgetOldKey with
    | .error e => .error e
    | .ok s =>
      match s.cursor.rest with
      | [] => (s.closeBlocks (-1)).dropKey.map fun s => s.reversed.reverse
      | c :: rest =>
        match (s.closeBlocks s.cursor.column).next c rest with
        | .error e => .error e
        | .ok s => finish rounds s

end Layout

/-- The characters of a text behind a mark of the byte order. -/
def withoutMark : List Char → List Char
  | [] => []
  | c :: rest => if c = byteOrderMark then rest else c :: rest

/-- The tokens of a text. -/
def tokens (text : String) : Except Fault (List Token) :=
  let cs := withoutMark text.toList
  if cs.all isAllowed then Layout.finish (cs.length + 1) { cursor := ⟨cs, 0, 0, 0⟩ }
  else .error .forbiddenCharacter

end Yaml
end GlyphLine

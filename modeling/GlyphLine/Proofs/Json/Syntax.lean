import GlyphLine.Json.Lexeme

/-!
# JSON texts

A JSON text is a value with white space around it.  Here are the values as they can be written:
with white space between any two of their parts, with every spelling of a string and of a
number, nested to any depth.  Nothing is said of what a reader does with them, only what their
characters are and, of strings, which characters are meant.

A string may hold the escapes of code units that are no character.  Such a string is JSON; it
means no text.

* `Gap`, `Numeral`, `Quoted`: white space, numbers and strings, as they are written.
* `Tree`: values, as they are written.
* `Tree.chars`: the characters of a value.
* `Quoted.text`: the text that a string means, if it means one.
-/

namespace GlyphLine
namespace Json

open Lexeme

/-! ## White space -/

/-- White space. -/
structure Gap where
  chars : List Char
  space : ∀ c ∈ chars, c = ' ' ∨ c = '\n' ∨ c = '\t' ∨ c = '\r'

namespace Gap

/-- No white space. -/
def none : Gap := ⟨[], fun _ h => absurd h List.not_mem_nil⟩

/-- White space behind white space. -/
def append (g h : Gap) : Gap :=
  ⟨g.chars ++ h.chars, fun c hc => (List.mem_append.1 hc).elim (g.space c) (h.space c)⟩

end Gap

/-! ## Numbers -/

/-- One digit or more. -/
structure Digits where
  first : Char
  others : List Char
  isDigit : ∀ c ∈ first :: others, c.isDigit = true

/-- The digits in their order. -/
def Digits.chars (d : Digits) : List Char := d.first :: d.others

/-- An exponent: its letter, which may be a capital one, its sign, which may be missing, and its
digits. -/
structure Exponent where
  capital : Bool
  sign : Option Bool
  digits : Digits

namespace Exponent

/-- The letter in front. -/
def letter (e : Exponent) : Char := if e.capital then 'E' else 'e'

/-- The sign: a minus sign, a plus sign, or none. -/
def signChars (e : Exponent) : List Char :=
  match e.sign with
  | some true => ['-']
  | some false => ['+']
  | none => []

/-- Whether the exponent is negative. -/
def below (e : Exponent) : Bool := e.sign == some true

/-- The characters behind the letter. -/
def tail (e : Exponent) : List Char := e.signChars ++ e.digits.chars

end Exponent

/-- A number, as it is written: the digits before the point do not begin with a zero, unless
there is no other digit. -/
structure Numeral where
  negative : Bool
  whole : Digits
  proper : whole.first = '0' → whole.others = []
  fraction : Option Digits
  exponent : Option Exponent

namespace Numeral

/-- The exponent with its letter, if there is one. -/
def exponentChars : Option Exponent → List Char
  | some e => e.letter :: e.tail
  | none => []

/-- The fraction with its point, if there is one, and the exponent. -/
def tailChars (n : Numeral) : List Char :=
  match n.fraction with
  | some f => '.' :: (f.chars ++ exponentChars n.exponent)
  | none => exponentChars n.exponent

/-- The characters behind the sign. -/
def unsignedChars (n : Numeral) : List Char := n.whole.chars ++ n.tailChars

/-- The characters of a number. -/
def chars (n : Numeral) : List Char :=
  if n.negative then '-' :: n.unsignedChars else n.unsignedChars

end Numeral

/-! ## Strings -/

/-- The characters that stand behind a backslash for a character. -/
def shortEscapes : List Char := ['\"', '\\', '/', 'b', 'f', 'n', 'r', 't']

/-- A digit of a code unit. -/
def IsHexDigit (c : Char) : Prop :=
  c.isDigit = true ∨ ('a' ≤ c ∧ c ≤ 'f') ∨ ('A' ≤ c ∧ c ≤ 'F')

/-- Four digits of a code unit. -/
structure CodeUnit where
  a : Char
  b : Char
  c : Char
  d : Char
  isHex : IsHexDigit a ∧ IsHexDigit b ∧ IsHexDigit c ∧ IsHexDigit d

/-- The value of four digits. -/
def CodeUnit.value (u : CodeUnit) : Nat :=
  let digit (c : Char) : Nat := (hexDigit? c).getD 0
  ((digit u.a * 16 + digit u.b) * 16 + digit u.c) * 16 + digit u.d

/-- What a string is made of: characters that stand for themselves, characters behind a
backslash, and code units by their digits. -/
inductive Piece where
  | plain (c : Char) (h : c ≠ '\"' ∧ c ≠ '\\' ∧ isControl c = false)
  | short (c : Char) (h : c ∈ shortEscapes)
  | unit (u : CodeUnit)

/-- The characters of a piece. -/
def Piece.chars : Piece → List Char
  | .plain c _ => [c]
  | .short c _ => ['\\', c]
  | .unit u => ['\\', 'u', u.a, u.b, u.c, u.d]

/-- A string, as it is written. -/
structure Quoted where
  pieces : List Piece

namespace Quoted

/-- The characters between the quotes. -/
def inner (q : Quoted) : List Char := q.pieces.flatMap Piece.chars

/-- The characters of a string. -/
def chars (q : Quoted) : List Char := '\"' :: (q.inner ++ ['\"'])

/-- The character of two code units. -/
def pair (high low : Nat) : Char := Char.ofNat (0x10000 + (high - 0xD800) * 0x400 + (low - 0xDC00))

/-- The characters that pieces mean.  A leading code unit has to be followed by a trailing one,
and a trailing one may only stand there. -/
def meaning : List Piece → Except Fault (List Char)
  | [] => .ok []
  | .plain c _ :: ps => (meaning ps).map (c :: ·)
  | .short c _ :: ps => (meaning ps).map ((shortEscape? c).getD c :: ·)
  | .unit u :: .unit v :: ps =>
    if isTrailing u.value then .error .loneSurrogate
    else if isLeading u.value then
      if isTrailing v.value then (meaning ps).map (pair u.value v.value :: ·)
      else .error .loneSurrogate
    else (meaning (.unit v :: ps)).map (Char.ofNat u.value :: ·)
  | .unit u :: ps =>
    if isTrailing u.value then .error .loneSurrogate
    else if isLeading u.value then .error .endOfEscape
    else (meaning ps).map (Char.ofNat u.value :: ·)

/-- The text that a string means. -/
def text (q : Quoted) : Except Fault String := (meaning q.pieces).map String.ofList

/-- A character stands for itself between quotes. -/
def isPlain (c : Char) : Bool := c != '\"' && c != '\\' && !isControl c

theorem isPlain_iff {c : Char} :
    isPlain c = true ↔ c ≠ '\"' ∧ c ≠ '\\' ∧ isControl c = false := by
  simp only [isPlain, Bool.and_eq_true, bne_iff_ne, Bool.not_eq_true', and_assoc]

/-- A string of characters that stand for themselves. -/
def plain (cs : List Char) (h : cs.all isPlain = true) : Quoted where
  pieces := cs.attach.map fun c => .plain c.1 (isPlain_iff.mp (List.all_eq_true.mp h c.1 c.2))

end Quoted

/-! ## Values -/

/-- Where an item stands in a list: the white space in front of the comma that separates it from
the item before, and the white space behind the comma. -/
structure Place where
  before : Gap
  behind : Gap

/-- The key of a member, with the place where it stands and the white space around its colon. -/
structure Label extends Place where
  key : Quoted
  beforeColon : Gap
  behindColon : Gap

/-- A label without white space, with a key of characters that stand for themselves. -/
def Label.plain (cs : List Char) (h : cs.all Quoted.isPlain = true) : Label where
  before := .none
  behind := .none
  key := .plain cs h
  beforeColon := .none
  behindColon := .none

/-- A value, as it is written.  At the end of a list or an object there may be white space. -/
inductive Tree where
  | null
  | bool (b : Bool)
  | number (n : Numeral)
  | string (q : Quoted)
  | list (items : List (Place × Tree)) (last : Gap)
  | object (members : List (Label × Tree)) (last : Gap)

namespace Tree

/-- What holds of a list or an object if it holds of what stands inside holds of all values. -/
@[induction_eliminator, elab_as_elim]
theorem induct {P : Tree → Prop} (null : P .null) (bool : ∀ b, P (.bool b))
    (number : ∀ n, P (.number n)) (string : ∀ q, P (.string q))
    (list : ∀ ts last, (∀ t ∈ ts, P t.2) → P (.list ts last))
    (object : ∀ ms last, (∀ m ∈ ms, P m.2) → P (.object ms last)) (t : Tree) : P t :=
  @Tree.rec P (fun ts => ∀ t ∈ ts, P t.2) (fun ms => ∀ m ∈ ms, P m.2) (fun t => P t.2)
    (fun m => P m.2) null bool number string (fun ts last h => list ts last h)
    (fun ms last h => object ms last h)
    (fun _ h => absurd h List.not_mem_nil)
    (fun _ _ ht hts _ h => (List.mem_cons.1 h).elim (fun heq => heq ▸ ht) (hts _))
    (fun _ h => absurd h List.not_mem_nil)
    (fun _ _ hm hms _ h => (List.mem_cons.1 h).elim (fun heq => heq ▸ hm) (hms _))
    (fun _ _ h => h) (fun _ _ h => h) t

/-- The comma in front of an item or a member that is not the first. -/
def comma (first : Bool) : List Char := if first then [] else [',']

/-- What stands in front of an item or a member. -/
def lead (first : Bool) (p : Place) : List Char := p.before.chars ++ (comma first ++ p.behind.chars)

mutual

/-- The characters of a value. -/
def chars : Tree → List Char
  | .null => ['n', 'u', 'l', 'l']
  | .bool true => ['t', 'r', 'u', 'e']
  | .bool false => ['f', 'a', 'l', 's', 'e']
  | .number n => n.chars
  | .string q => q.chars
  | .list ts last => '[' :: itemChars true ts last
  | .object ms last => '{' :: memberChars true ms last

/-- The items of a list, and the bracket behind them. -/
def itemChars (first : Bool) : List (Place × Tree) → Gap → List Char
  | [], last => last.chars ++ [']']
  | (p, t) :: ts, last => lead first p ++ (t.chars ++ itemChars false ts last)

/-- The members of an object, and the brace behind them. -/
def memberChars (first : Bool) : List (Label × Tree) → Gap → List Char
  | [], last => last.chars ++ ['}']
  | (l, t) :: ms, last =>
    lead first l.toPlace ++ (l.key.chars ++ (l.beforeColon.chars ++
      ':' :: (l.behindColon.chars ++ (t.chars ++ memberChars false ms last))))

end

theorem itemChars_nil (first : Bool) (last : Gap) (s : List Char) :
    itemChars first [] last ++ s = last.chars ++ ']' :: s := by
  rw [itemChars, List.append_assoc, List.singleton_append]

theorem itemChars_cons (first : Bool) (p : Place) (t : Tree) (ts : List (Place × Tree))
    (last : Gap) (s : List Char) :
    itemChars first ((p, t) :: ts) last ++ s =
      lead first p ++ (t.chars ++ (itemChars false ts last ++ s)) := by
  rw [itemChars, List.append_assoc, List.append_assoc]

theorem memberChars_nil (first : Bool) (last : Gap) (s : List Char) :
    memberChars first [] last ++ s = last.chars ++ '}' :: s := by
  rw [memberChars, List.append_assoc, List.singleton_append]

theorem memberChars_cons (first : Bool) (l : Label) (t : Tree) (ms : List (Label × Tree))
    (last : Gap) (s : List Char) :
    memberChars first ((l, t) :: ms) last ++ s =
      lead first l.toPlace ++ '\"' :: (l.key.inner ++ '\"' :: (l.beforeColon.chars ++
        ':' :: (l.behindColon.chars ++ (t.chars ++ (memberChars false ms last ++ s))))) := by
  simp [memberChars, Quoted.chars]

/-- The keys and the values of members, without the white space around them. -/
def cores (ms : List (Label × Tree)) : List (Quoted × Tree) := ms.map fun m => (m.1.key, m.2)

end Tree
end Json
end GlyphLine

import GlyphLine.Json.Lexeme

/-!
# Lists and objects of a JSON text

What stands between the parts of a list or an object, and the two loops that go through
one.  The loops take a reader for what they go through.  Every round consumes at least
one character, so the number of characters of the text is a bound for the rounds.

* `items`: a list, read with a reader for its items.
* `members`: an object, folded with a reader that goes on from each key.
* `skipValue`: a value of any kind, skipped.  Lists and objects may be nested to any
  depth in it.
-/

namespace GlyphLine
namespace Json

open Lexeme

/-- What comes next in a list: an item, from which on the characters are given, or the
end of the list, behind which they are given. -/
def nextItem (first : Bool) (s : List Char) : Read Bool :=
  match skipSpace s with
  | [] => .error .endOfList
  | ']' :: rest => .ok (false, rest)
  | c :: rest =>
    if first then .ok (true, c :: rest)
    else if c = ',' then
      match skipSpace rest with
      | [] => .error .endOfValue
      | ']' :: _ => .error .trailingComma
      | rest => .ok (true, rest)
    else .error .noListEnd

/-- The end of a list that may hold no further item. -/
def endOfItems (s : List Char) : Except Fault (List Char) :=
  match skipSpace s with
  | [] => .error .endOfList
  | ']' :: rest => .ok rest
  | ',' :: rest =>
    match skipSpace rest with
    | ']' :: _ => .error .trailingComma
    | _ => .error .trailingText
  | _ => .error .trailingText

/-- The items of a list, from behind its bracket on; those already read are given in
reverse order. -/
def items {α : Type} (read : List Char → Read α) :
    (rounds : Nat) → (first : Bool) → (done : List α) → List Char → Read (List α)
  | 0, _, _, _ => .error .endOfList
  | rounds + 1, first, done, s =>
    match nextItem first s with
    | .error f => .error f
    | .ok (false, rest) => .ok (done.reverse, rest)
    | .ok (true, rest) =>
      match read rest with
      | .error f => .error f
      | .ok (a, rest) => items read rounds false (a :: done) rest

/-- What comes next in an object: a key, given from behind its opening quote on, or the
end of the object. -/
def nextKey (first : Bool) (s : List Char) : Read Bool :=
  match skipSpace s with
  | [] => .error .endOfObject
  | '}' :: rest => .ok (false, rest)
  | c :: rest =>
    if first then
      if c = '\"' then .ok (true, rest) else .error .keyNotString
    else if c = ',' then
      match skipSpace rest with
      | [] => .error .endOfValue
      | '\"' :: rest => .ok (true, rest)
      | '}' :: _ => .error .trailingComma
      | _ => .error .keyNotString
    else .error .noObjectEnd

/-- The colon behind a key. -/
def colon (s : List Char) : Except Fault (List Char) :=
  match skipSpace s with
  | [] => .error .endOfObject
  | ':' :: rest => .ok rest
  | _ => .error .noColon

/-- The members of an object, from behind its brace on.  From each key on, `step` reads
the value and goes on to the next state. -/
def members {σ : Type} (size : Nat) (step : σ → String → List Char → Read σ) :
    (rounds : Nat) → (first : Bool) → (state : σ) → List Char → Read σ
  | 0, _, _, _ => .error .endOfObject
  | rounds + 1, first, state, s =>
    match nextKey first s with
    | .error f => .error f
    | .ok (false, rest) => .ok (state, rest)
    | .ok (true, rest) =>
      match Lexeme.string size rest with
      | .error f => .error f
      | .ok (key, rest) =>
        match step state key rest with
        | .error f => .error f
        | .ok (state, rest) => members size step rounds false state rest

/-! ## Skipping -/

/-- A list or an object that has been entered. -/
inductive Frame where
  | list
  | object
  deriving DecidableEq, Repr

/-- Where the skipping of a value stands. -/
inductive Skipping where
  | value
  | entered
  | between
  deriving DecidableEq, Repr

/-- The key and the colon in front of the next value, if the value is in an object. -/
def skipKey (size : Nat) (frame : Frame) (s : List Char) : Except Fault (List Char) :=
  match frame with
  | .list => .ok s
  | .object =>
    match skipSpace s with
    | [] => .error .endOfObject
    | '\"' :: rest =>
      match skipString size rest with
      | .ok rest => colon rest
      | .error f => .error f
    | _ => .error .keyNotString

/-- A word, a number or a string, skipped. -/
def skipPlain (size : Nat) : List Char → Except Fault (List Char)
  | [] => .error .endOfValue
  | 'n' :: s => word ['u', 'l', 'l'] s
  | 't' :: s => word ['r', 'u', 'e'] s
  | 'f' :: s => word ['a', 'l', 's', 'e'] s
  | '\"' :: s => skipString size s
  | c :: s => if c = '-' || c.isDigit then skipNumber (c :: s) else .error .noValue

/-- What ends a list or an object too early. -/
def Frame.atEnd : Frame → Fault
  | .list => .endOfList
  | .object => .endOfObject

/-- What is missing behind a value in a list or an object. -/
def Frame.unended : Frame → Fault
  | .list => .noListEnd
  | .object => .noObjectEnd

/-- The bracket that ends a list or an object. -/
def Frame.bracket : Frame → Char
  | .list => ']'
  | .object => '}'

/-- The rest of a value inside the lists and objects of `frames`, innermost first. -/
def skipSteps (size : Nat) :
    (rounds : Nat) → Skipping → (frames : List Frame) → List Char → Except Fault (List Char)
  | 0, _, _, _ => .error .endOfValue
  | rounds + 1, .value, frames, s =>
    match skipSpace s with
    | '[' :: rest => skipSteps size rounds .entered (.list :: frames) rest
    | '{' :: rest => skipSteps size rounds .entered (.object :: frames) rest
    | s =>
      match skipPlain size s with
      | .ok rest => skipSteps size rounds .between frames rest
      | .error f => .error f
  | _ + 1, .entered, [], s | _ + 1, .between, [], s => .ok s
  | rounds + 1, .entered, frame :: frames, s =>
    match skipSpace s with
    | [] => .error frame.atEnd
    | c :: rest =>
      if c = frame.bracket then skipSteps size rounds .between frames rest
      else
        match skipKey size frame (c :: rest) with
        | .ok rest => skipSteps size rounds .value (frame :: frames) rest
        | .error f => .error f
  | rounds + 1, .between, frame :: frames, s =>
    match skipSpace s with
    | [] => .error frame.atEnd
    | c :: rest =>
      if c = ',' then
        match skipKey size frame rest with
        | .ok rest => skipSteps size rounds .value (frame :: frames) rest
        | .error f => .error f
      else if c = frame.bracket then skipSteps size rounds .between frames rest
      else .error frame.unended

/-- A value of any kind, skipped.  Each character begins at most two rounds. -/
def skipValue (size : Nat) (s : List Char) : Except Fault (List Char) :=
  skipSteps size (2 * size + 2) .value [] s

end Json
end GlyphLine

/-!
# Parts of a text

* `pieces`: a text cut at certain characters.
* `after?`, `startsWith`: what follows a given beginning.
* `join`: strings with something between them.
-/

namespace GlyphLine
namespace Text

/-- One more character in front of a list of pieces: a character that `cut` accepts
starts a new piece, any other one belongs to the first. -/
def consPiece (cut : Char → Bool) (c : Char) : List (List Char) → List (List Char)
  | [] => if cut c then [[], []] else [[c]]
  | p :: ps => if cut c then [] :: p :: ps else (c :: p) :: ps

/-- The runs of characters between those that `cut` accepts, the empty runs included:
a text with `n` such characters has `n + 1` pieces. -/
def pieces (cut : Char → Bool) (cs : List Char) : List (List Char) :=
  cs.foldr (consPiece cut) [[]]

@[simp] theorem pieces_nil (cut : Char → Bool) : pieces cut [] = [[]] := rfl

theorem pieces_cons (cut : Char → Bool) (c : Char) (cs : List Char) :
    pieces cut (c :: cs) = consPiece cut c (pieces cut cs) := rfl

/-- What follows the text `start` in `s`, if `s` begins with it. -/
def after? (start s : String) : Option String :=
  (List.isPrefixOf? start.toList s.toList).map String.ofList

/-- Whether `s` begins with `start`. -/
def startsWith (start s : String) : Bool := start.toList.isPrefixOf s.toList

/-- Latin capital letters made small; every other character stays. -/
def lower (s : String) : String := String.ofList (s.toList.map Char.toLower)

/-- The strings of a list with `gap` between them. -/
def join (gap : String) : List String → String
  | [] => ""
  | [s] => s
  | s :: t :: rest => s ++ gap ++ join gap (t :: rest)

/-- The strings of a list one after the other. -/
def concat (parts : List String) : String := parts.foldl (· ++ ·) ""

/-- The lines of a text: each string, followed by a line feed. -/
def lines (ss : List String) : String := concat (ss.map (· ++ "\n"))

end Text
end GlyphLine

import GlyphLine.Text.Basic
import GlyphLine.Text.Blank

/-!
# Tokens of a text

A text is cut into words at separators, and the words that begin with a tilde are its
*tokens*.  A token is taken literally: no letter is folded and no punctuation removed.
It is well formed if the tilde is followed by at least one character, and only by
letters, digits and a few signs.

* `Token.extract`: the tokens of a text, in order and with repetitions.
* `Token.isWellFormed`: the grammar of tokens.
-/

namespace GlyphLine
namespace Token

/-- The mark with which a token begins. -/
def mark : Char := '~'

/-- The characters that a well-formed token has behind its mark. -/
def isTokenChar (c : Char) : Bool :=
  c.isAlphanum || [':', '+', '-', '?', '!', '_', '/', '.', '|'].contains c

/-- Whether a token is well formed, by its characters. -/
def isWellFormedChars : List Char → Bool
  | c :: d :: body => c == mark && (d :: body).all isTokenChar
  | _ => false

/-- Whether a token is well formed: the mark and one or more token characters. -/
def isWellFormed (token : String) : Bool := isWellFormedChars token.toList

/-- Whether a word begins with the mark. -/
def isToken (word : List Char) : Bool := word.head? == some mark

/-- The tokens of a text given as characters. -/
def extractChars (cs : List Char) : List (List Char) :=
  (Text.pieces Text.isSeparator cs).filter isToken

/-- The tokens of a text, in order and with repetitions. -/
def extract (text : String) : List String := (extractChars text.toList).map String.ofList

end Token
end GlyphLine

import GlyphLine.ByName
import GlyphLine.Level.Pressure
import GlyphLine.Level.ReadyTier
import GlyphLine.Token.Basic

/-!
# The tokens of a text as a set

Most rules ask only which tokens a text has; a few ask for the first value of a kind.
A token set shows its tokens twice, in order and as a set, and each query looks at the
view that answers it.

* `TokenSet.ordered`, `TokenSet.unique`: the two views.
* `firstValue`, `valuesWith`: what follows a given beginning, in the first token that
  has it, and in all of them.
* `pressure`, `readyTier`, `rgcaAllPlus`: what the tokens declare together.
-/

namespace GlyphLine

/-- The distinct strings of a list, in increasing order: the names of a table into which
each string has been written. -/
def distinct (ss : List String) : List String := (ByName.ofList (ss.map fun s => (s, ()))).names

/-- The tokens of a text, in their order and with repetitions. -/
structure TokenSet where
  ordered : List String
  deriving DecidableEq, Repr

namespace TokenSet

/-- The tokens of a text. -/
def ofText (text : String) : TokenSet := ⟨Token.extract text⟩

/-- The tokens as a set, in increasing order. -/
def unique (t : TokenSet) : List String := distinct t.ordered

/-- Whether there is no token. -/
def isEmpty (t : TokenSet) : Bool := t.ordered.isEmpty

/-- Whether a token is there. -/
def contains (t : TokenSet) (token : String) : Bool := t.unique.contains token

/-- The tokens that are not well formed, in order and with repetitions. -/
def malformed (t : TokenSet) : List String := t.ordered.filter fun u => !Token.isWellFormed u

/-- What follows `start` in the first token that begins with it. -/
def firstValue (t : TokenSet) (start : String) : Option String :=
  t.ordered.findSome? (Text.after? start)

/-- Whether a token begins with `start`. -/
def hasStart (t : TokenSet) (start : String) : Bool := t.unique.any (Text.startsWith start)

/-- Whether a token is there bare, or with a value behind a colon. -/
def hasBase (t : TokenSet) (base : String) : Bool :=
  t.contains base ||
    t.unique.any fun token => (Text.after? base token).any (Text.startsWith ":")

/-- What follows `start` in the tokens that begin with it: distinct, and in increasing
order. -/
def valuesWith (t : TokenSet) (start : String) : List String :=
  distinct (t.unique.filterMap (Text.after? start))

/-- The pressure in effect: the highest one that is declared. -/
def pressure (t : TokenSet) : Option Pressure :=
  Pressure.descending.find? fun p => t.contains p.token

/-- The tier in effect: the first one by priority that is claimed. -/
def readyTier (t : TokenSet) : Option ReadyTier :=
  ReadyTier.byPriority.find? fun r => t.contains r.token

/-- The four tokens that together say what `~RGCA+` says. -/
def rgcaTokens : List String := ["~R+", "~G+", "~C+", "~A+"]

/-- Whether all of the four are plus. -/
def rgcaAllPlus (t : TokenSet) : Bool :=
  t.contains "~RGCA+" || rgcaTokens.all t.contains

end TokenSet
end GlyphLine

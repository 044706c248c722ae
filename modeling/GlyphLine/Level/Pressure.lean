/-!
# Pressure

The pressure under which a text is written has four levels, from `P0` to `P3`, and the
highest one, `P3`, is a freeze.  A text declares a pressure by the token of its level;
of several declared levels the highest is in effect.
-/

namespace GlyphLine

/-- The four levels of pressure. -/
inductive Pressure where
  | p0
  | p1
  | p2
  | p3
  deriving DecidableEq, Repr, Inhabited

namespace Pressure

/-- How many levels are below this one. -/
def rank : Pressure → Nat
  | .p0 => 0
  | .p1 => 1
  | .p2 => 2
  | .p3 => 3

instance : LT Pressure := ⟨fun p q => p.rank < q.rank⟩
instance : LE Pressure := ⟨fun p q => p.rank ≤ q.rank⟩
instance (p q : Pressure) : Decidable (p < q) := inferInstanceAs (Decidable (p.rank < q.rank))
instance (p q : Pressure) : Decidable (p ≤ q) := inferInstanceAs (Decidable (p.rank ≤ q.rank))

/-- The name of a level in a policy. -/
def name : Pressure → String
  | .p0 => "P0"
  | .p1 => "P1"
  | .p2 => "P2"
  | .p3 => "P3"

/-- The token that declares a level. -/
def token : Pressure → String
  | .p0 => "~P0"
  | .p1 => "~P1"
  | .p2 => "~P2"
  | .p3 => "~P3"

/-- All levels, the highest first. -/
def descending : List Pressure := [.p3, .p2, .p1, .p0]

/-- The level with a given name. -/
def ofName? (s : String) : Option Pressure := descending.find? fun p => p.name == s

end Pressure
end GlyphLine

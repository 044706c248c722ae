import GlyphLine.ByName
import GlyphLine.Level.Pressure
import GlyphLine.Level.ReadyTier

/-!
# Policies

A policy has an identity, by which texts name it, a table of load classes, and the
requirements for an official claim.

* `LoadClass`: what a text under a load has to declare.
* `Official`: what a text with an official claim has to declare; nothing by default.
* `Policy`: the three together.
-/

namespace GlyphLine

/-- A load class: the least pressure, the probes that must be there, and the signals
that forbid a pass.  Probes and signals keep the order of the policy. -/
structure LoadClass where
  minPressure : Pressure := .p0
  probes : List String := []
  vetoSignals : List String := []
  deriving DecidableEq, Repr, Inhabited

/-- The requirements for an official claim.  `runMustBe` binds texts that declare a run;
`iceMustBe` binds only if it is a plus sign. -/
structure Official where
  pass : Bool := false
  env : Bool := false
  run : Bool := false
  runMustBe : Option String := none
  iceMustBe : Option String := none
  rgcaAllPlus : Bool := false
  zdPlus : Bool := false
  zdmPlus : Bool := false
  thaletPlus : Bool := false
  readyTier : Option ReadyTier := none
  bridgespecPlus : Bool := false
  tbPlus : Bool := false
  deriving DecidableEq, Repr, Inhabited

/-- Whether nothing is required. -/
def Official.isEmpty (o : Official) : Bool := o == {}

/-- A policy. -/
structure Policy where
  id : String := ""
  loads : ByName LoadClass := .empty
  official : Official := {}
  deriving DecidableEq, Repr, Inhabited

namespace Policy

/-- The load class of a given name. -/
def load? (p : Policy) (name : String) : Option LoadClass := p.loads.find? name

/-- The load classes under which a text must name its policy. -/
def sensitiveLoads : List String := ["prod", "public", "pay"]

end Policy
end GlyphLine

/-!
# Readiness tiers

A text may claim to be ready, at one of three tiers.  When it claims several, the
first of `core`, `ui` and `demo` that it claims is the one in effect.
-/

namespace GlyphLine

/-- The three tiers of readiness. -/
inductive ReadyTier where
  | core
  | ui
  | demo
  deriving DecidableEq, Repr

namespace ReadyTier

/-- The name of a tier in a policy. -/
def name : ReadyTier → String
  | .core => "core"
  | .ui => "ui"
  | .demo => "demo"

/-- The token that claims a tier. -/
def token : ReadyTier → String
  | .core => "~READY:core"
  | .ui => "~READY:ui"
  | .demo => "~READY:demo"

/-- All tiers, in the order in which they take effect. -/
def byPriority : List ReadyTier := [.core, .ui, .demo]

/-- The tier with a given name. -/
def ofName? (s : String) : Option ReadyTier := byPriority.find? fun t => t.name == s

end ReadyTier
end GlyphLine

/-!
# Tokens of a YAML text

The parts of a text between which its structure is expressed: directives and marks of
documents, brackets, the starts and ends that indentation stands for, keys and values,
properties, and scalars.
-/

namespace GlyphLine
namespace Yaml

/-- A token.  A tag is given by its handle and its suffix. -/
inductive Token where
  | version (major minor : Nat)
  | handle (name tag : String)
  | documentStart
  | documentEnd
  | blockSequence
  | blockMapping
  | blockEnd
  | listStart
  | listEnd
  | mapStart
  | mapEnd
  | entry
  | comma
  | key
  | value
  | alias (name : String)
  | anchor (name : String)
  | tag (handle suffix : String)
  | scalar (isPlain : Bool) (text : String)
  deriving DecidableEq, Repr

end Yaml
end GlyphLine

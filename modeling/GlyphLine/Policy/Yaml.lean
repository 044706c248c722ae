import GlyphLine.Policy.Document
import GlyphLine.Width
import GlyphLine.Yaml.Reader

/-!
# Policies as YAML

The YAML format of policy documents, and the reader of a document from its text.
-/

namespace GlyphLine
namespace Policy

/-- The scalar of a plain YAML scalar, if there is one.  Whole numbers have at most
sixty-four bits. -/
def scalarOfPlain? : Yaml.Plain → Option Scalar
  | .null => none
  | .bool b => some (.bool b)
  | .whole n => if Width.fits 64 n then some (.ofWhole n) else none
  | .double d => some (.double d)
  | .text s => some (.text s)

instance yamlFormat : Format Yaml.Reader where
  map := Yaml.Reader.map
  scalar := .scalar scalarOfPlain?
  switch := .scalar scalarOfPlain?
  optional := .optional
  list := .list
  table := .table
  record := fun _ => .record

/-- The document of a YAML text. -/
def Document.ofYaml (text : String) : Except Yaml.Fault Document :=
  (Yaml.Reader.run Document.reader text).map Document.orEmpty

end Policy
end GlyphLine

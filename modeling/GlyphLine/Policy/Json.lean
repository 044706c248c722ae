import GlyphLine.Json.Reader
import GlyphLine.Policy.Document

/-!
# Policies as JSON

The JSON format of policy documents, and the reader of a document from its text.
-/

namespace GlyphLine
namespace Policy

instance jsonFormat : Format Json.Reader where
  map := Json.Reader.map
  scalar := .choice "ScalarValue" Scalar.ofJson?
  switch := .choice "FlagValue" Scalar.ofJson?
  optional := .optional
  list := .list
  table := .table
  record := .record

/-- The document of a JSON text. -/
def Document.ofJson (text : String) : Except Json.Fault Document :=
  (Json.Reader.run Document.reader text).map Document.orEmpty

end Policy
end GlyphLine

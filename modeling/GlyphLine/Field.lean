/-!
# Fields of a record

Documents of several formats are read by shape.  A format is a family of readers; a
field of a record says under which name it stands and which reader its value has, and
the result of the reader puts the value into the record.
-/

namespace GlyphLine

/-- A field of records of type `σ`, for the readers `R` of a format. -/
structure Field (R : Type → Type) (σ : Type) where
  name : String
  read : R (σ → σ)

end GlyphLine

import GlyphLine.Text.Basic
import GlyphLine.Text.Blank

/-!
# Adoption

Texts without any token pass, unless adoption is required.  It is required by an option
or by the environment.
-/

namespace GlyphLine
namespace Policy

/-- The name of the environment variable that can require adoption. -/
def adoptionVariable : String := "GLYPHLINT_REQUIRE"

/-- Whether the value of the variable requires adoption: one of three texts, in letters
of either size and with white space around it. -/
def variableRequires (value : Option String) : Bool :=
  value.any fun v => ["1", "true", "yes"].contains (Text.lower (Text.trim v))

/-- Whether adoption is required, by the option or by the variable. -/
def requiresAdoption (option : Bool) (variableValue : Option String) : Bool :=
  option || variableRequires variableValue

end Policy
end GlyphLine

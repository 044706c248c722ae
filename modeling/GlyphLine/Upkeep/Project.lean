import GlyphLine.Host.Act
import GlyphLine.Policy.Form
import GlyphLine.Report.Form
import GlyphLine.Report.Basic
import GlyphLine.Policy.Document

/-!
# The project's directories

The maintenance commands work on the directory of the project, which the environment
names or which is the one that they are called in.

* `projectRoot`, `schemasDirectory`, `fixturesDirectory`: the directories.
* `schemaFiles`: the schemas that are kept in files.
-/

namespace GlyphLine
namespace Upkeep

variable {m : Type → Type} [Monad m] [Host m]

/-- The name of the environment variable that names a directory of the project. -/
def directoryVariable : String := "CARGO_MANIFEST_DIR"

/-- The name of the directory of the maintenance commands, which stands in that of the
project. -/
def ownDirectory : String := "xtask"

/-- The directory of the project. -/
def projectRoot : m String := do
  let directory ← match ← Host.environment directoryVariable with
    | some directory => pure directory
    | none => Host.workingDirectory
  return if Path.endsWith ownDirectory directory then (Path.parent? directory).getD directory
    else directory

/-- The directory of the schemas. -/
def schemasDirectory : m String := do return Path.join (← projectRoot) "schemas"

/-- The directory of the fixtures. -/
def fixturesDirectory : m String := do
  return Path.join (Path.join (← projectRoot) "tests") "fixtures"

/-- The schemas that are kept in files, by the names of the files. -/
def schemaFiles : List (String × Schema) :=
  [(reportSchema ++ ".json", Report.form), (Policy.schema ++ ".json", Policy.form)]

end Upkeep
end GlyphLine

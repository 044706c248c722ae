import GlyphLine.Upkeep.Conformance
import GlyphLine.Upkeep.Coverage
import GlyphLine.Upkeep.Schemas

/-!
# The maintenance commands

* `Task`: the commands.
* `run`: what a command line does, and its exit code.

Only the first word of a command line counts.
-/

namespace GlyphLine
namespace Upkeep

/-- The maintenance commands. -/
inductive Task where
  | help
  | emitSchemas
  | validateSchemas
  | printSchemaIds
  | conform
  | explainCoverage
  deriving DecidableEq, Repr

/-- The command of a word. -/
def Task.ofWord? : String → Option Task
  | "help" | "--help" | "-h" => some .help
  | "emit-schemas" => some .emitSchemas
  | "validate-schemas" => some .validateSchemas
  | "print-schema-ids" => some .printSchemaIds
  | "conform" => some .conform
  | "explain-coverage" => some .explainCoverage
  | _ => none

/-- The page of help. -/
def helpLines : List String := [
  "xtask commands:",
  "  help              Show this message",
  "  emit-schemas      Generate JSON schemas from Rust types to schemas/",
  "  validate-schemas  Check if schemas/ matches generated output (for CI)",
  "  print-schema-ids  Print known schema IDs",
  "  conform           Validate fixture policies and golden reports against the schemas",
  "  explain-coverage  Validate all check IDs and codes have explanations"]

variable {m : Type → Type} [Monad m] [Host m]

/-- What a command does. -/
def Task.perform : Task → Act m Unit
  | .help => Act.tellLines helpLines
  | .emitSchemas => Upkeep.emitSchemas
  | .validateSchemas => Upkeep.validateSchemas
  | .printSchemaIds => Act.printLines [reportSchema, Policy.schema]
  | .conform => Upkeep.conform
  | .explainCoverage => Upkeep.explainCoverage

/-- The failure for a word that is no command. -/
def unknownCommand (word : String) : Failure :=
  ⟨"unknown xtask command: " ++ word ++ "\n\nRun `cargo xtask help` for usage.", []⟩

/-- What a command line does.  One without words asks for help. -/
def act (ws : List String) : Act m Unit :=
  let word := ws.headD "help"
  match Task.ofWord? word with
  | some t => t.perform.adapt fun f => f.under "xtask failed"
  | none => throw (unknownCommand word)

/-- What a command line does, and its exit code. -/
def run (ws : List String) : m Nat := do
  match ← (act ws).run with
  | .ok () => pure 0
  | .error f =>
    Host.tell f.layout
    pure 1

end Upkeep
end GlyphLine

import GlyphLine.Upkeep.Project

/-!
# Files of schemas

* `emitSchemas`: the schemas written to their files.
* `validateSchemas`: the files compared with the schemas.
-/

namespace GlyphLine
namespace Upkeep

variable {m : Type → Type} [Monad m] [Host m]

/-- A schema written to its file. -/
def emitSchema (directory : String) (s : String × Schema) : Act m Unit := do
  let path := Path.join directory s.1
  Act.during ("Failed to write " ++ path) (Host.write path (Text.encode s.2.file))
  Act.printLines ["Wrote " ++ path]

/-- The schemas written to their files. -/
def emitSchemas : Act m Unit := do
  let directory ← (schemasDirectory : m String)
  Act.during "Failed to create schemas directory" (Act.createDirectories directory)
  schemaFiles.forM (emitSchema directory)

/-- How the file of a schema stands to it. -/
inductive Currency where
  | current
  | outdated
  | missing
  deriving DecidableEq, Repr

/-- How a content stands to a schema.  A file that cannot be read is missing. -/
def Currency.of (s : Schema) : Except SystemError (List UInt8) → Currency
  | .error _ => .missing
  | .ok bytes =>
    match Text.decode? bytes with
    | none => .missing
    | some content => if content = s.file then .current else .outdated

/-- How the file of a schema stands to it. -/
def currency (directory : String) (s : String × Schema) : Act m (String × Currency) := do
  let c := Currency.of s.2 (← (Host.read (Path.join directory s.1) : m _))
  if c = .current then Act.printLines ["✓ " ++ s.1 ++ " is up to date"]
  pure (s.1, c)

/-- The names of the files that stand in a certain way to their schemas, under a heading,
if there are any. -/
def currencyLines (title : String) (c : Currency) (cs : List (String × Currency)) :
    List String :=
  match cs.filter fun f => f.2 = c with
  | [] => []
  | fs => title :: fs.map fun f => "  - " ++ f.1

/-- The files compared with the schemas. -/
def validateSchemas : Act m Unit := do
  let directory ← (schemasDirectory : m String)
  let cs ← schemaFiles.mapM (currency directory)
  if cs.all fun c => c.2 = .current then Act.printLines ["All schemas are up to date."]
  else
    Act.tellLines (currencyLines "Missing schemas:" .missing cs ++
      currencyLines "Schemas out of date:" .outdated cs ++
      ["", "Run `cargo xtask emit-schemas` to regenerate."])
    throw ⟨"Schema validation failed", []⟩

end Upkeep
end GlyphLine

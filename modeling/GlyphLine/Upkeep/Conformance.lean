import GlyphLine.Explain.Layout
import GlyphLine.Json.Reader
import GlyphLine.Report.Masking
import GlyphLine.Schema.Breach
import GlyphLine.Upkeep.Project
import GlyphLine.Yaml.Reader

/-!
# Conformance of fixtures

Among the fixtures there are policies and reports that are known to be right.  Every one
of them is held against its schema, and the findings of the reports have to be of checks
and codes that are registered.  What is masked in reports is masked before.

* `policyErrors`, `reportErrors`: what is wrong with a fixture.
* `foldFiles`: something done for all files below a directory.
* `conform`: all fixtures checked.
-/

namespace GlyphLine
namespace Upkeep

/-! ## Errors of a fixture -/

/-- What stands in an error for the value of a member, if it is a text. -/
def optionalText (v : Option String) : String :=
  match v with
  | some s => "Some(" ++ Text.quoted s ++ ")"
  | none => "None"

/-- The errors of one member of a finding, whose texts are registered. -/
def memberErrors (name place member : String) (registered : List String) (finding : Json) :
    List String :=
  let value := (finding.member? member).bind Json.string?
  if value.any registered.contains then []
  else [name ++ ": " ++ place ++ "." ++ member ++ " " ++ optionalText value ++
    " is not registered"]

/-- The errors in the identifiers of findings. -/
def findingErrors (name : String) : (number : Nat) → List Json → List String
  | _, [] => []
  | n, f :: fs =>
    let place := "findings[" ++ toString n ++ "]"
    memberErrors name place "check_id" Explain.checkIds f ++
      memberErrors name place "code" Explain.codeNames f ++ findingErrors name (n + 1) fs

/-- The errors of a value with respect to a schema. -/
def schemaErrors (name : String) (s : Schema) (v : Json) : List String :=
  (s.breaches v).map fun b => name ++ ": schema validation: " ++ b.message

/-- The errors of a policy. -/
def policyErrors (name : String) (v : Json) : List String := schemaErrors name Policy.form v

/-- The errors of a report. -/
def reportErrors (name : String) (v : Json) : List String :=
  let v := Report.mask v
  schemaErrors name Report.form v ++
    findingErrors name 0 (((v.member? "findings").bind Json.items?).getD [])

/-! ## Fixtures -/

/-- What fixtures can be. -/
inductive Fixture where
  | yamlPolicy
  | jsonPolicy
  | report
  deriving DecidableEq, Repr

/-- The fixture in a file with a certain name. -/
def Fixture.ofName? : String → Option Fixture
  | "icemap.yaml" | "icemap.yml" => some .yamlPolicy
  | "icemap.json" => some .jsonPolicy
  | "expected.report.json" => some .report
  | _ => none

/-- What has been counted and found so far. -/
structure Tally where
  policies : Nat := 0
  reports : Nat := 0
  errors : List String := []

variable {m : Type → Type} [Monad m] [Host m]

/-- The message about a file that is not in its notation. -/
def notParsed (path form : String) : String := "Failed to parse " ++ path ++ " as " ++ form

/-- The value of a JSON text. -/
def jsonValue (path text : String) : Act m Json :=
  Act.ofExcept (fun f => ⟨notParsed path "JSON", [f.message]⟩) (Json.parse text)

/-- The value of a YAML text, if there is one. -/
def yamlValue (path text : String) : Act m (Option Json) :=
  Act.ofExcept (fun f => ⟨notParsed path "YAML", [f.message]⟩)
    (Yaml.Reader.run (Yaml.Reader.optional Yaml.Reader.any) text)

/-- A policy that is null is an empty one. -/
def orEmpty (v : Json) : Json := if v.isNull then .object [] else v

/-- A fixture checked, which has the given name below the directory of the fixtures. -/
def checkFixture (path name : String) (t : Tally) : Fixture → Act m Tally
  | .yamlPolicy => do
    let v ← yamlValue path (← Act.readText ("Failed to read " ++ path) path)
    pure { t with policies := t.policies + 1
                  errors := t.errors ++ policyErrors name (orEmpty (v.getD .null)) }
  | .jsonPolicy => do
    let v ← jsonValue path (← Act.readText ("Failed to read " ++ path) path)
    pure { t with policies := t.policies + 1, errors := t.errors ++ policyErrors name (orEmpty v) }
  | .report => do
    let v ← jsonValue name (← Act.readText ("Failed to read " ++ name) path)
    pure { t with reports := t.reports + 1, errors := t.errors ++ reportErrors name v }

/-- A file of the fixtures checked, if it is one of them. -/
def checkFile (root : String) (t : Tally) (path : String) : Act m Tally := do
  match (Path.split? path).bind fun p => Fixture.ofName? p.2 with
  | none => pure t
  | some f =>
    let name := Path.relativeTo root path
    let t ← checkFixture path name t f
    Act.printLines ["  ✓ " ++ name ++ " checked"]
    pure t

/-! ## Files below a directory -/

/-- The entries of a directory in the order of their names. -/
def sorted (es : List (String × FileKind)) : List (String × FileKind) :=
  es.mergeSort fun e f => e.1 ≤ f.1

/-- A step taken for all files below a directory, in the order of their names; what is in
a directory comes in the place of the directory.  Directories stand in each other at most
`depth` deep. -/
def foldFiles {σ : Type} (failed : String) (step : σ → String → Act m σ) :
    (depth : Nat) → (directory : String) → σ → Act m σ
  | 0, _, s => pure s
  | depth + 1, directory, s => do
    let es ← Act.during failed (Host.list directory)
    (sorted es).foldlM (fun s e =>
      let path := Path.join directory e.1
      match e.2 with
      | .file => step s path
      | .directory => foldFiles failed step depth path s
      | .other => pure s) s

/-- How deep directories can stand in each other: no path has more names. -/
def maxDepth : Nat := 2048

/-- All fixtures checked. -/
def checkFixtures (root : String) (kind : FileKind) : Act m Tally :=
  match kind with
  | .directory => foldFiles "Failed to walk tests/fixtures/" (checkFile root) maxDepth root {}
  | _ => pure {}

/-- All fixtures checked, and what is wrong with them told. -/
def conform : Act m Unit := do
  Act.printLines
    ["✓ " ++ reportSchema ++ " and " ++ Policy.schema ++ " schemas compile"]
  let root ← (fixturesDirectory : m String)
  match ← (Host.kind? root : m _) with
  | none => throw ⟨"tests/fixtures/ not found at " ++ root, []⟩
  | some kind =>
    let t ← checkFixtures root kind
    if t.policies = 0 then throw ⟨"No ICEMAP policies found in " ++ root, []⟩
    if t.errors.isEmpty then
      Act.printLines ["", "✓ " ++ toString t.policies ++ " policies and " ++ toString t.reports ++
        " golden reports pass conformance checks!"]
    else
      Act.tellLines (["", "Conformance errors:"] ++ t.errors.map ("  - " ++ ·))
      throw ⟨"Conformance validation failed with " ++ toString t.errors.length ++ " errors", []⟩

end Upkeep
end GlyphLine

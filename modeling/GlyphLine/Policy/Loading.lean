import GlyphLine.Policy.Json
import GlyphLine.Policy.Resolution
import GlyphLine.Policy.Yaml

/-!
# Policies from files

The ending of a file's name says in which of two notations its policy is written.

* `Notation.ofPath`: the notation of a file.
* `parse`, `load`: the document and the policy of a text.
-/

namespace GlyphLine
namespace Policy

/-- The notations of policies. -/
inductive Notation where
  | yaml
  | json
  deriving DecidableEq, Repr

/-- What stands behind the last point of a path, if it is no part of a folder's name. -/
def ending? (path : String) : Option String :=
  match Text.pieces (· == '.') path.toList with
  | [] | [_] => none
  | ps => (ps.getLast?.filter fun e => !(e.contains '/' || e.contains '\\')).map fun e =>
    String.ofList e

/-- The notation of a file: YAML if its name ends so, in letters of either size, and
JSON otherwise. -/
def Notation.ofPath (path : String) : Notation :=
  match (ending? path).map Text.lower with
  | some "yaml" | some "yml" => .yaml
  | _ => .json

/-- The document of a text. -/
def parse (text : String) : Notation → Except Fault Document
  | .yaml => (Document.ofYaml text).mapError .yaml
  | .json => (Document.ofJson text).mapError .json

/-- The policy of a text. -/
def load (text : String) (n : Notation) : Except Fault Policy :=
  match parse text n with
  | .error e => .error e
  | .ok d => d.resolve

end Policy
end GlyphLine

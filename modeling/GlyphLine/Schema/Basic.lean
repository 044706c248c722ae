import GlyphLine.Json.Printer
import GlyphLine.Text.Basic

/-!
# Schemas

A schema says which JSON values have a form.  It is a list of rules; a value has the
form if it obeys all of them.  A rule about values of one kind is obeyed by values of
every other kind, so that a schema says first which kinds it accepts.

* `Rule`: the rules.
* `Schema`: the rules for a whole file, and the named ones that they refer to.
* `Schema.toJson`: a schema as the JSON value by which it is known to other tools.
-/

namespace GlyphLine

/-- What a value can be.  A whole number is a number as well. -/
inductive Kind where
  | string
  | boolean
  | integer
  | number
  | array
  | object
  | null
  deriving DecidableEq, Repr

/-- The name of a kind. -/
def Kind.name : Kind → String
  | .string => "string"
  | .boolean => "boolean"
  | .integer => "integer"
  | .number => "number"
  | .array => "array"
  | .object => "object"
  | .null => "null"

/-- What a value can be asked to be. -/
inductive Rule where
  /-- A remark for readers, in lines. -/
  | remark (lines : List String)
  /-- The rules of a name. -/
  | named (name : String)
  /-- One of several lists of rules. -/
  | anyOf (choices : List (List Rule))
  /-- One of several kinds. -/
  | kinds (kinds : List Kind)
  /-- A remark on the width of a number. -/
  | width (name : String)
  /-- A least number. -/
  | minimum (least : Int)
  /-- The rules of some members of an object, and those of all others. -/
  | members (known : List (String × List Rule)) (others : Option (List Rule))
  /-- The rules of the items of an array. -/
  | items (rules : List Rule)
  /-- Members that an object must have. -/
  | required (names : List String)
  /-- One of several strings. -/
  | oneOf (names : List String)
  deriving Repr

/-- The rules for a file, under a title. -/
structure Schema where
  title : String
  rules : List Rule
  definitions : List (String × List Rule)
  deriving Repr

/-! ## Schemas as values -/

/-- The kinds of a rule: a name, or a list of several. -/
def kindsJson : List Kind → Json
  | [k] => .string k.name
  | ks => Json.strings (ks.map Kind.name)

mutual

/-- A rule as members of an object. -/
def Rule.toMembers : Rule → List (String × Json)
  | .remark lines => [("description", .string (Text.join "\n" lines))]
  | .named name => [("$ref", .string ("#/$defs/" ++ name))]
  | .anyOf choices => [("anyOf", .array (choicesJson choices))]
  | .kinds kinds => [("type", kindsJson kinds)]
  | .width name => [("format", .string name)]
  | .minimum least => [("minimum", .number (.whole least))]
  | .members known others => knownMembers known ++ otherMembers others
  | .items rules => [("items", .object (rulesMembers rules))]
  | .required names => [("required", Json.strings names)]
  | .oneOf names => [("enum", Json.strings names)]

/-- Rules as members of an object. -/
def rulesMembers : List Rule → List (String × Json)
  | [] => []
  | r :: rs => r.toMembers ++ rulesMembers rs

/-- Choices as values. -/
def choicesJson : List (List Rule) → List Json
  | [] => []
  | rs :: rest => .object (rulesMembers rs) :: choicesJson rest

/-- Named rules as members. -/
def namedMembers : List (String × List Rule) → List (String × Json)
  | [] => []
  | (name, rs) :: rest => (name, .object (rulesMembers rs)) :: namedMembers rest

/-- The member for the known members, if there are any. -/
def knownMembers : List (String × List Rule) → List (String × Json)
  | [] => []
  | (name, rs) :: rest =>
    [("properties", .object ((name, .object (rulesMembers rs)) :: namedMembers rest))]

/-- The member for all other members, if there is a rule for them. -/
def otherMembers : Option (List Rule) → List (String × Json)
  | none => []
  | some rs => [("additionalProperties", .object (rulesMembers rs))]

end

/-- The name of the notation that schemas are written in. -/
def Schema.notationName : String := "https://json-schema.org/draft/2020-12/schema"

/-- A schema as a value. -/
def Schema.toJson (s : Schema) : Json :=
  .object ([("$schema", .string notationName), ("title", .string s.title)] ++
    rulesMembers s.rules ++ [("$defs", .object (namedMembers s.definitions))])

/-- A schema as the content of a file. -/
def Schema.file (s : Schema) : String := s.toJson.file

end GlyphLine

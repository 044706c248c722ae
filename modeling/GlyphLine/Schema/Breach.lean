import GlyphLine.Schema.Basic
import GlyphLine.Text.Quoted
import GlyphLine.Text.Basic

/-!
# Breaches of a schema

A value is held against a schema rule by rule.  Every rule is looked at on its own, and
every breach is told with the place at which it was found.

* `Rule.breaches`: the breaches of a rule.
* `Schema.breaches`: the breaches of a schema.
-/

namespace GlyphLine

/-- A rule that is not obeyed, and where: the names and numbers that lead there, from
the root on. -/
structure Breach where
  place : List String
  text : String
  deriving DecidableEq, Repr

/-- A breach at the root. -/
def Breach.here (text : String) : Breach := ⟨[], text⟩

/-- A breach one step further in. -/
def Breach.under (step : String) (b : Breach) : Breach := { b with place := step :: b.place }

/-- A breach in one line. -/
def Breach.message (b : Breach) : String :=
  if b.place.isEmpty then b.text else Text.join "/" b.place ++ ": " ++ b.text

/-- Whether a value is of a kind.  A double without a fraction is a whole number. -/
def Kind.holds (k : Kind) (v : Json) : Bool :=
  match k, v with
  | .string, .string _ | .boolean, .bool _ | .number, .number _ | .integer, .number (.whole _)
  | .array, .array _ | .object, .object _ | .null, .null => true
  | .integer, .number (.double d) => d.isWhole
  | _, _ => false

/-- Whether a number is below a whole one. -/
def Number.isBelow (least : Int) : Number → Bool
  | .whole n => n < least
  | .double d => d.isBelow least

/-- Breaches of the items of an array, each under its number. -/
def breachesOfItems (check : Json → List Breach) : (number : Nat) → List Json → List Breach
  | _, [] => []
  | n, v :: vs => (check v).map (.under (toString n)) ++ breachesOfItems check (n + 1) vs

/-- The breaches of the members that are not known, each under its name. -/
def breachesOfOthers (check : Json → List Breach) (known : List String)
    (ms : List (String × Json)) : List Breach :=
  (ms.filter fun m => !known.contains m.1).flatMap fun m => (check m.2).map (.under m.1)

mutual

/-- The breaches of a rule by a value; `look` says which breaches the rules of a name
have. -/
def Rule.breaches (look : String → Json → List Breach) : Rule → Json → List Breach
  | .remark _, _ | .width _, _ => []
  | .named name, v => look name v
  | .anyOf choices, v =>
    if someHold look choices v then [] else [.here "none of the possible forms"]
  | .kinds ks, v =>
    if ks.any fun k => k.holds v then []
    else [.here ("not of type " ++ Text.join " or " (ks.map Kind.name))]
  | .minimum least, v =>
    match v with
    | .number n => if n.isBelow least then [.here ("less than " ++ toString least)] else []
    | _ => []
  | .members known others, v =>
    match v with
    | .object ms => breachesOfKnown look known ms ++ (match others with
      | none => []
      | some rs => breachesOfOthers (rulesBreaches look rs) (known.map Prod.fst) ms)
    | _ => []
  | .items rs, v =>
    match v with
    | .array vs => breachesOfItems (rulesBreaches look rs) 0 vs
    | _ => []
  | .required names, v =>
    match v with
    | .object ms => (names.filter fun name => (ms.lookup name).isNone).map fun name =>
        .here (Text.quoted name ++ " is missing")
    | _ => []
  | .oneOf names, v =>
    if v.string?.any names.contains then []
    else [.here ("not one of " ++ Text.join ", " (names.map Text.quoted))]

/-- The breaches of rules, in the order of the rules. -/
def rulesBreaches (look : String → Json → List Breach) : List Rule → Json → List Breach
  | [], _ => []
  | r :: rs, v => r.breaches look v ++ rulesBreaches look rs v

/-- Whether all rules of one choice are obeyed. -/
def someHold (look : String → Json → List Breach) : List (List Rule) → Json → Bool
  | [], _ => false
  | rs :: rest, v => (rulesBreaches look rs v).isEmpty || someHold look rest v

/-- The breaches of the known members that an object has. -/
def breachesOfKnown (look : String → Json → List Breach) :
    List (String × List Rule) → List (String × Json) → List Breach
  | [], _ => []
  | (name, rs) :: rest, ms =>
    (match ms.lookup name with
    | some v => (rulesBreaches look rs v).map (.under name)
    | none => []) ++ breachesOfKnown look rest ms

end

namespace Schema

/-- The breaches of the rules of a name, with at most `depth` names looked up behind each
other. -/
def breachesOfName (s : Schema) : (depth : Nat) → String → Json → List Breach
  | 0, name, _ => [.here (Text.quoted name ++ " has no rules")]
  | depth + 1, name, v =>
    match s.definitions.lookup name with
    | some rs => rulesBreaches (breachesOfName s depth) rs v
    | none => [.here (Text.quoted name ++ " has no rules")]

/-- The breaches of a schema by a value.  The rules of a name do not lead back to that
name, so that there are no more look-ups behind each other than there are names. -/
def breaches (s : Schema) (v : Json) : List Breach :=
  rulesBreaches (s.breachesOfName s.definitions.length) s.rules v

end Schema
end GlyphLine

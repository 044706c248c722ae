import GlyphLine.ByName
import GlyphLine.Field
import GlyphLine.Json.Basic
import GlyphLine.Width
import GlyphLine.Yaml.Node
import GlyphLine.Yaml.Scalar

/-!
# Reading YAML documents by shape

A reader takes a node apart as it expects it to be.  An alias stands for the node that
it refers to; every alias that is followed is counted, and there may be a hundred of
them for each unit of the document's size.

* `Reader.scalar`, `Reader.optional`, `Reader.list`, `Reader.table`, `Reader.record`:
  values of a shape.
* `Reader.any`: any value.
* `Reader.run`: a whole text.
-/

namespace GlyphLine
namespace Yaml

/-- A reader: from the document, a node, and the number of aliases followed so far. -/
def Reader (α : Type) : Type := Document → Node → (followed : Nat) → Except Fault (α × Nat)

/-- The reader whose results are passed through `f`. -/
def Reader.map {α β : Type} (f : α → β) (r : Reader α) : Reader β := fun d n k =>
  (r d n k).map fun (a, k) => (f a, k)

/-- The node itself, or the one that it refers to as an alias. -/
def follow (d : Document) (n : Node) (followed : Nat) : Except Fault (Node × Nat) :=
  match n with
  | .alias number =>
    if d.size * 100 < followed + 1 then .error .tooManyAliases
    else
      match d.node? number with
      | some n => .ok (n, followed + 1)
      | none => .error .unknownAnchor
  | n => .ok (n, followed)

/-- What a scalar stands for.  A tag of the document's own is of no known kind, and
quotes make a scalar a text. -/
def Plain.ofScalar (tag : Option String) (isPlain : Bool) (text : String) :
    Except Fault Plain :=
  match tag with
  | none => .ok (if isPlain then .of text else .text text)
  | some tag =>
    if Text.startsWith "!" tag then .error .wrongType
    else
      match Plain.tagged tag text with
      | some p => .ok p
      | none => .error .wrongType

/-- Whether a node means that there is no value. -/
def isAbsent (n : Node) : Except Fault Bool :=
  match n with
  | .scalar tag true text =>
    match tag with
    | none => .ok (text.isEmpty || Plain.isNull text)
    | some tag =>
      if tag = corePart ++ "null" then
        if Plain.isNull text then .ok true else .error .wrongType
      else .ok false
  | _ => .ok false

/-- The text of a key, which is a scalar of any kind. -/
def keyText (d : Document) (n : Node) (followed : Nat) : Except Fault (String × Nat) :=
  match follow d n followed with
  | .error e => .error e
  | .ok (.scalar _ _ text, k) => .ok (text, k)
  | .ok _ => .error .wrongType

/-- The items of a sequence.  A plain scalar that is not written counts as an empty
one. -/
def itemsOf (n : Node) : Except Fault (List Node) :=
  match n with
  | .sequence _ items => .ok items
  | .scalar _ true text => if text.isEmpty then .ok [] else .error .wrongType
  | _ => .error .wrongType

/-- The entries of a mapping.  A plain scalar that is not written counts as an empty
one. -/
def entriesOf (n : Node) : Except Fault (List (Node × Node)) :=
  match n with
  | .mapping _ entries => .ok entries
  | .scalar _ true text => if text.isEmpty then .ok [] else .error .wrongType
  | _ => .error .wrongType

/-- The results of a reader on the nodes of a list, in reverse order behind `done`. -/
def readItems {α : Type} (r : Reader α) (d : Document) :
    List Node → (done : List α) → (followed : Nat) → Except Fault (List α × Nat)
  | [], done, k => .ok (done.reverse, k)
  | n :: ns, done, k =>
    match r d n k with
    | .error e => .error e
    | .ok (a, k) => readItems r d ns (a :: done) k

/-- The entries of a mapping, folded with a step that is given the text of each key. -/
def readEntries {σ : Type} (step : σ → String → Node → Nat → Except Fault (σ × Nat))
    (d : Document) : List (Node × Node) → σ → (followed : Nat) → Except Fault (σ × Nat)
  | [], state, k => .ok (state, k)
  | (key, value) :: rest, state, k =>
    match keyText d key k with
    | .error e => .error e
    | .ok (name, k) =>
      match step state name value k with
      | .error e => .error e
      | .ok (state, k) => readEntries step d rest state k

namespace Reader

/-- A scalar that is accepted by `choose`. -/
def scalar {α : Type} (choose : Plain → Option α) : Reader α := fun d n k =>
  match follow d n k with
  | .error e => .error e
  | .ok (.scalar tag isPlain text, k) =>
    match Plain.ofScalar tag isPlain text with
    | .error e => .error e
    | .ok p =>
      match choose p with
      | some a => .ok (a, k)
      | none => .error .wrongType
  | .ok _ => .error .wrongType

/-- A value for `r`, or none. -/
def optional {α : Type} (r : Reader α) : Reader (Option α) := fun d n k =>
  match follow d n k with
  | .error e => .error e
  | .ok (n, k) =>
    match isAbsent n with
    | .error e => .error e
    | .ok true => .ok (none, k)
    | .ok false => (r.map some) d n k

/-- A sequence of values for `r`. -/
def list {α : Type} (r : Reader α) : Reader (List α) := fun d n k =>
  match follow d n k with
  | .error e => .error e
  | .ok (n, k) =>
    match itemsOf n with
    | .error e => .error e
    | .ok items => readItems r d items [] k

/-- A mapping whose keys are names and whose values are for `r`.  Of the entries with
one name the last one counts. -/
def table {α : Type} (r : Reader α) : Reader (ByName α) := fun d n k =>
  match follow d n k with
  | .error e => .error e
  | .ok (n, k) =>
    match entriesOf n with
    | .error e => .error e
    | .ok entries =>
      let step (t : ByName α) (name : String) (n : Node) (k : Nat) :
          Except Fault (ByName α × Nat) :=
        (r d n k).map fun (a, k) => (t.insert name a, k)
      readEntries step d entries ByName.empty k

/-- A mapping with the given fields, all of which may be missing.  Entries with other
keys are passed over; two for one field are a fault. -/
def record {σ : Type} (fields : List (Field Reader σ)) (blank : σ) : Reader σ := fun d n k =>
  match follow d n k with
  | .error e => .error e
  | .ok (n, k) =>
    match entriesOf n with
    | .error e => .error e
    | .ok entries =>
      let step (state : σ × List String) (name : String) (n : Node) (k : Nat) :
          Except Fault ((σ × List String) × Nat) :=
        match fields.find? fun f => f.name == name with
        | none => .ok (state, k)
        | some field =>
          if state.2.contains name then .error (.duplicateField name)
          else
            (field.read d n k).map fun (set, k) => ((set state.1, name :: state.2), k)
      (readEntries step d entries (blank, []) k).map fun (state, k) => (state.1, k)

/-- How many sequences and mappings may stand inside each other. -/
def maxDepth : Nat := 128

/-- The JSON value that a scalar stands for.  Values that are no finite numbers are
null. -/
def ofPlain : Plain → Except Fault Json
  | .null => .ok .null
  | .bool b => .ok (.bool b)
  | .whole n =>
    if Width.fits 64 n then .ok (.number (.whole n)) else .error .wrongType
  | .double d => .ok (if d.isFinite then .number (.double d) else .null)
  | .text s => .ok (.string s)

/-- Whether a tag is one of the document's own, which no value is of. -/
def isOwnTag (tag : Option String) : Bool := tag.any (Text.startsWith "!")

/-- A value of any kind, with at most `depth` sequences and mappings inside each other.
An alias is followed where it stands. -/
def anyWithin : (depth : Nat) → Reader Json
  | depth, d, n, k =>
    match follow d n k with
    | .error e => .error e
    | .ok (.scalar tag isPlain text, k) =>
      match Plain.ofScalar tag isPlain text with
      | .error e => .error e
      | .ok p => (ofPlain p).map fun v => (v, k)
    | .ok (.sequence tag items, k) =>
      if isOwnTag tag then .error .wrongType
      else
        match depth with
        | 0 => .error .tooDeep
        | depth + 1 => (readItems (anyWithin depth) d items [] k).map fun (vs, k) =>
          (.array vs, k)
    | .ok (.mapping tag entries, k) =>
      if isOwnTag tag then .error .wrongType
      else
        match depth with
        | 0 => .error .tooDeep
        | depth + 1 =>
          let step (ms : List (String × Json)) (name : String) (n : Node) (k : Nat) :
              Except Fault (List (String × Json) × Nat) :=
            (anyWithin depth d n k).map fun (v, k) => (putEntry name v ms, k)
          (readEntries step d entries [] k).map fun (ms, k) => (.object ms, k)
    | .ok (.alias _, _) => .error .unknownAnchor

/-- A value of any kind. -/
def any : Reader Json := anyWithin maxDepth

/-- The result of a reader for values that may be missing, on a whole text.  A text
without a document has no value. -/
def run {α : Type} (r : Reader (Option α)) (text : String) : Except Fault (Option α) :=
  match Document.ofText text with
  | .error e => .error e
  | .ok d =>
    match d.root with
    | none => .ok none
    | some n => (r d n 0).map Prod.fst

end Reader
end Yaml
end GlyphLine

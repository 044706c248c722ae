import GlyphLine.Yaml.Tokens

/-!
# The structure of a YAML text

The tokens of a text describe one document at most: a tree of scalars, sequences and
mappings.  A node may have a tag, and it may have an anchor, by which aliases behind it
refer to it.

An anchor gets a number, which is the number of different anchor names before it; the
aliases of its name refer to that number, and a number refers to the node that has got
it last.

* `Node`: the tree.
* `Document`: the root, with the nodes that have an anchor.
* `Document.ofText`: the document of a text.
-/

namespace GlyphLine
namespace Yaml

/-- A node of the tree. -/
inductive Node where
  | alias (number : Nat)
  | scalar (tag : Option String) (isPlain : Bool) (text : String)
  | sequence (tag : Option String) (items : List Node)
  | mapping (tag : Option String) (entries : List (Node × Node))
  deriving Repr, Inhabited

/-- A node that has an anchor: its number, and where in the document it begins. -/
structure Anchored where
  number : Nat
  start : Nat
  node : Node
  deriving Repr

/-- A document: its root if it has one, the nodes with an anchor, and its size, which
counts a scalar or an alias once, and a sequence or a mapping twice. -/
structure Document where
  root : Option Node
  anchored : List Anchored
  size : Nat
  deriving Repr

/-- Of two nodes with an anchor, the one that begins later. -/
def Anchored.later (a : Option Anchored) (b : Anchored) : Option Anchored :=
  match a with
  | some a => if a.start < b.start then some b else some a
  | none => some b

/-- The node to which a number refers. -/
def Document.node? (d : Document) (number : Nat) : Option Node :=
  (((d.anchored.filter fun a => a.number == number).foldl Anchored.later none)).map
    Anchored.node

/-- What has been read of a document: the tokens that are left, the tags that handles
stand for, the numbers of the anchor names, the nodes with an anchor, and the size. -/
structure Reading where
  tokens : List Token
  handles : List (String × String) := []
  names : List (String × Nat) := []
  anchored : List Anchored := []
  size : Nat := 0
  deriving Repr

/-- The properties in front of a node. -/
structure Properties where
  anchor : Option String := none
  tag : Option String := none
  deriving DecidableEq, Repr

namespace Reading

/-- The reading with one token less. -/
def drop (s : Reading) : Reading := { s with tokens := s.tokens.tail }

/-- Whether one of some tokens comes next. -/
def isAt (s : Reading) (ts : List Token) : Bool :=
  match s.tokens with
  | [] => false
  | t :: _ => ts.contains t

/-- The tags that two handles stand for in every document. -/
def standardHandles : List (String × String) := [("!", "!"), ("!!", "tag:yaml.org,2002:")]

/-- The tag of a handle and a suffix. -/
def resolve (s : Reading) (handle suffix : String) : Except Fault String :=
  if handle.isEmpty then .ok suffix
  else
    match (s.handles ++ standardHandles).lookup handle with
    | some tag => .ok (tag ++ suffix)
    | none => .error .unknownHandle

/-- The anchor and the tag in front of a node, in either order. -/
def properties (s : Reading) : Except Fault (Properties × Reading) :=
  match s.tokens with
  | .anchor name :: .tag h suffix :: rest =>
    (s.resolve h suffix).map fun tag => (⟨some name, some tag⟩, { s with tokens := rest })
  | .anchor name :: rest => .ok (⟨some name, none⟩, { s with tokens := rest })
  | .tag h suffix :: .anchor name :: rest =>
    (s.resolve h suffix).map fun tag => (⟨some name, some tag⟩, { s with tokens := rest })
  | .tag h suffix :: rest =>
    (s.resolve h suffix).map fun tag => (⟨none, some tag⟩, { s with tokens := rest })
  | _ => .ok ({}, s)

/-- The number for a new anchor, and the reading that knows its name. -/
def number (s : Reading) (name : String) : Nat × Reading :=
  let n := s.names.length
  (n, { s with names := (name, n) :: s.names.filter fun e => e.1 != name })

/-- Takes note of a node that begins here, of its anchor and of `events` in its size. -/
def begin (s : Reading) (p : Properties) (events : Nat) : Option (Nat × Nat) × Reading :=
  let start := s.size
  let s := { s with size := s.size + events }
  match p.anchor with
  | none => (none, s)
  | some name =>
    let (n, s) := s.number name
    (some (n, start), s)

/-- Takes note of a node that has ended. -/
def finish (s : Reading) (place : Option (Nat × Nat)) (node : Node) : Node × Reading :=
  match place with
  | none => (node, s)
  | some (n, start) => (node, { s with anchored := ⟨n, start, node⟩ :: s.anchored })

/-- A scalar with its properties. -/
def scalar (s : Reading) (p : Properties) (isPlain : Bool) (text : String) : Node × Reading :=
  let (place, s) := s.begin p 1
  s.finish place (.scalar p.tag isPlain text)

/-- A scalar that is not written. -/
def empty (s : Reading) : Node × Reading := s.scalar {} true ""

/-- The end of a sequence or mapping. -/
def close (s : Reading) (place : Option (Nat × Nat)) (node : Node) : Node × Reading :=
  { s with size := s.size + 1 }.finish place node

mutual

/-- A node.  A block collection may begin only where `inBlock`; where `bare`, a sequence
may also begin by its first entry, without indentation of its own. -/
def node : (rounds : Nat) → (inBlock bare : Bool) → Reading → Except Fault (Node × Reading)
  | 0, _, _, _ => .error .noNode
  | rounds + 1, inBlock, bare, s =>
    match s.tokens with
    | .alias name :: rest =>
      match s.names.lookup name with
      | some n => .ok (.alias n, { s with tokens := rest, size := s.size + 1 })
      | none => .error .unknownAnchor
    | _ =>
      match s.properties with
      | .error e => .error e
      | .ok (p, s) =>
        match s.tokens with
        | .scalar isPlain text :: rest => .ok ({ s with tokens := rest }.scalar p isPlain text)
        | .listStart :: rest =>
          let (place, s) := { s with tokens := rest }.begin p 1
          (flowItems rounds true [] s).map fun (items, s) => s.close place (.sequence p.tag items)
        | .mapStart :: rest =>
          let (place, s) := { s with tokens := rest }.begin p 1
          (flowEntries rounds true [] s).map fun (es, s) => s.close place (.mapping p.tag es)
        | t :: rest =>
          if bare && t = .entry then
            let (place, s) := s.begin p 1
            (bareItems rounds [] s).map fun (items, s) => s.close place (.sequence p.tag items)
          else if inBlock && t = .blockSequence then
            let (place, s) := { s with tokens := rest }.begin p 1
            (blockItems rounds [] s).map fun (items, s) =>
              s.close place (.sequence p.tag items)
          else if inBlock && t = .blockMapping then
            let (place, s) := { s with tokens := rest }.begin p 1
            (blockEntries rounds [] s).map fun (es, s) => s.close place (.mapping p.tag es)
          else if p = {} then .error .noNode
          else .ok (s.scalar p true "")
        | [] => if p = {} then .error .noNode else .ok (s.scalar p true "")

/-- A node, or an empty scalar if one of some tokens comes next. -/
def nodeUnless : (rounds : Nat) → (ends : List Token) → (inBlock bare : Bool) → Reading →
    Except Fault (Node × Reading)
  | 0, _, _, _, _ => .error .noNode
  | rounds + 1, ends, inBlock, bare, s =>
    if s.isAt ends then .ok s.empty else node rounds inBlock bare s

/-- The items of a block sequence. -/
def blockItems : (rounds : Nat) → List Node → Reading → Except Fault (List Node × Reading)
  | 0, _, _ => .error .noNode
  | rounds + 1, done, s =>
    match s.tokens with
    | .entry :: _ =>
      match nodeUnless rounds [.entry, .blockEnd] true false s.drop with
      | .error e => .error e
      | .ok (n, s) => blockItems rounds (n :: done) s
    | .blockEnd :: _ => .ok (done.reverse, s.drop)
    | _ => .error .noEntry

/-- The items of a sequence without indentation of its own. -/
def bareItems : (rounds : Nat) → List Node → Reading → Except Fault (List Node × Reading)
  | 0, _, _ => .error .noNode
  | rounds + 1, done, s =>
    match s.tokens with
    | .entry :: _ =>
      match nodeUnless rounds [.entry, .key, .value, .blockEnd] true false s.drop with
      | .error e => .error e
      | .ok (n, s) => bareItems rounds (n :: done) s
    | _ => .ok (done.reverse, s)

/-- The entries of a block mapping. -/
def blockEntries : (rounds : Nat) → List (Node × Node) → Reading →
    Except Fault (List (Node × Node) × Reading)
  | 0, _, _ => .error .noNode
  | rounds + 1, done, s =>
    match s.tokens with
    | .key :: _ =>
      match nodeUnless rounds [.key, .value, .blockEnd] true true s.drop with
      | .error e => .error e
      | .ok (k, s) =>
        match s.tokens with
        | .value :: _ =>
          match nodeUnless rounds [.key, .value, .blockEnd] true true s.drop with
          | .error e => .error e
          | .ok (v, s) => blockEntries rounds ((k, v) :: done) s
        | _ =>
          let (v, s) := s.empty
          blockEntries rounds ((k, v) :: done) s
    | .blockEnd :: _ => .ok (done.reverse, s.drop)
    | _ => .error .noEntry

/-- The items of a flow sequence.  An item with a key is a mapping with one entry. -/
def flowItems : (rounds : Nat) → (first : Bool) → List Node → Reading →
    Except Fault (List Node × Reading)
  | 0, _, _, _ => .error .noNode
  | rounds + 1, first, done, s =>
    match s.tokens with
    | .listEnd :: _ => .ok (done.reverse, s.drop)
    | t :: _ =>
      if !first && t != .comma then .error .noEntry
      else
        let s := if first then s else s.drop
        match s.tokens with
        | .listEnd :: _ => .ok (done.reverse, s.drop)
        | .key :: _ =>
          match flowPair rounds s.drop with
          | .error e => .error e
          | .ok (n, s) => flowItems rounds false (n :: done) s
        | _ =>
          match node rounds false false s with
          | .error e => .error e
          | .ok (n, s) => flowItems rounds false (n :: done) s
    | [] => .error .noEntry

/-- The one entry of a mapping in a flow sequence, from behind the mark of its key on.
The token that stands for a missing key is passed over. -/
def flowPair : (rounds : Nat) → Reading → Except Fault (Node × Reading)
  | 0, _ => .error .noNode
  | rounds + 1, s =>
    let s := { s with size := s.size + 1 }
    let key : Except Fault (Node × Reading) :=
      if s.isAt [.value, .comma, .listEnd] then .ok s.drop.empty
      else node rounds false false s
    match key with
    | .error e => .error e
    | .ok (k, s) =>
      let value : Except Fault (Node × Reading) :=
        match s.tokens with
        | .value :: _ => nodeUnless rounds [.comma, .listEnd] false false s.drop
        | _ => .ok s.empty
      value.map fun (v, s) => (.mapping none [(k, v)], { s with size := s.size + 1 })

/-- The entries of a flow mapping. -/
def flowEntries : (rounds : Nat) → (first : Bool) → List (Node × Node) → Reading →
    Except Fault (List (Node × Node) × Reading)
  | 0, _, _, _ => .error .noNode
  | rounds + 1, first, done, s =>
    match s.tokens with
    | .mapEnd :: _ => .ok (done.reverse, s.drop)
    | t :: _ =>
      if !first && t != .comma then .error .noEntry
      else
        let s := if first then s else s.drop
        match s.tokens with
        | .mapEnd :: _ => .ok (done.reverse, s.drop)
        | .key :: _ =>
          match nodeUnless rounds [.value, .comma, .mapEnd] false false s.drop with
          | .error e => .error e
          | .ok (k, s) =>
            match s.tokens with
            | .value :: _ =>
              match nodeUnless rounds [.comma, .mapEnd] false false s.drop with
              | .error e => .error e
              | .ok (v, s) => flowEntries rounds false ((k, v) :: done) s
            | _ =>
              let (v, s) := s.empty
              flowEntries rounds false ((k, v) :: done) s
        | _ =>
          match node rounds false false s with
          | .error e => .error e
          | .ok (k, s) =>
            let (v, s) := s.empty
            flowEntries rounds false ((k, v) :: done) s
    | [] => .error .noEntry

end

/-! ## Documents -/

/-- The directives in front of a document.  There may be one version, which is 1.1 or
1.2, and one tag for each handle. -/
def directives : (sawVersion : Bool) → List Token → Reading → Except Fault Reading
  | sawVersion, .version major minor :: rest, s =>
    if sawVersion || major != 1 || (minor != 1 && minor != 2) then .error .badDirective
    else directives true rest s
  | sawVersion, .handle name tag :: rest, s =>
    if (s.handles.lookup name).isSome then .error .badDirective
    else directives sawVersion rest { s with handles := s.handles ++ [(name, tag)] }
  | _, rest, s => .ok { s with tokens := rest }

/-- What may stand behind the one document of a text: nothing but marks of its end. -/
def ended (s : Reading) : Except Fault Reading :=
  match s.tokens.dropWhile (· == .documentEnd) with
  | [] => .ok { s with tokens := [] }
  | _ => .error .severalDocuments

/-- The root of a document.  Behind a mark of its start it may be missing. -/
def root (s : Reading) : Except Fault (Node × Reading) :=
  let rounds := 3 * s.tokens.length + 3
  match s.tokens with
  | .version .. :: _ | .handle .. :: _ | .documentStart :: _ =>
    match directives false s.tokens s with
    | .error e => .error e
    | .ok s =>
      match s.tokens with
      | .documentStart :: rest =>
        let s := { s with tokens := rest }
        match rest with
        | [] | .version .. :: _ | .handle .. :: _ | .documentStart :: _ | .documentEnd :: _ =>
          .ok s.empty
        | _ => node rounds true false s
      | _ => .error .noDocumentStart
  | _ => node rounds true false s

end Reading

/-- The document of a list of tokens. -/
def Document.ofTokens (tokens : List Token) : Except Fault Document :=
  match tokens with
  | [] => .ok ⟨none, [], 1⟩
  | tokens =>
    match Reading.root { tokens := tokens } with
    | .error e => .error e
    | .ok (root, s) => s.ended.map fun s => ⟨some root, s.anchored, s.size⟩

/-- The document of a text. -/
def Document.ofText (text : String) : Except Fault Document :=
  match tokens text with
  | .error e => .error e
  | .ok ts => ofTokens ts

end Yaml
end GlyphLine

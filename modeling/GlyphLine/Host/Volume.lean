import GlyphLine.Host.Basic
import GlyphLine.Text.Basic

/-!
# Files as values

A volume is the files and directories of a host as a value: each stands at a *place*,
the names that lead there from the root.  Under the root there is always a directory.

* `Volume.find?`, `Volume.put`: what stands at a place.
* `Volume.walk`: the place that a path leads to.  Every name but the last one has to be
  that of a directory.
* `Volume.read`, `Volume.write`, `Volume.createDirectory`, `Volume.list`: the files and
  directories under paths.
-/

namespace GlyphLine

/-- Names from the root on. -/
abbrev Place := List String

/-- What can stand at a place. -/
inductive Entry where
  | file (content : List UInt8)
  | directory
  deriving DecidableEq, Repr

/-- Files and directories, each at its place. -/
structure Volume where
  entries : List (Place × Entry)
  deriving DecidableEq, Repr

namespace Volume

/-- What stands at a place. -/
def find? (v : Volume) (p : Place) : Option Entry :=
  if p = [] then some .directory else v.entries.lookup p

/-- The volume with `e` at a place. -/
def put (v : Volume) (p : Place) (e : Entry) : Volume :=
  ⟨(p, e) :: v.entries.filter fun f => f.1 != p⟩

theorem lookup_filter_ne {p q : Place} (h : p ≠ q) (es : List (Place × Entry)) :
    (es.filter fun f => f.1 != q).lookup p = es.lookup p := by
  induction es with
  | nil => rfl
  | cons e es ih =>
    obtain ⟨r, a⟩ := e
    by_cases hr : r = q
    · subst hr
      have hpr : (p == r) = false := beq_false_of_ne h
      simp [ih, List.lookup_cons, hpr]
    · have : (r != q) = true := bne_iff_ne.2 hr
      simp only [List.filter_cons, this, if_true, List.lookup_cons]
      split
      · rfl
      · exact ih

/-- What has been put at a place stands there. -/
@[simp] theorem find?_put_self (v : Volume) {p : Place} (e : Entry) (h : p ≠ []) :
    (v.put p e).find? p = some e := by
  simp [find?, put, h]

/-- At all other places nothing has changed. -/
@[simp] theorem find?_put_of_ne (v : Volume) {p q : Place} (e : Entry) (h : p ≠ q) :
    (v.put q e).find? p = v.find? p := by
  have hpq : (p == q) = false := beq_false_of_ne h
  simp [find?, put, List.lookup_cons, hpq, lookup_filter_ne h]

/-! ## Paths -/

/-- The names of a path, with the points and the empty names between slashes. -/
def namesOf (path : String) : List String :=
  (Text.pieces (· == '/') path.toList).map String.ofList

/-- The place that names lead to from a place.  Every step begins in a directory. -/
def walk (v : Volume) (here : Place) : List String → Except SystemError Place
  | [] => .ok here
  | name :: names =>
    match v.find? here with
    | none => .error .notFound
    | some (.file _) => .error .notDirectory
    | some .directory =>
      if name = "" || name = "." then v.walk here names
      else if name = ".." then v.walk here.dropLast names
      else v.walk (here ++ [name]) names

/-- Where a path begins: at the root, or else at `here`. -/
def start (here : Place) (path : String) : Place :=
  if Text.startsWith "/" path then [] else here

/-- The place that a path leads to. -/
def resolve (v : Volume) (here : Place) (path : String) : Except SystemError Place :=
  if path.isEmpty then .error .notFound else v.walk (start here path) (namesOf path)

/-- The place that a path leads to if nothing needs to stand there yet: slashes at its
end do not ask for a directory. -/
def resolveNew (v : Volume) (here : Place) (path : String) : Except SystemError Place :=
  if path.isEmpty then .error .notFound
  else v.walk (start here path) ((namesOf path).reverse.dropWhile String.isEmpty).reverse

/-- Whether a path ends with a slash, as only that of a directory may. -/
def isDirectoryPath (path : String) : Bool := path.toList.getLast? = some '/'

/-- The content of the file under a path. -/
def read (v : Volume) (here : Place) (path : String) : Except SystemError (List UInt8) := do
  match v.find? (← v.resolve here path) with
  | none => .error .notFound
  | some .directory => .error .isDirectory
  | some (.file content) => .ok content

/-- The place of the file that is written under a path. -/
def target (v : Volume) (here : Place) (path : String) : Except SystemError Place := do
  let p ← v.resolveNew here path
  if isDirectoryPath path then .error .isDirectory
  else
    match v.find? p with
    | some .directory => .error .isDirectory
    | _ => .ok p

/-- The volume with a content in the file under a path. -/
def write (v : Volume) (here : Place) (path : String) (content : List UInt8) :
    Except SystemError Volume :=
  (v.target here path).map fun p => v.put p (.file content)

/-- The volume with a directory under a path. -/
def createDirectory (v : Volume) (here : Place) (path : String) : Except SystemError Volume := do
  let p ← v.resolveNew here path
  if (v.find? p).isSome then .error .alreadyExists else .ok (v.put p .directory)

/-- What kind of thing stands at a place. -/
def Entry.kind : Entry → FileKind
  | .file _ => .file
  | .directory => .directory

/-- What there is under a path. -/
def kind? (v : Volume) (here : Place) (path : String) : Option FileKind :=
  match v.resolve here path with
  | .ok p => (v.find? p).map Entry.kind
  | .error _ => none

/-- The name of an entry that stands in the directory `p`. -/
def nameIn? (p : Place) (e : Place × Entry) : Option (String × FileKind) :=
  match e.1.reverse with
  | [] => none
  | name :: above => if above.reverse = p then some (name, Entry.kind e.2) else none

/-- The names in the directory under a path. -/
def list (v : Volume) (here : Place) (path : String) :
    Except SystemError (List (String × FileKind)) := do
  let p ← v.resolve here path
  match v.find? p with
  | none => .error .notFound
  | some (.file _) => .error .notDirectory
  | some .directory => .ok (v.entries.filterMap (nameIn? p))

end Volume
end GlyphLine

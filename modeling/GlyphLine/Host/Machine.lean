import GlyphLine.Host.Volume

/-!
# Hosts as values

A machine is a host whose files, input, environment and clock are values, and which
keeps what has been written to its output and where errors go.  The clock moves on by a
millisecond whenever it is looked at.

Whatever a machine offers and can fail may also be denied: by permissions, a full disk or
a broken input.  A content whose writing is denied may have been written in part.

* `Access`, `Denial`: what can be denied, and how.
* `Machine`: the machines.
* `Machine.host`: what they offer.
-/

namespace GlyphLine

/-- What can be denied. -/
inductive Access where
  | read (path : String)
  | write (path : String)
  | createDirectory (path : String)
  | list (path : String)
  | input
  deriving DecidableEq, Repr

/-- How something is denied.  Of a content, the first `kept` bytes are written all the same,
if there is such a number. -/
structure Denial where
  error : SystemError
  kept : Option Nat := none
  deriving DecidableEq, Repr

/-- A host as a value. -/
structure Machine where
  volume : Volume
  /-- Where relative paths begin. -/
  here : Place := []
  environment : List (String × String) := []
  input : List UInt8 := []
  denials : List (Access × Denial) := []
  /-- The milliseconds since 1970. -/
  clock : Nat := 0
  printed : String := ""
  told : String := ""
  deriving DecidableEq, Repr

namespace Machine

/-- The path of a place. -/
def pathOf (p : Place) : String :=
  if p.isEmpty then "/" else Text.concat (p.map ("/" ++ ·))

/-- A result, unless it is denied. -/
def unlessDenied {α : Type} (s : Machine) (a : Access) (result : Except SystemError α) :
    Except SystemError α :=
  match s.denials.lookup a with
  | some d => .error d.error
  | none => result

/-- The content of the file under a path. -/
def read (s : Machine) (path : String) : Except SystemError (List UInt8) :=
  s.unlessDenied (.read path) (s.volume.read s.here path)

/-- The result of a change of the volume, which leaves it as it was if it fails. -/
def change (result : Except SystemError Volume) :
    StateM Machine (Except SystemError Unit) := fun s =>
  match result with
  | .ok v => (.ok (), { s with volume := v })
  | .error e => (.error e, s)

/-- A content written under a path, or as much of it as is kept when it is denied. -/
def write (path : String) (content : List UInt8) : StateM Machine (Except SystemError Unit) :=
  fun s =>
    match s.denials.lookup (.write path) with
    | none => change (s.volume.write s.here path content) s
    | some ⟨e, none⟩ => (.error e, s)
    | some ⟨e, some n⟩ => (.error e, (change (s.volume.write s.here path (content.take n)) s).2)

/-- A directory made under a path. -/
def createDirectory (path : String) : StateM Machine (Except SystemError Unit) := fun s =>
  change (s.unlessDenied (.createDirectory path) (s.volume.createDirectory s.here path)) s

/-- The time that a clock shows. -/
def timeOf (clock : Nat) : Timestamp :=
  .ofClock (clock / 1000) (clock % 1000 * 1000000)

/-- What a machine offers. -/
instance host : Host (StateM Machine) where
  read path := fun s => (s.read path, s)
  write := write
  createDirectory := createDirectory
  kind? path := fun s => (s.volume.kind? s.here path, s)
  list path := fun s => (s.unlessDenied (.list path) (s.volume.list s.here path), s)
  input := fun s => (s.unlessDenied .input (.ok s.input), { s with input := [] })
  environment name := fun s => (s.environment.lookup name, s)
  workingDirectory := fun s => (pathOf s.here, s)
  now := fun s => (timeOf s.clock, { s with clock := s.clock + 1 })
  print text := fun s => ((), { s with printed := s.printed ++ text })
  tell text := fun s => ((), { s with told := s.told ++ text })

end Machine
end GlyphLine

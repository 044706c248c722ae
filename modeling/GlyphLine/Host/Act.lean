import GlyphLine.Host.Basic
import GlyphLine.Host.Failure
import GlyphLine.Host.Path

/-!
# What is done on a host

An act is something that is done on a host and can fail.  What has been done before the
failure stays done.

* `Act`: the acts.
* `Act.during`, `Act.readText`: what a host offers, with messages for its failures.
* `Act.createDirectories`: a directory with those that it stands in.
-/

namespace GlyphLine

/-- Something that is done on a host and can fail. -/
abbrev Act (m : Type → Type) (α : Type) : Type := ExceptT Failure m α

namespace Act

variable {m : Type → Type} [Monad m] [Host m]

/-- What a host offers, with what was being done as the message of its failure. -/
def during {α : Type} (message : String) (a : m (Except SystemError α)) : Act m α := do
  match ← a with
  | .ok a => pure a
  | .error e => throw ⟨message, [e.message]⟩

/-- The result of a function, if it has one. -/
def ofExcept {ε α : Type} (failure : ε → Failure) : Except ε α → Act m α
  | .ok a => pure a
  | .error e => throw (failure e)

/-- The message about a file that is no text. -/
def notText : String := "stream did not contain valid UTF-8"

/-- The text of a file. -/
def readText (message path : String) : Act m String := do
  match Text.decode? (← during message (Host.read path)) with
  | some s => pure s
  | none => throw ⟨message, [notText]⟩

/-- A text printed. -/
def print (s : String) : Act m Unit := (Host.print s : m Unit)

/-- Lines printed. -/
def printLines (ss : List String) : Act m Unit := print (Text.lines ss)

/-- Lines told where errors go. -/
def tellLines (ss : List String) : Act m Unit := (Host.tell (Text.lines ss) : m Unit)

/-- Whether there is a directory under a path. -/
def isDirectory (path : String) : m Bool := do
  return (← Host.kind? path) == some .directory

/-- A directory made, whose own one is there.  One that is there already will do. -/
def createOne (path : String) (result : Except SystemError Unit) :
    m (Except SystemError Unit) := do
  match result with
  | .ok () => return .ok ()
  | .error e => return if ← isDirectory path then .ok () else .error e

/-- A directory made with those that it stands in, of which at most `depth` are
missing. -/
def createWithin : (depth : Nat) → (path : String) → m (Except SystemError Unit)
  | depth, path => do
    if path.isEmpty then return .ok ()
    match ← Host.createDirectory path with
    | .error .notFound =>
      match depth, Path.parent? path with
      | depth + 1, some parent =>
        match ← createWithin depth parent with
        | .ok () => createOne path (← Host.createDirectory path)
        | .error e => return .error e
      | _, _ => return .error .notFound
    | result => createOne path result

/-- A directory made with those that it stands in.  A path has fewer names than
characters. -/
def createDirectories (path : String) : m (Except SystemError Unit) :=
  createWithin path.length path

end Act
end GlyphLine

import GlyphLine.Text.Utf8
import GlyphLine.Timestamp

/-!
# Hosts

A command works on a *host*: files and directories under paths, an input, an
environment, a clock, and two places to write to.  What a command does is described for
any host, and so it is known for a real one from what is known for one that is a value.

* `SystemError`: why a host refuses something, with the words for it.
* `FileKind`: what can be found under a path.
* `Host`: what a host offers.
-/

namespace GlyphLine

/-- Why a file or directory cannot be had. -/
inductive SystemError where
  | notFound
  | alreadyExists
  | notDirectory
  | isDirectory
  | other (code : Nat) (text : String)
  deriving DecidableEq, Repr

/-- The number by which the system knows an error. -/
def SystemError.code : SystemError → Nat
  | .notFound => 2
  | .alreadyExists => 17
  | .notDirectory => 20
  | .isDirectory => 21
  | .other code _ => code

/-- The words for an error. -/
def SystemError.text : SystemError → String
  | .notFound => "No such file or directory"
  | .alreadyExists => "File exists"
  | .notDirectory => "Not a directory"
  | .isDirectory => "Is a directory"
  | .other _ text => text

/-- The message of an error. -/
def SystemError.message (e : SystemError) : String :=
  e.text ++ " (os error " ++ toString e.code ++ ")"

/-- What can be found under a path. -/
inductive FileKind where
  | file
  | directory
  | other
  deriving DecidableEq, Repr

/-- What a host offers to commands. -/
class Host (m : Type → Type) where
  /-- The content of a file. -/
  read : (path : String) → m (Except SystemError (List UInt8))
  /-- A file given a content, and made if there is none. -/
  write : (path : String) → (content : List UInt8) → m (Except SystemError Unit)
  /-- A directory made in one that there is. -/
  createDirectory : (path : String) → m (Except SystemError Unit)
  /-- What there is under a path, if anything. -/
  kind? : (path : String) → m (Option FileKind)
  /-- The names in a directory, in any order, each with what it names. -/
  list : (path : String) → m (Except SystemError (List (String × FileKind)))
  /-- The whole input. -/
  input : m (Except SystemError (List UInt8))
  /-- The value of a variable of the environment. -/
  environment : (name : String) → m (Option String)
  /-- The path of the directory in which relative paths begin. -/
  workingDirectory : m String
  /-- The time, in universal time. -/
  now : m Timestamp
  /-- A text written to the output. -/
  print : (text : String) → m Unit
  /-- A text written where errors go. -/
  tell : (text : String) → m Unit

end GlyphLine

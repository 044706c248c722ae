import GlyphLine.Command.Dispatch
import GlyphLine.Upkeep.Dispatch
import Std.Time.DateTime.Timestamp

/-!
# The programs

One executable holds two programs.  Under the name of the maintenance commands it is
these, and under any other name it is the linter.

* `realHost`: the host that programs run on.
* `main`: the program.
-/

namespace GlyphLine
namespace Main

/-- The number and the words of an error of the system. -/
def codeAndText : IO.Error → Nat × String
  | .alreadyExists _ code text | .interrupted _ code text | .noFileOrDirectory _ code text
  | .invalidArgument _ code text | .permissionDenied _ code text | .resourceExhausted _ code text
  | .inappropriateType _ code text | .noSuchThing _ code text | .otherError code text
  | .resourceBusy code text | .resourceVanished code text | .unsupportedOperation code text
  | .hardwareFault code text | .unsatisfiedConstraints code text | .illegalOperation code text
  | .protocolError code text | .timeExpired code text => (code.toNat, text)
  | .unexpectedEof => (0, "unexpected end of file")
  | .userError text => (0, text)

/-- The number of an error, which the system may give with a minus sign. -/
def unsignedCode (code : Nat) : Nat := if code < Width.size 31 then code else Width.size 32 - code

/-- The errors that have names of their own. -/
def knownErrors : List SystemError := [.notFound, .alreadyExists, .notDirectory, .isDirectory]

/-- An error of the system. -/
def errorOf (e : IO.Error) : SystemError :=
  let (code, text) := codeAndText e
  let code := unsignedCode code
  (knownErrors.find? fun k => k.code == code).getD (.other code text.capitalize)

/-- The result of an action of the system, or its error. -/
def attempt {α : Type} (action : IO α) : IO (Except SystemError α) := do
  match ← action.toBaseIO with
  | .ok a => return .ok a
  | .error e => return .error (errorOf e)

/-- What the system calls a kind of file. -/
def kindOf : IO.FS.FileType → FileKind
  | .dir => .directory
  | .file => .file
  | _ => .other

/-- The host that programs run on. -/
instance realHost : Host IO where
  read path := attempt do return (← IO.FS.readBinFile path).toList
  write path content := attempt (IO.FS.writeBinFile path (ByteArray.mk content.toArray))
  createDirectory path := attempt (IO.FS.createDir path)
  kind? path := do
    let found ← attempt do return (← ((← IO.currentDir) / path).metadata).type
    return found.toOption.map kindOf
  list path := attempt do
    let entries ← ((← IO.currentDir) / path).readDir
    entries.toList.mapM fun e => return (e.fileName, kindOf (← e.path.symlinkMetadata).type)
  input := attempt do return (← (← IO.getStdin).readBinToEnd).toList
  environment name := IO.getEnv name
  workingDirectory := return (← IO.currentDir).toString
  now := do
    let t := (← Std.Time.Timestamp.now).toNanosecondsSinceUnixEpoch.val.toNat
    return .ofClock (t / 1000000000) (t % 1000000000)
  print text := do
    let output ← IO.getStdout
    output.putStr text
    output.flush
  tell text := do (← IO.getStderr).putStr text

end Main
end GlyphLine

/-- The program that the name of the executable stands for. -/
def main (words : List String) : IO UInt32 := do
  let name := (← IO.appPath).fileName
  let code ←
    if name = some GlyphLine.Upkeep.ownDirectory then GlyphLine.Upkeep.run words
    else GlyphLine.Command.run words
  return code.toUInt32

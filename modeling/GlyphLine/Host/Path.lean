import GlyphLine.Text.Basic

/-!
# Paths

A path is a text of names with slashes between them.  Several slashes count as one, and
a point as a name stands for the directory that has been reached; only at the beginning
of a relative path the point is a name like others.

* `join`: a path behind another one.
* `parent?`: the path without its last name.
* `endsWith`: whether a path has a certain last name.
-/

namespace GlyphLine
namespace Path

/-- A path behind a directory's path; an absolute one stays as it is. -/
def join (directory path : String) : String :=
  if Text.startsWith "/" path || directory.isEmpty then path
  else if directory.toList.getLast? = some '/' then directory ++ path
  else directory ++ "/" ++ path

/-- Slashes, and points that are names, removed from the front of a reversed path. -/
def trimReversed : List Char → List Char
  | '/' :: cs => trimReversed cs
  | ['.'] => []
  | '.' :: '/' :: cs => trimReversed cs
  | cs => cs

/-- The beginning of a path that is no part of its names' list, and the rest. -/
def splitStart : List Char → List Char × List Char
  | '/' :: cs => (['/'], cs)
  | ['.'] => (['.'], [])
  | '.' :: '/' :: cs => (['.'], '/' :: cs)
  | cs => ([], cs)

/-- The path without its last name, and that name; none if there is no name. -/
def split? (path : String) : Option (String × String) :=
  let (start, body) := splitStart path.toList
  match trimReversed body.reverse with
  | [] => if start = ['.'] then some ("", ".") else none
  | cs =>
    let name := (cs.takeWhile (· != '/')).reverse
    let directory := start ++ (trimReversed (cs.dropWhile (· != '/'))).reverse
    some (String.ofList directory, String.ofList name)

/-- The path without its last name. -/
def parent? (path : String) : Option String := (split? path).map Prod.fst

/-- Whether the last name of a path is `name`. -/
def endsWith (name path : String) : Bool := (split? path).any fun p => p.2 == name

/-- A path as it is seen from a directory above it. -/
def relativeTo (directory path : String) : String :=
  match Text.after? (join directory "") path with
  | some rest => rest
  | none => path

end Path
end GlyphLine

import PipelineCompiler.Path
import PipelineCompiler.Surroundings

/-!
# File trees

Files and directories under one top, and paths that are followed through them. Other than a path that
is resolved by its text, a path here leads somewhere only if every directory on its way is there: `x/..`
needs `x`, and nothing follows a file, not even a slash.
-/

namespace PipelineCompiler

/-- Why a file cannot be read. -/
inductive ReadError where
  | noSuchFile
  | notADirectory
  | isADirectory
  | nameTooLong
  | nulInName
deriving DecidableEq, Repr

/-- The words for an error, with its number if it has one. -/
def ReadError.message : ReadError → String
  | .noSuchFile => "No such file or directory (os error 2)"
  | .notADirectory => "Not a directory (os error 20)"
  | .isADirectory => "Is a directory (os error 21)"
  | .nameTooLong => "File name too long (os error 36)"
  | .nulInName => "file name contained an unexpected NUL byte"

/-- A place in a tree: the segments that lead there from the top. -/
abbrev Place := List Path.Segment

/-- Files and directories by their places. -/
structure FileTree where
  entries : List (Place × FileEntry) := []
deriving DecidableEq, Repr, Inhabited

namespace FileTree

/-- Greatest number of bytes in a segment. -/
def maxNameBytes : Nat := 255

/-- Put an entry at a place, instead of what was there. The directories on the way are there with it. -/
def put (t : FileTree) (place : Place) (entry : FileEntry) : FileTree :=
  ⟨(place, entry) :: t.entries.filter fun e => e.1 ≠ place⟩

/-- What stands at a place: what was put there, or a directory if something stands below. -/
def at? (t : FileTree) (place : Place) : Option FileEntry :=
  match t.entries.find? fun e => e.1 = place with
  | some e => some e.2
  | none =>
    if place = [] || t.entries.any fun e => place.isPrefixOf e.1 then some .directory else none

/-- Go one segment further. -/
def step (t : FileTree) (place : Place) (s : Path.Segment) : Except ReadError Place :=
  match t.at? place with
  | none => .error .noSuchFile
  | some (.file ..) => .error .notADirectory
  | some .directory =>
    if s = [] ∨ s = Path.here then .ok place
    else if s = Path.up then .ok place.dropLast
    else if (String.ofList s).utf8ByteSize > maxNameBytes then .error .nameTooLong
    else if (t.at? (place ++ [s])).isSome then .ok (place ++ [s])
    else .error .noSuchFile

/-- The place that a path leads to from the top. -/
def locate (t : FileTree) (path : String) : Except ReadError Place :=
  if path.toList.contains '\x00' then .error .nulInName
  else (Path.segments path.toList).foldlM t.step []

/-- What stands where a path leads. -/
def entry (t : FileTree) (path : String) : Except ReadError FileEntry := do
  let place ← t.locate path
  match t.at? place with
  | some e => return e
  | none => throw .noSuchFile

/-- The content of a file. -/
def read (t : FileTree) (path : String) : Except ReadError String := do
  match ← t.entry path with
  | .file content _ => return content
  | .directory => throw .isADirectory

/-- A file stands where a path leads. -/
def isFile (t : FileTree) (path : String) : Bool :=
  match t.entry path with
  | .ok (.file ..) => true
  | _ => false

/-- The tree as something that can be asked about paths seen from a directory. -/
def probe (t : FileTree) (dir : String) : FileProbe where
  check path executable :=
    match t.entry (Path.under dir path) with
    | .ok e => e.issue? executable
    | .error _ => some .notFound
  exists? path := (t.entry (Path.under dir path)).toBool

end FileTree

end PipelineCompiler

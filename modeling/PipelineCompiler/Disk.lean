import PipelineCompiler.FileTree

/-!
# Disks

A disk holds files and the repositories of working copies. A directory belongs to the working copy that
is met first on the way up; a `.git` that is a file ends the way, because it leads to no repository.
-/

namespace PipelineCompiler

/-- What is known about the repository of a working copy. -/
structure Repository where
  /-- The branch that is checked out, once it has a commit. -/
  branch : Option String := none
  /-- The address of the origin. -/
  origin : Option String := none
deriving DecidableEq, Repr, Inhabited

/-- Files, and the repositories by the directories of their working copies. -/
structure Disk where
  files : FileTree := {}
  repositories : List (Place × Repository) := []
deriving DecidableEq, Repr, Inhabited

namespace Disk

/-- Name of the directory that a working copy keeps its repository in. -/
def repositoryName : Path.Segment := ".git".toList

/-- Make a directory a working copy. -/
def addRepository (d : Disk) (place : Place) (r : Repository) : Disk where
  files := d.files.put (place ++ [repositoryName]) .directory
  repositories := (place, r) :: d.repositories

/-- A place and the places above it, upwards. -/
def upward (place : Place) : List Place :=
  (List.range (place.length + 1)).map fun k => place.take (place.length - k)

/-- The repository that the first of the places belongs to. -/
def firstRepository? (d : Disk) : List Place → Option Repository
  | [] => none
  | place :: above =>
    match d.files.at? (place ++ [repositoryName]) with
    | some (.file ..) => none
    | none => firstRepository? d above
    | some .directory =>
      match d.repositories.find? fun r => r.1 = place with
      | some r => some r.2
      | none => firstRepository? d above

/-- The repository that a place belongs to. -/
def repository? (d : Disk) (place : Place) : Option Repository := d.firstRepository? (upward place)

/-! ## Questions about a working copy -/

/-- Why a question about a working copy has no answer. -/
inductive GitFault where
  | notInstalled
  | directory (e : ReadError)
  | noBranch
  | noOrigin
deriving DecidableEq, Repr

/-- The words for a fault. -/
def GitFault.message : GitFault → String
  | .notInstalled => "looks like you don't have git installed"
  | .directory e => e.message
  | .noBranch => "looks like you are not on a branch, is this a git repository with commits?"
  | .noOrigin => "looks like you don't have a remote origin configured"

/-- Ask the repository of a directory. An answer is not blank, and a directory that is not there cannot
be told from a program that is not there. -/
def ask (d : Disk) (dir : String) (question : Repository → Option String) (noAnswer : GitFault) :
    Except GitFault String := do
  match d.files.locate dir with
  | .error .noSuchFile => throw .notInstalled
  | .error e => throw (.directory e)
  | .ok place =>
    if d.files.at? place ≠ some .directory then throw (.directory .notADirectory)
    match ((d.repository? place).bind question).map Text.trim with
    | none | some "" => throw noAnswer
    | some answer => return answer

/-- What git knows in a directory. -/
def git (d : Disk) (dir : String) : GitState where
  branch := (d.ask dir (·.branch) .noBranch).mapError GitFault.message
  origin := (d.ask dir (·.origin) .noOrigin).mapError GitFault.message

end Disk

end PipelineCompiler

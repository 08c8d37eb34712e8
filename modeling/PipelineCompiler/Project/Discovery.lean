import PipelineCompiler.Disk.Applications
import PipelineCompiler.Manifest.Source
import PipelineCompiler.Project

/-!
# Finding a project

A manifest is found by its name in a directory, and its working copy by going up from there to the first
directory that holds a repository.
-/

namespace PipelineCompiler

/-- Names that the file of a manifest may have. -/
def Manifest.fileNames : List String := [".halfpipe.io", ".halfpipe.io.yml", ".halfpipe.io.yaml"]

/-- Why a manifest or its project is not found. -/
inductive ProjectFault where
  | noManifest (dir : String)
  | multipleManifests (names : List String)
  | notInRepository (dir : String)
  | unreadable (path : String) (e : ReadError)
  | empty (path : String)
  | malformed (path : String)
deriving DecidableEq, Repr

namespace ProjectFault

/-- The words for a fault. -/
def message : ProjectFault → String
  | noManifest dir =>
    "couldn't find any of the allowed " ++ ", ".intercalate Manifest.fileNames ++ " files in " ++ dir
  | multipleManifests names =>
    "found " ++ ", ".intercalate names ++ " files, please remove all but one"
  | notInRepository dir =>
    "looks like you are not executing halfpipe from within a git repo: " ++ dir
  | unreadable path _ => "failed to read " ++ path
  | empty path => path ++ " is empty"
  | malformed path => "failed to parse " ++ path ++ ": " ++ parserAccount

/-- The words for a fault and for what it comes from. -/
def fullMessage : ProjectFault → String
  | unreadable path e => message (unreadable path e) ++ ": " ++ e.message
  | f => f.message

/-- What a user can do about a fault. -/
def help? : ProjectFault → Option String
  | noManifest _ => some "Create a .halfpipe.io file, or point at one with --manifest"
  | malformed _ => some "See https://docs.halfpipe.io/manifest/ for the manifest format"
  | _ => none

end ProjectFault

namespace Disk

/-! ## Manifests -/

/-- The path of the one manifest in a directory. -/
def findManifest (d : Disk) (dir : String) : Except ProjectFault String :=
  match Manifest.fileNames.filter fun name => d.files.isFile (Path.under dir name) with
  | [] => .error (.noManifest dir)
  | [name] => .ok (Path.under dir name)
  | names => .error (.multipleManifests names)

/-- Read the manifest at a path. -/
def loadManifest (d : Disk) (path : String) : Except ProjectFault Manifest :=
  match d.files.read path with
  | .error e => .error (.unreadable path e)
  | .ok text =>
    match Manifest.ofText text with
    | .ok m => .ok m
    | .error .empty => .error (.empty path)
    | .error .malformed => .error (.malformed path)

/-! ## Projects -/

/-- The text of a place. -/
def placeText (place : Place) : String := String.ofList ('/' :: Path.text place)

/-- The place of a directory, or the segments of its path if it leads nowhere. -/
def placeOrSegments (d : Disk) (dir : String) : Place :=
  match d.files.locate dir with
  | .ok place => place
  | .error _ => (Path.segments dir.toList).filter fun s => s ≠ [] ∧ s ≠ Path.here

/-- Find the project that a directory belongs to. -/
def discover (d : Disk) (dir : String) : Except ProjectFault Project :=
  let place := d.placeOrSegments dir
  let holdsRepository (root : Place) : Bool :=
    (d.files.entry (placeText (root ++ [repositoryName]))).toBool
  match (upward place).find? holdsRepository with
  | none =>
    .error (.notInRepository (if (d.files.locate dir).toBool then placeText place else dir))
  | some root =>
    let below := (place.drop root.length).filter (· ≠ Path.up)
    let name := match root.getLast? with
      | some s => if s = Path.up then [] else s
      | none => []
    .ok {
      basePath := String.ofList (Path.text below)
      rootName := String.ofList name
      gitUri := (d.git dir).origin.toOption
    }

end Disk

end PipelineCompiler

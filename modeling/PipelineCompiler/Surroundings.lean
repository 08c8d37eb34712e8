import PipelineCompiler.Vars

/-!
# Surroundings of a manifest

What can be asked about the world around a manifest: the files next to it, the working copy it lives in
and the applications that its deployments describe. Paths are relative to the directory of the
manifest.
-/

namespace PipelineCompiler

/-- Why a file cannot be used. -/
inductive FileIssue where
  | notFound
  | isDirectory
  | empty
  | notExecutable
deriving DecidableEq, Repr

/-- The words for an issue. -/
def FileIssue.text : FileIssue → String
  | .notFound => "does not exist"
  | .isDirectory => "is not a file"
  | .empty => "is empty"
  | .notExecutable => "is not executable"

/-- What stands at a path. -/
inductive FileEntry where
  | file (content : String) (executable : Bool)
  | directory
deriving DecidableEq, Repr

/-- What keeps an entry from being a file with content, and an executable one if that is asked. -/
def FileEntry.issue? (executable : Bool) : FileEntry → Option FileIssue
  | .directory => some .isDirectory
  | .file content isExecutable =>
    if content.isEmpty then some .empty
    else if executable && !isExecutable then some .notExecutable
    else none

/-- Questions about files. -/
structure FileProbe where
  /-- What keeps the path from being a file with content, and an executable one if that is asked. -/
  check : (path : String) → (executable : Bool) → Option FileIssue
  /-- A file or directory stands at the path. -/
  exists? : (path : String) → Bool

/-- What is known about the working copy; a failure is a message. -/
structure GitState where
  branch : Except String String := .ok "main"
  origin : Except String String := .ok ""

/-- An application that a manifest for Cloud Foundry describes. -/
structure Application where
  name : String := ""
  routes : List String := []
  noRoute : Bool := false
  healthCheckType : String := ""
  buildpack : String := ""
  dockerImage : String := ""
deriving DecidableEq, Repr, Inhabited

/-- The applications of the manifest at a path, given files with variables and further variables. A
failure is a message. -/
abbrev Inventory := (path : String) → (varsFiles : List String) → Vars → Except String (List Application)

/-- Everything around a manifest. -/
structure Surroundings where
  files : FileProbe
  git : GitState
  inventory : Inventory

end PipelineCompiler

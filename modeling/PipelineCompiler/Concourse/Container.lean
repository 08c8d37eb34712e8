import PipelineCompiler.Concourse.Pipeline
import PipelineCompiler.Image
import PipelineCompiler.Path
import PipelineCompiler.Script

/-!
# Inside a container

The directories that a container is given stand side by side in its root. A script runs in the
directory of the manifest inside of the working copy, from where it climbs to the root to reach the
others.
-/

namespace PipelineCompiler.Concourse

/-! ## Directories -/

/-- Directory of the working copy. -/
def gitDir : String := "git"

/-- Directory of artifacts that a script saves. -/
def savedDir : String := "artifacts-out"

/-- Directory of artifacts that a script saves when it fails. -/
def savedOnFailureDir : String := "artifacts-out-failure"

/-- Directory of restored artifacts. -/
def restoredDir : String := "artifacts"

/-- File with the revision, from the root. -/
def revisionFile : String := "git/.git/ref"

/-- The directory of the manifest, from the root. -/
def workingDir (basePath : String) : String := Path.join [gitDir, basePath]

/-- File with the revision, from the directory of the manifest. -/
def revisionPath (basePath : String) : String :=
  Path.join [Path.climb (Path.depth basePath), ".git/ref"]

/-- File with the version, from the directory of the manifest. -/
def versionPath (basePath : String) : String :=
  Path.join [Path.climb (Path.depth basePath), "../version/version"]

/-- The directory that holds a path, slashes at whose end do not count. -/
def parentDir (path : String) : String :=
  match Text.splitLast? '/' (Text.trimEnds path "/") with
  | some (parent, _) => parent
  | none => ""

/-- The directory below `output` that an artifact is copied to, from the directory of the manifest. The
artifact keeps its place relative to the manifest. -/
def artifactDestination (git basePath output artifact : String) : String :=
  Path.join
    [Path.climb (Path.depth (Path.join [git, basePath])), output, basePath, parentDir artifact]

/-! ## Images -/

/-- An image of the installation, with its login. -/
def installationSource (c : Config) (name tag : String) : Settings :=
  .ofTexts
    [("repository", c.registryImage name), ("tag", tag), ("password", Script.registryKey),
      ("username", Script.registryUser)]

/-- An image with its tag, and with its login if user and password are both given. -/
def imageSource (d : Docker) : Settings :=
  let (repository, tag) := Image.split d.image
  .ofTexts <|
    [("repository", repository), ("tag", tag)]
      ++ (if d.username.isEmpty || d.password.isEmpty then []
        else [("username", d.username), ("password", d.password)])

/-- Run a shell script. -/
def shell (script : String) (dir : Option String := none) : Command :=
  { path := "/bin/sh", args := ["-c", script], dir }

/-! ## Limits -/

/-- Attempts of steps that talk to other systems. -/
def transferAttempts : Nat := 2

/-- Time limit of steps that talk to other systems. -/
def transferTimeout : String := "15m"

/-- The step under the limits of steps that talk to other systems. -/
def Step.asTransfer (s : Step) : Step := s.within transferAttempts transferTimeout

/-- The step under the limits of a leaf. -/
def Step.forLeaf (s : Step) (l : Leaf) : Step := s.within l.attempts l.timeout

end PipelineCompiler.Concourse

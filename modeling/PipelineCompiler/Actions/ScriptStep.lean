import PipelineCompiler.Actions.Runner
import PipelineCompiler.Task.Artifacts

/-!
# Running scripts

A job checks out the repository and restores artifacts if its leaf reads any. A script runs in its
image, or on the machine itself if it names none or needs the daemon that runs containers. Afterwards
the artifacts it names are uploaded.
-/

namespace PipelineCompiler.Actions

/-- Name of the artifacts that jobs save. -/
def savedName : String := "artifacts"

/-- Name of the artifacts that jobs save when they fail. -/
def savedOnFailureName : String := "artifacts-failed"

/-- Directory of restored artifacts, from the directory of the manifest. -/
def restoredDir : String := "../artifacts"

/-- Condition of steps that run when an earlier one failed. -/
def onFailureCondition : String := "failure()"

/-- Check out the repository, and restore artifacts if the leaf reads any. -/
def prepareSteps (basePath : String) (l : Leaf) : List Step :=
  let restore : Step :=
    useStep "Restore artifacts" "actions/download-artifact@v2"
      (.ofTexts [("name", savedName), ("path", repoPath basePath restoredDir)])
  [useStep "Checkout code" "actions/checkout@v2"] ++ (if l.readsArtifacts then [restore] else [])

/-- Upload artifacts under a name. -/
def uploadStep (basePath stepName name : String) (artifacts : List String) : Step :=
  useStep stepName "actions/upload-artifact@v2"
    (.ofTexts [("name", name), ("path", "\n".intercalate (artifacts.map (repoPath basePath)))])

/-- Upload what a leaf saves. -/
def saveSteps (basePath : String) (a : Attributes) : List Step :=
  let saved := uploadStep basePath "Package artifacts" savedName a.saveArtifacts
  let savedOnFailure :=
    uploadStep basePath "Package artifacts (failure)" savedOnFailureName a.saveArtifactsOnFailure
  (if a.saveArtifacts.isEmpty then [] else [saved])
    ++ (if a.saveArtifactsOnFailure.isEmpty then []
      else [{ savedOnFailure with condition := some onFailureCondition }])

/-- Log in to the registry of an image. -/
def loginStep (image username password : String) : Step :=
  let host : List (String × String) :=
    match registryHost? image with
    | some host => [("registry", host)]
    | none => []
  useStep "Login to registry" "docker/login-action@v1"
    (.ofTexts (host ++ [("username", username), ("password", readSecret password)]))

/-- Log in to the registry of a private image. -/
def loginSteps (d : Docker) : List Step :=
  if d.image.isEmpty || d.username.isEmpty then [] else [loginStep d.image d.username d.password]

/-- Name of the step that runs the script of a job. -/
def scriptStepName : String := "run"

/-- Run a script. -/
def scriptStep (basePath : String) (s : Script) : Step :=
  let command := Script.command s.run.script
  let step :=
    if s.privileged || s.run.docker.image.isEmpty then
      { work := .run command (if basePath.isEmpty then none else some basePath)
        name := some scriptStepName : Step }
    else shellStep scriptStepName s.run.docker.image basePath command
  { step with env := secretEnv s.attributes.vars }

/-- The steps of a script. -/
def scriptSteps (basePath : String) (s : Script) : List Step :=
  prepareSteps basePath s.leaf
    ++ (if s.privileged then [] else loginSteps s.run.docker)
    ++ [scriptStep basePath s]
    ++ saveSteps basePath s.attributes

end PipelineCompiler.Actions

import PipelineCompiler.Task
import PipelineCompiler.Trigger

/-!
# Manifests

A manifest describes one pipeline: who owns it, what starts it and what it runs.
-/

namespace PipelineCompiler

/-- The build server a pipeline is written for. -/
inductive Platform where
  | concourse
  | actions
deriving DecidableEq, Repr, Inhabited

/-- The word for a platform. -/
def Platform.name : Platform → String
  | .concourse => "concourse"
  | .actions => "actions"

/-- The platform a word stands for. -/
def Platform.ofName? : String → Option Platform
  | "concourse" => some .concourse
  | "actions" => some .actions
  | _ => none

/-- Where artifacts are kept instead of the configured store. -/
structure ArtifactConfig where
  bucket : String := ""
  jsonKey : String := ""
deriving DecidableEq, Repr, Inhabited

/-- The description of one pipeline. -/
structure Manifest where
  team : String := ""
  pipeline : String := ""
  slackChannel : String := ""
  slackSuccessMessage : String := ""
  slackFailureMessage : String := ""
  artifactConfig : ArtifactConfig := {}
  featureToggles : List String := []
  triggers : List Trigger := []
  tasks : List Task := []
  platform : Platform := .concourse
deriving Repr, Inhabited

/-! ## Feature toggles -/

/-- The toggle for a pipeline that updates itself and versions its builds. -/
def updatePipelineToggle : String := "update-pipeline"

/-- Every toggle there is. -/
def availableToggles : List String :=
  [updatePipelineToggle, "docker-decompose", "cf-v7", "new-deploy-resource"]

namespace Manifest

/-- The pipeline updates itself. -/
def updatesPipeline (m : Manifest) : Bool := m.featureToggles.contains updatePipelineToggle

/-- Builds carry a version, which comes with a pipeline that updates itself. -/
def isVersioned (m : Manifest) : Bool := m.updatesPipeline

/-- Toggles that do not exist. -/
def unknownToggles (m : Manifest) : List String :=
  m.featureToggles.filter fun t => !availableToggles.contains t

/-! ## Triggers and names -/

/-- The git trigger that counts, which is the first one. -/
def git? (m : Manifest) : Option GitTrigger := Trigger.firstGit? m.triggers

/-- The pipeline does not start by itself on new commits. -/
def gitIsManual (m : Manifest) : Bool := m.git?.any GitTrigger.manualTrigger

/-- Directory of the manifest in its repository. -/
def basePath (m : Manifest) : String := (m.git?.map GitTrigger.basePath).getD ""

/-- Branches whose pipelines carry the plain name. -/
def defaultBranches : List String := ["master", "main"]

/-- The name a pipeline is deployed under. A branch of its own is appended to it, so that the
pipelines of two branches do not overwrite each other. -/
def pipelineName (m : Manifest) : String :=
  match m.git? with
  | some git =>
    if git.branch.isEmpty || defaultBranches.contains git.branch then m.pipeline
    else m.pipeline ++ "-" ++ git.branch
  | none => m.pipeline

/-- The bucket for artifacts, given the configured one. -/
def artifactsBucket (m : Manifest) (configured : String) : String :=
  orElse m.artifactConfig.bucket configured

/-- The key to the bucket for artifacts, given the configured one. -/
def artifactsJsonKey (m : Manifest) (configured : String) : String :=
  orElse m.artifactConfig.jsonKey configured

end Manifest

end PipelineCompiler

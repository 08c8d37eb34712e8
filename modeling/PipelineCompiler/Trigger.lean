import PipelineCompiler.Text.Identifier

/-!
# Triggers

What starts a pipeline: commits to its repository, a schedule, a new image, or a job of another
pipeline.
-/

namespace PipelineCompiler

/-- The repository that drives a pipeline. -/
structure GitTrigger where
  /-- Blank stands for the origin of the working copy. -/
  uri : String := ""
  branch : String := ""
  privateKey : String := ""
  gitCryptKey : String := ""
  watchedPaths : List String := []
  ignoredPaths : List String := []
  shallow : Bool := false
  manualTrigger : Bool := false
  /-- Directory of the manifest in the repository. It is found out and never written. -/
  basePath : String := ""
deriving DecidableEq, Repr, Inhabited

/-- A schedule of five fields. -/
structure TimerTrigger where
  cron : String := ""
deriving DecidableEq, Repr, Inhabited

/-- New versions of an image. -/
structure DockerTrigger where
  image : String := ""
  username : String := ""
  password : String := ""
deriving DecidableEq, Repr, Inhabited

/-- A job of another pipeline. -/
structure PipelineTrigger where
  concourseUrl : String := "((concourse.url))"
  username : String := "((concourse.username))"
  password : String := "((concourse.password))"
  team : String := ""
  pipeline : String := ""
  job : String := ""
  status : String := "succeeded"
deriving DecidableEq, Repr, Inhabited

/-- What starts a pipeline. -/
inductive Trigger where
  | git (trigger : GitTrigger)
  | timer (trigger : TimerTrigger)
  | docker (trigger : DockerTrigger)
  | pipeline (trigger : PipelineTrigger)
deriving DecidableEq, Repr

/-- The branch that is followed; a blank one stands for `master`. -/
def GitTrigger.branchOrDefault (g : GitTrigger) : String :=
  if g.branch.isEmpty then "master" else g.branch

namespace Trigger

/-- Name of the resource that a trigger becomes. -/
def name : Trigger → String
  | .git _ => "git"
  | .timer _ => "cron"
  | .docker _ => "docker-trigger"
  | .pipeline p => Text.identifier (p.team ++ "." ++ p.pipeline ++ "." ++ p.job)

/-- The type tag of a trigger. -/
def kind : Trigger → String
  | .git _ => "git"
  | .timer _ => "timer"
  | .docker _ => "docker"
  | .pipeline _ => "pipeline"

/-- The git trigger, if it is one. -/
def git? : Trigger → Option GitTrigger
  | .git g => some g
  | _ => none

/-- The docker trigger, if it is one. -/
def docker? : Trigger → Option DockerTrigger
  | .docker d => some d
  | _ => none

/-- The first git trigger of a list. -/
def firstGit? (triggers : List Trigger) : Option GitTrigger := triggers.findSome? git?

/-- Change the first git trigger of a list. -/
def mapFirstGit (f : GitTrigger → GitTrigger) : List Trigger → List Trigger
  | [] => []
  | .git g :: rest => .git (f g) :: rest
  | t :: rest => t :: mapFirstGit f rest

end Trigger

end PipelineCompiler

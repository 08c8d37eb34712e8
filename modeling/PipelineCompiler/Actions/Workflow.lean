import PipelineCompiler.Setting

/-!
# Workflows of GitHub Actions

A workflow is started by events and consists of jobs, each with the jobs it needs. A job runs its steps
one after the other; a step uses an action or runs a command.
-/

namespace PipelineCompiler.Actions

/-- Commits that start a workflow. -/
structure Push where
  branches : List String := []
  paths : List String := []
  pathsIgnore : List String := []
deriving DecidableEq, Repr

/-- Events that start a workflow. It can always be started by hand. -/
structure Events where
  push : Option Push := none
  /-- Types of events that other workflows send. -/
  dispatches : List String := []
  /-- Schedules of five fields. -/
  crons : List String := []
deriving DecidableEq, Repr, Inhabited

/-- What a step does. -/
inductive Work where
  | uses (action : String)
  /-- Run a command, in a directory unless it is the root of the working copy. -/
  | run (command : String) (dir : Option String := none)
deriving DecidableEq, Repr

/-- A step of a job. -/
structure Step where
  work : Work
  name : Option String := none
  id : Option String := none
  condition : Option String := none
  inputs : Settings := []
  env : Env := []
deriving DecidableEq, Repr

namespace Step

/-- The action that a step uses. -/
def action? (s : Step) : Option String :=
  match s.work with
  | .uses action => some action
  | .run _ _ => none

/-- The directory that the command of a step runs in. -/
def dir? (s : Step) : Option String :=
  match s.work with
  | .uses _ => none
  | .run _ dir => dir

/-- A text that an action is handed. -/
def input? (s : Step) (name : String) : Option String := (named? s.inputs name).bind Setting.text?

end Step

/-- A job. -/
structure Job where
  id : String
  name : String
  needs : List String := []
  timeoutMinutes : Nat
  env : Env := []
  steps : List Step
deriving DecidableEq, Repr

/-- Label of the machines that jobs run on. -/
def Job.runner : String := "ubuntu-20.04"

/-- The first step of a job with a name. -/
def Job.step? (j : Job) (name : String) : Option Step := j.steps.find? fun s => s.name = some name

/-- The part of an action's name ahead of its version. -/
def bareAction (action : String) : String :=
  String.ofList (action.toList.takeWhile (· ≠ '@'))

/-- The steps of a job that use an action, in whatever version. -/
def Job.stepsUsing (j : Job) (action : String) : List Step :=
  j.steps.filter fun s => s.action?.any fun used => bareAction used = action

/-- A workflow. -/
structure Workflow where
  name : String
  on : Events := {}
  env : Env := []
  jobs : List Job := []
deriving DecidableEq, Repr

end PipelineCompiler.Actions

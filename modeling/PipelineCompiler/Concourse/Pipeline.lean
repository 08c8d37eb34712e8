import PipelineCompiler.Setting

/-!
# Concourse pipelines

A pipeline declares resources, with the types that the build server does not bring along, and jobs. A
job is a plan of steps that fetch a resource, push to one, run a container or run other steps at the
same time, and of steps that follow the plan according to its outcome.
-/

namespace PipelineCompiler.Concourse

/-! ## Resources -/

/-- A type of resources, brought along as an image. -/
structure ResourceType where
  name : String
  source : Settings
  checkEvery : Option String := none
  uniqueVersionHistory : Option Bool := none
deriving DecidableEq, Repr

/-- Something with versions that jobs fetch and push. -/
structure Resource where
  name : String
  kind : String
  source : Settings
  checkEvery : Option String := none
deriving DecidableEq, Repr

/-! ## Tasks -/

/-- Kind of the images that tasks and resource types are fetched as. -/
def imageKind : String := "registry-image"

/-- What a container runs, and in which directory. -/
structure Command where
  path : String
  args : List String := []
  dir : Option String := none
deriving DecidableEq, Repr

/-- A container: its image, environment and command, and the directories it shares. -/
structure Container where
  image : Settings
  env : Env := []
  command : Command
  inputs : List String := []
  outputs : List String := []
deriving DecidableEq, Repr

/-! ## Steps -/

/-- Fetch a resource. -/
structure Get where
  resource : String
  /-- A new version starts the job. -/
  trigger : Bool := false
  /-- Jobs that a version has to have passed. -/
  passed : List String := []
  params : Settings := []
deriving DecidableEq, Repr

/-- Push to a resource. -/
structure Put where
  name : String
  /-- Unset where the step is named for its resource. -/
  target : Option String := none
  params : Settings := []
deriving DecidableEq, Repr

/-- The resource that is pushed to. -/
def Put.resource (p : Put) : String := p.target.getD p.name

/-- Run a container. -/
structure TaskStep where
  name : String
  privileged : Bool := false
  container : Container
deriving DecidableEq, Repr

/-- How often a step is run and how long it may take. -/
structure Limits where
  attempts : Option Nat := none
  timeout : Option String := none
deriving DecidableEq, Repr, Inhabited

/-- A step of a plan. Steps that run at the same time are given up as soon as one fails. -/
inductive Step where
  | get (get : Get) (limits : Limits)
  | put (put : Put) (limits : Limits)
  | task (task : TaskStep) (limits : Limits)
  | parallel (steps : List Step) (limits : Limits)
deriving Repr

namespace Step

/-- Limits of a step. -/
def limits : Step → Limits
  | .get _ l | .put _ l | .task _ l | .parallel _ l => l

/-- The step under other limits. -/
def withLimits (l : Limits) : Step → Step
  | .get g _ => .get g l
  | .put p _ => .put p l
  | .task t _ => .task t l
  | .parallel steps _ => .parallel steps l

/-- The step with a timeout, and tried again if there is more than one attempt. -/
def within (s : Step) (attempts : Nat) (timeout : String) : Step :=
  s.withLimits ⟨if attempts > 1 then some attempts else none, some timeout⟩

/-- Steps that run at the same time; a single one stands for itself. -/
def together? : List Step → Option Step
  | [] => none
  | [s] => some s
  | steps => some (.parallel steps {})

/-- The word of a step; a group of steps has none. -/
def name? : Step → Option String
  | .get g _ => some g.resource
  | .put p _ => some p.name
  | .task t _ => some t.name
  | .parallel _ _ => none

/-- The container that a step runs. -/
def task? : Step → Option TaskStep
  | .task t _ => some t
  | _ => none

/-- What a step fetches. -/
def get? : Step → Option Get
  | .get g _ => some g
  | _ => none

/-- What a step pushes. -/
def put? : Step → Option Put
  | .put p _ => some p
  | _ => none

mutual

/-- The step and the steps inside of it, outer ones first. -/
def all : Step → List Step
  | .parallel steps l => .parallel steps l :: allOf steps
  | .get g l => [.get g l]
  | .put p l => [.put p l]
  | .task t l => [.task t l]

/-- The steps of a list and those inside of them, outer ones first. -/
def allOf : List Step → List Step
  | [] => []
  | s :: rest => s.all ++ allOf rest

end

mutual

/-- Change every get of a step. -/
def mapGets (f : Get → Get) : Step → Step
  | .get g l => .get (f g) l
  | .put p l => .put p l
  | .task t l => .task t l
  | .parallel steps l => .parallel (mapGetsOf f steps) l

/-- Change every get of a list of steps. -/
def mapGetsOf (f : Get → Get) : List Step → List Step
  | [] => []
  | s :: rest => s.mapGets f :: mapGetsOf f rest

end

end Step

/-! ## Jobs and pipelines -/

/-- A job. No two builds of it run at once, and one build that succeeded is always kept. -/
structure Job where
  name : String
  /-- Number of builds whose logs are kept. -/
  builds : Option Nat := none
  plan : List Step
  onSuccess : Option Step := none
  onFailure : Option Step := none
  ensure : Option Step := none
deriving Repr

namespace Job

/-- Every step of the plan, outer ones first. -/
def steps (j : Job) : List Step := Step.allOf j.plan

/-- The first container step of the plan with a name. -/
def task? (j : Job) (name : String) : Option TaskStep :=
  (j.steps.filterMap Step.task?).find? fun t => t.name = name

/-- What the plan fetches. -/
def gets (j : Job) : List Get := j.steps.filterMap Step.get?

/-- The steps that follow the plan. -/
def hooks (j : Job) : List Step :=
  j.onSuccess.toList ++ j.onFailure.toList ++ j.ensure.toList

end Job

/-- A pipeline. -/
structure Pipeline where
  types : List ResourceType := []
  resources : List Resource := []
  jobs : List Job := []
deriving Repr

namespace Pipeline

/-- The resource with a name. -/
def resource? (p : Pipeline) (name : String) : Option Resource :=
  p.resources.find? fun r => r.name = name

/-- The resource type with a name. -/
def type? (p : Pipeline) (name : String) : Option ResourceType :=
  p.types.find? fun t => t.name = name

/-- The job with a name. -/
def job? (p : Pipeline) (name : String) : Option Job := p.jobs.find? fun j => j.name = name

end Pipeline

end PipelineCompiler.Concourse

import PipelineCompiler.Concourse.Pipeline
import PipelineCompiler.Manifest.Writing

/-!
# Writing Concourse pipelines

The document form of a pipeline. What is unset, empty or switched off is left out.
-/

namespace PipelineCompiler.Concourse

/-- A field that is left out while it is unset. -/
def optionField (name : String) (f : α → Value) : Option α → List (String × Value)
  | some a => [(name, f a)]
  | none => []

/-- Settings that are left out when there are none. -/
def settingsField (name : String) (settings : Settings) : List (String × Value) :=
  if settings.isEmpty then [] else [(name, settings.toValue)]

/-- Directories that are left out when there are none. -/
def directoriesField (name : String) (dirs : List String) : List (String × Value) :=
  if dirs.isEmpty then []
  else [(name, .seq (dirs.map fun d => .record [("name", .str d)]))]

/-- The document form of a resource type. -/
def ResourceType.toValue (t : ResourceType) : Value :=
  .record <|
    [("name", .str t.name), ("type", .str imageKind), ("source", t.source.toValue)]
      ++ optionField "check_every" .str t.checkEvery
      ++ optionField "unique_version_history" .bool t.uniqueVersionHistory

/-- The document form of a resource. -/
def Resource.toValue (r : Resource) : Value :=
  .record <|
    [("name", .str r.name), ("type", .str r.kind), ("source", r.source.toValue)]
      ++ optionField "check_every" .str r.checkEvery

/-- The document form of a command. -/
def Command.toValue (c : Command) : Value :=
  .record <| [("path", .str c.path)] ++ listField "args" c.args ++ optionField "dir" .str c.dir

/-- The document form of a container. -/
def Container.toValue (c : Container) : Value :=
  .record <|
    [("platform", .str "linux"),
      ("image_resource", .record [("type", .str imageKind), ("source", c.image.toValue)])]
      ++ (if c.env.isEmpty then [] else [("params", c.env.toValue)])
      ++ [("run", c.command.toValue)]
      ++ directoriesField "inputs" c.inputs
      ++ directoriesField "outputs" c.outputs

/-- The fields of a get. -/
def Get.fields (g : Get) : List (String × Value) :=
  [("get", .str g.resource)]
    ++ flagField "trigger" g.trigger
    ++ listField "passed" g.passed
    ++ settingsField "params" g.params

/-- The fields of a put. -/
def Put.fields (p : Put) : List (String × Value) :=
  [("put", .str p.name)]
    ++ optionField "resource" .str p.target
    ++ settingsField "params" p.params

/-- The fields of a container step. -/
def TaskStep.fields (t : TaskStep) : List (String × Value) :=
  [("task", .str t.name)]
    ++ flagField "privileged" t.privileged
    ++ [("config", t.container.toValue)]

/-- The fields of limits. -/
def Limits.fields (l : Limits) : List (String × Value) :=
  optionField "attempts" .nat l.attempts ++ optionField "timeout" .str l.timeout

mutual

/-- The document form of a step. -/
def Step.toValue : Step → Value
  | .get g l => .record (g.fields ++ l.fields)
  | .put p l => .record (p.fields ++ l.fields)
  | .task t l => .record (t.fields ++ l.fields)
  | .parallel steps l =>
    .record <|
      [("in_parallel", .record [("steps", .seq (Step.toValues steps)), ("fail_fast", .bool true)])]
        ++ l.fields

/-- The document forms of a list of steps. -/
def Step.toValues : List Step → List Value
  | [] => []
  | s :: rest => s.toValue :: Step.toValues rest

end

/-- The document form of a job. -/
def Job.toValue (j : Job) : Value :=
  .record <|
    [("name", .str j.name), ("serial", .bool true),
      ("build_log_retention", .record <|
        [("minimum_succeeded_builds", .nat 1)] ++ optionField "builds" .nat j.builds),
      ("plan", .seq (Step.toValues j.plan))]
      ++ optionField "on_success" Step.toValue j.onSuccess
      ++ optionField "on_failure" Step.toValue j.onFailure
      ++ optionField "ensure" Step.toValue j.ensure

/-- The document form of a pipeline. -/
def Pipeline.toValue (p : Pipeline) : Value :=
  .record <|
    (if p.types.isEmpty then []
      else [("resource_types", .seq (p.types.map ResourceType.toValue))])
      ++ [("resources", .seq (p.resources.map Resource.toValue)),
        ("jobs", .seq (p.jobs.map Job.toValue))]

end PipelineCompiler.Concourse

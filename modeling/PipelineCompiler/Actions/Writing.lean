import PipelineCompiler.Actions.Workflow
import PipelineCompiler.Manifest.Writing

/-!
# Writing workflows

The document form of a workflow. What is unset or empty is left out.
-/

namespace PipelineCompiler.Actions

/-- A text field that is left out while it is unset. -/
def textFieldIfSet (name : String) : Option String → List (String × Value)
  | some s => [(name, .str s)]
  | none => []

/-- An environment that is left out when it is empty. -/
def envField (env : Env) : List (String × Value) :=
  if env.isEmpty then [] else [("env", env.toValue)]

/-- The document form of the commits that start a workflow. -/
def Push.toValue (p : Push) : Value :=
  .record <|
    listField "branches" p.branches
      ++ listField "paths" p.paths
      ++ listField "paths-ignore" p.pathsIgnore

/-- The document form of events. -/
def Events.toValue (e : Events) : Value :=
  .record <|
    (match e.push with
      | some p => [("push", p.toValue)]
      | none => [])
      ++ (if e.dispatches.isEmpty then []
        else [("repository_dispatch", .record [("types", .texts e.dispatches)])])
      ++ (if e.crons.isEmpty then []
        else [("schedule", .seq (e.crons.map fun cron => .record [("cron", .str cron)]))])
      ++ [("workflow_dispatch", .record [])]

/-- The fields of what a step does. -/
def Work.fields : Work → List (String × Value)
  | .uses action => [("uses", .str action)]
  | .run command dir => [("run", .str command)] ++ textFieldIfSet "working-directory" dir

/-- The document form of a step. -/
def Step.toValue (s : Step) : Value :=
  .record <|
    textFieldIfSet "name" s.name
      ++ textFieldIfSet "id" s.id
      ++ textFieldIfSet "if" s.condition
      ++ s.work.fields
      ++ (if s.inputs.isEmpty then [] else [("with", s.inputs.toValue)])
      ++ envField s.env

/-- The document form of a job. -/
def Job.toValue (j : Job) : Value :=
  .record <|
    [("name", .str j.name), ("runs-on", .str Job.runner)]
      ++ listField "needs" j.needs
      ++ [("timeout-minutes", .nat j.timeoutMinutes)]
      ++ envField j.env
      ++ [("steps", .seq (j.steps.map Step.toValue))]

/-- The document form of a workflow. -/
def Workflow.toValue (w : Workflow) : Value :=
  .record <|
    [("name", .str w.name), ("on", w.on.toValue)]
      ++ envField w.env
      ++ (if w.jobs.isEmpty then []
        else [("jobs", .record (w.jobs.map fun j => (j.id, j.toValue)))])

end PipelineCompiler.Actions

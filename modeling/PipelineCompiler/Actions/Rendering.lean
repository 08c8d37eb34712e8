import PipelineCompiler.Actions.Deployment
import PipelineCompiler.Actions.ImageBuild
import PipelineCompiler.Naming

/-!
# Workflows of manifests

Every leaf becomes one job, which needs the jobs before it. Triggers become events; one by another
pipeline has no counterpart, and neither have the attempts of a leaf.
-/

namespace PipelineCompiler.Actions

/-! ## Events -/

/-- Add the event of a trigger. Of several git triggers the last one counts. -/
def Events.add (e : Events) : Trigger → Events
  | .git g =>
    if g.manualTrigger then e
    else { e with push := some ⟨[g.branchOrDefault], g.watchedPaths, g.ignoredPaths⟩ }
  | .timer t => { e with crons := e.crons ++ [t.cron] }
  | .docker d => { e with dispatches := e.dispatches ++ [ImageBuild.event d.image] }
  | .pipeline _ => e

/-- The events of the triggers of a manifest. -/
def Events.ofManifest (m : Manifest) : Events := m.triggers.foldl Events.add {}

/-! ## Messages -/

/-- The place in the build server that messages link to. -/
def buildLink : String :=
  expression "github.server_url" ++ "/" ++ expression "github.repository" ++ "/actions/runs/"
    ++ expression "github.run_id"

/-- The job that a message is about. -/
def jobTitle : String := expression "github.workflow" ++ "/" ++ expression "github.job"

/-- Message for success where the author gave none. -/
def successMessage : String := "Success! " ++ jobTitle ++ "\n" ++ buildLink

/-- Message for failure where the author gave none. -/
def failureMessage : String := "Failed :( " ++ jobTitle ++ "\n" ++ buildLink

/-- Send a message to a channel. -/
def messageStep (text outcome channel : String) : Step :=
  useStep ("Notify slack " ++ channel ++ " (" ++ outcome ++ ")") "yukin01/slack-bot-action@v0.0.4"
    (.ofTexts
      [("status", expression "job.status"), ("oauth_token", expression "secrets.EE_SLACK_TOKEN"),
        ("channel", channel), ("text", text)])

/-- Messages on failure, then those on success. -/
def messageSteps (l : Leaf) : List Step :=
  match l.attributes.notifications with
  | none => []
  | some n =>
    (n.onFailure.map fun channel =>
        { messageStep (n.failureMessageOr failureMessage) "failure" channel with
          condition := some onFailureCondition })
      ++ n.onSuccess.map (messageStep (n.successMessageOr successMessage) "success")

/-! ## Jobs -/

/-- What a leaf is for. -/
def body (c : Config) (m : Manifest) (l : Leaf) : Except RenderError (List Step) :=
  match l.action with
  | .dockerPush p => .ok (ImageBuild.steps m.basePath l p)
  | .deployCf d prePromote => CloudFoundry.steps c m l d prePromote
  | .deployKatee d => .ok (kateeSteps c m l d)
  | .update u => .ok (updateSteps c m l u)
  | .run _ | .dockerCompose _ | .consumerTest _ | .deployMlZip _ | .deployMlModules _ =>
    match Script.ofLeaf? c m l with
    | some script => .ok (scriptSteps m.basePath script)
    | none => .error (.script l.kind)

/-- Variables that all steps of a job share. Those of an image build are arguments of the build. -/
def jobEnv (l : Leaf) : Env :=
  match l.action with
  | .dockerPush _ => secretEnv l.attributes.vars
  | _ => []

/-- The job of a leaf. -/
def job (c : Config) (m : Manifest) (id : String) (l : Leaf) (needs : List String) :
    Except RenderError Job := do
  let steps ← body c m l
  return {
    id
    name := l.name
    needs
    timeoutMinutes := timeoutMinutes l.timeout
    env := jobEnv l
    steps := steps ++ messageSteps l }

/-- Ids of the jobs of a workflow. -/
def jobIndex (m : Manifest) : JobIndex := JobIndex.ofTasks m.tasks fun l => jobId l.name

/-- The jobs of a manifest, in the order in which its leaves run. -/
def jobs (c : Config) (m : Manifest) : Except RenderError (List Job) :=
  let index := jobIndex m
  (Task.leaves m.tasks).mapM fun (path, l) =>
    job c m ((index.name? path).getD (jobId l.name)) l (index.passed m.tasks path)

/-- The workflow of a manifest whose defaults are filled in. One without tasks needs no environment. -/
def render (c : Config) (m : Manifest) : Except RenderError Workflow := do
  Task.checkShape m.tasks
  let jobs ← jobs c m
  return {
    name := m.pipeline
    on := Events.ofManifest m
    env := if m.tasks.isEmpty then [] else globalEnv
    jobs }

end PipelineCompiler.Actions

import PipelineCompiler.Concourse.Deployment
import PipelineCompiler.Concourse.ImageBuild

/-!
# Pipelines of manifests

Every leaf becomes one job. Its plan first fetches what the triggers stand for, in versions that passed
the jobs before it, then restores artifacts if the leaf reads any, and then does what the leaf is for.
Messages and uploads that depend on the outcome follow the plan.
-/

namespace PipelineCompiler.Concourse

/-! ## What starts a job -/

/-- A new version of a resource starts the job of a leaf. With a version in place, it alone starts
ordinary jobs, and the triggers start the update. A manual git trigger starts nothing. -/
def startsJob (resource : String) (isUpdate versioned manualGit : Bool) : Bool :=
  let isGit := resource = gitName
  if isUpdate then !isGit || !manualGit
  else if resource = versionName then true
  else if isGit then !versioned && !manualGit
  else !versioned

/-- What a job fetches for a trigger. Jobs that wait for the version fetch the repository only. -/
def triggerGet? (resources : ResourceSet) (gated : Bool) : Trigger × Nat → Option Get
  | (t, i) =>
    let resource := (resources.trigger? i).getD t.name
    match t with
    | .git g =>
      some { resource, params := if g.shallow then [("depth", .number 1)] else [] }
    | .timer _ | .pipeline _ => if gated then none else some { resource }
    | .docker _ =>
      if gated then none else some { resource, params := [("skip_download", .flag true)] }

/-- The version gates a leaf. -/
def isGated (m : Manifest) (l : Leaf) : Bool := !l.isUpdate && m.isVersioned

/-- What the job of a leaf fetches. -/
def leafGets (m : Manifest) (resources : ResourceSet) (l : Leaf) (passed : List String) : List Get :=
  let gated := isGated m l
  let gets :=
    m.triggers.zipIdx.filterMap (triggerGet? resources gated)
      ++ (if gated then [{ resource := versionName }] else [])
  gets.map fun g =>
    { g with
      passed
      trigger :=
        !l.attributes.manualTrigger && startsJob g.resource l.isUpdate m.isVersioned m.gitIsManual }

/-- The beginning of a plan. -/
def initialPlan (c : Config) (m : Manifest) (resources : ResourceSet) (l : Leaf)
    (passed : List String) : List Step :=
  let gets := (leafGets m resources l passed).map fun g => Step.get g {}
  ((Step.together? gets).map Step.asTransfer).toList
    ++ (if l.readsArtifacts then [restoreStep c m] else [])

/-! ## What follows a plan -/

/-- The place in the build server that messages link to. -/
def buildLink : String :=
  "$ATC_EXTERNAL_URL/teams/$BUILD_TEAM_NAME/pipelines/$BUILD_PIPELINE_NAME/jobs/$BUILD_JOB_NAME/builds/$BUILD_NAME"

/-- Message for success where the author gave none. -/
def successMessage : String := "Success! $BUILD_PIPELINE_NAME/$BUILD_JOB_NAME\n" ++ buildLink

/-- Message for failure where the author gave none. -/
def failureMessage : String := "Failed :( $BUILD_PIPELINE_NAME/$BUILD_JOB_NAME\n" ++ buildLink

/-- Send a message to a channel. -/
def messageStep (text status channel : String) : Step :=
  .put
    { name := slackName
      params := .ofTexts
        [("channel", channel), ("text", text),
          ("icon_url", "https://concourse.halfpipe.io/public/images/favicon-" ++ status ++ ".png"),
          ("username", "Halfpipe")] }
    {}

/-- Upload what a script saved when it failed. -/
def saveOnFailureStep : Step :=
  .put
    { name := savedOnFailureName
      params := .ofTexts
        [("folder", savedOnFailureDir), ("version_file", revisionFile), ("postfix", "failure")] }
    {}

/-- What follows a plan that failed. -/
def onFailure (l : Leaf) : Option Step :=
  let saves := if l.savesArtifactsOnFailure then [saveOnFailureStep] else []
  let messages :=
    match l.attributes.notifications with
    | some n => n.onFailure.map (messageStep (n.failureMessageOr failureMessage) "failed")
    | none => []
  (Step.together? (saves ++ messages)).map Step.asTransfer

/-- What follows a plan that succeeded. -/
def onSuccess (l : Leaf) : Option Step :=
  match l.attributes.notifications with
  | some n =>
    (Step.together?
      (n.onSuccess.map (messageStep (n.successMessageOr successMessage) "succeeded"))).map
      Step.asTransfer
  | none => none

/-! ## Jobs -/

/-- What a leaf is for, and the step that follows it whatever happens. A deployment declares its target
unless it is there. -/
def body (c : Config) (m : Manifest) (resources : ResourceSet) (l : Leaf) :
    Except RenderError (List Step × Option Step × ResourceSet) :=
  match l.action with
  | .dockerPush p => .ok (ImageBuild.steps c m l p, none, resources)
  | .deployCf d prePromote => do
    let (resource, declared) := resources.addDeploy c m.featureToggles d
    let (steps, cleanup) ← CloudFoundry.steps c m l d prePromote resource
    return (steps, cleanup, declared)
  | .deployKatee d => .ok ([kateeStep c m l d], none, resources)
  | .update u => .ok (updateSteps c m l u, none, resources)
  | .run _ | .dockerCompose _ | .consumerTest _ | .deployMlZip _ | .deployMlModules _ =>
    match Script.ofLeaf? c m l with
    | some script => .ok (ScriptStep.steps m script, none, resources)
    | none => .error (.script l.kind)

/-- The job of a leaf, and the resources that are declared after it. -/
def job (c : Config) (m : Manifest) (resources : ResourceSet) (name : String) (l : Leaf)
    (passed : List String) : Except RenderError (Job × ResourceSet) := do
  let (steps, ensure, declared) ← body c m resources l
  return (
    { name
      builds := l.attributes.buildHistory.bind fun n => if n = 0 then none else some n.toNat
      plan := initialPlan c m resources l passed ++ steps
      onSuccess := onSuccess l
      onFailure := onFailure l
      ensure },
    declared)

/-- Names of the jobs of a pipeline. -/
def jobIndex (m : Manifest) : JobIndex := JobIndex.ofTasks m.tasks LeafOf.name

/-- The jobs of leaves, one after the other, and the resources that are declared after them. -/
def jobs (c : Config) (m : Manifest) :
    ResourceSet → List (TaskPath × Leaf) → Except RenderError (List Job × ResourceSet)
  | resources, [] => .ok ([], resources)
  | resources, (path, l) :: rest => do
    let index := jobIndex m
    let name := (index.name? path).getD l.name
    let (first, resources) ← job c m resources name l (index.passed m.tasks path)
    let (others, resources) ← jobs c m resources rest
    return (first :: others, resources)

/-- The pipeline of a manifest whose defaults are filled in. Its jobs stand in the order in which the
leaves run. -/
def render (c : Config) (m : Manifest) : Except RenderError Pipeline := do
  Task.checkShape m.tasks
  let (jobs, resources) ← jobs c m (ResourceSet.ofManifest c m) (Task.leaves m.tasks)
  return { types := resources.types, resources := resources.resources, jobs }

end PipelineCompiler.Concourse

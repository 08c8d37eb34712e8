import PipelineCompiler.Manifest
import PipelineCompiler.Value.Fields

/-!
# Reading manifests

Manifests from their document form. A kind is named under `type`; where a task or trigger is written
as a sequence, the kind comes first. Inside another task a kind may also be given by its number.
Leaves can be written as mappings only, since their fields are open-ended.
-/

namespace PipelineCompiler

namespace Value

/-- The entries of a mapping whose values are texts. -/
def textEntries? : List (Value × Value) → Option (List (String × String))
  | [] => some []
  | (.str name, .str v) :: rest => (textEntries? rest).map ((name, v) :: ·)
  | _ => none

/-- Variables; of two values for one name the later one counts. -/
def vars? : Value → Option Vars
  | .map entries => (textEntries? entries).map Vars.ofList
  | _ => none

/-- A notification block. -/
def notifications? (v : Value) : Option Notifications := do
  let fs ← v.fields? ["on_success", "on_success_message", "on_failure", "on_failure_message"]
  let onSuccess ← fs.get? "on_success" texts? []
  let onSuccessMessage ← fs.get? "on_success_message" text? ""
  let onFailure ← fs.get? "on_failure" texts? []
  let onFailureMessage ← fs.get? "on_failure_message" text? ""
  return { onSuccess, onSuccessMessage, onFailure, onFailureMessage }

/-- An image with its login. -/
def docker? (v : Value) : Option Docker := do
  let fs ← v.fields? ["image", "username", "password"]
  let image ← fs.get? "image" text? ""
  let username ← fs.get? "username" text? ""
  let password ← fs.get? "password" text? ""
  return { image, username, password }

end Value

namespace Fields

/-- A text field. -/
def text? (fs : Fields) (name : String) (default : String := "") : Option String :=
  fs.get? name Value.text? default

/-- A list of texts. -/
def texts? (fs : Fields) (name : String) (default : List String := []) : Option (List String) :=
  fs.get? name Value.texts? default

/-- A flag, which is false unless it is given. -/
def flag? (fs : Fields) (name : String) : Option Bool := fs.get? name Value.flag? false

/-! ## Leaves -/

/-- The fields that every leaf has. -/
def attributes? (fs : Fields) : Option Attributes := do
  let name ← fs.text? "name"
  let timeout ← fs.text? "timeout"
  let retries ← fs.get? "retries" Value.int32? 0
  let notifications ← fs.get? "notifications" (Value.orNull? Value.notifications?) none
  let notifyOnSuccess ← fs.flag? "notify_on_success"
  let manualTrigger ← fs.flag? "manual_trigger"
  let buildHistory ← fs.get? "build_history" (Value.orNull? Value.uint32?) none
  let saveArtifacts ← fs.texts? "save_artifacts"
  let saveArtifactsOnFailure ← fs.texts? "save_artifacts_on_failure"
  let restoreArtifacts ← fs.flag? "restore_artifacts"
  let vars ← fs.get? "vars" Value.vars? .empty
  return {
    name, timeout, retries, notifications, notifyOnSuccess, manualTrigger, buildHistory,
    saveArtifacts, saveArtifactsOnFailure, restoreArtifacts, vars
  }

/-- A script. -/
def run? (fs : Fields) : Option Run := do
  let script ← fs.text? "script"
  let docker ← fs.get? "docker" Value.docker? {}
  return { script, docker }

/-- An image build. -/
def dockerPush? (fs : Fields) : Option DockerPush := do
  let unset : DockerPush := {}
  let image ← fs.text? "image"
  let username ← fs.text? "username" unset.username
  let password ← fs.text? "password" unset.password
  let dockerfilePath ← fs.text? "dockerfile_path" unset.dockerfilePath
  let buildPath ← fs.text? "build_path"
  let tag ← fs.text? "tag"
  let platforms ← fs.texts? "platforms" unset.platforms
  let useCache ← fs.flag? "use_cache"
  let scanTimeout ← fs.get? "scan_timeout" Value.uint32? unset.scanTimeout
  return {
    image, username, password, dockerfilePath, buildPath, tag, platforms, useCache, scanTimeout
  }

/-- A compose service. -/
def dockerCompose? (fs : Fields) : Option DockerCompose := do
  let unset : DockerCompose := {}
  let composeFile ← fs.text? "compose_file" unset.composeFile
  let service ← fs.text? "service" unset.service
  let command ← fs.text? "command"
  return { composeFile, service, command }

/-- A deployment to Cloud Foundry, but for its checks. -/
def deployCf? (fs : Fields) : Option DeployCf := do
  let unset : DeployCf := {}
  let api ← fs.text? "api"
  let org ← fs.text? "org"
  let space ← fs.text? "space"
  let username ← fs.text? "username" unset.username
  let password ← fs.text? "password" unset.password
  let manifest ← fs.text? "manifest" unset.manifest
  let varsFiles ← fs.texts? "vars_files"
  let testDomain ← fs.text? "test_domain"
  let deployArtifact ← fs.text? "deploy_artifact"
  let rolling ← fs.flag? "rolling"
  return {
    api, org, space, username, password, manifest, varsFiles, testDomain, deployArtifact, rolling
  }

/-- A zip deployment. -/
def deployMlZip? (fs : Fields) : Option DeployMlZip := do
  let deployZip ← fs.text? "deploy_zip"
  let appName ← fs.text? "app_name"
  let appVersion ← fs.text? "app_version"
  let targets ← fs.texts? "targets"
  let useBuildVersion ← fs.flag? "use_build_version"
  return { deployZip, appName, appVersion, targets, useBuildVersion }

/-- A modules deployment. -/
def deployMlModules? (fs : Fields) : Option DeployMlModules := do
  let mlModulesVersion ← fs.text? "ml_modules_version"
  let appName ← fs.text? "app_name"
  let appVersion ← fs.text? "app_version"
  let targets ← fs.texts? "targets"
  let useBuildVersion ← fs.flag? "use_build_version"
  return { mlModulesVersion, appName, appVersion, targets, useBuildVersion }

/-- A consumer test. -/
def consumerTest? (fs : Fields) : Option ConsumerTest := do
  let unset : ConsumerTest := {}
  let consumer ← fs.text? "consumer"
  let consumerHost ← fs.text? "consumer_host"
  let providerHost ← fs.text? "provider_host"
  let script ← fs.text? "script"
  let composeService ← fs.text? "docker_compose_service" unset.composeService
  let gitCloneOptions ← fs.text? "git_clone_options"
  let useCovenant ← fs.flag? "use_covenant"
  return {
    consumer, consumerHost, providerHost, script, composeService, gitCloneOptions, useCovenant
  }

/-- A deployment to Katee. -/
def deployKatee? (fs : Fields) : Option DeployKatee := do
  let unset : DeployKatee := {}
  let applicationName ← fs.text? "application_name"
  let image ← fs.text? "image"
  let tag ← fs.text? "tag"
  let velaManifest ← fs.text? "vela_manifest" unset.velaManifest
  let space ← fs.text? "namespace"
  let checkInterval ← fs.get? "check_interval" Value.uint32? unset.checkInterval
  let maxChecks ← fs.get? "max_checks" Value.uint32? unset.maxChecks
  return { applicationName, image, tag, velaManifest, space, checkInterval, maxChecks }

/-- An update. -/
def update? (fs : Fields) : Option Update := do
  let tagRepo ← fs.flag? "tag_repo"
  return { tagRepo }

end Fields

/-! ## Tasks -/

/-- The kinds of tasks, in the order of their numbers. -/
def taskKinds : List String :=
  ["run", "docker-push", "docker-compose", "deploy-cf", "deploy-ml-zip", "deploy-ml-modules",
    "consumer-integration-test", "deploy-katee", "update", "sequence", "parallel"]

/-- The kinds of triggers. -/
def triggerKinds : List String := ["git", "timer", "docker", "pipeline"]

/-- A kind by its name or, if numbers count, by its number. -/
def Value.kind? (kinds : List String) (numbered : Bool) : Value → Option String
  | .str s => if kinds.contains s then some s else none
  | .int n => if numbered && 0 ≤ n then kinds[n.toNat]? else none
  | _ => none

/-- Split a tagged value into its kind and the rest of it. -/
def Value.tagged? (kinds : List String) (numbered : Bool) : Value → Option (String × Value)
  | .map entries =>
    match entries.filter fun e => e.1.isText "type" with
    | [(_, tag)] => do
      let kind ← tag.kind? kinds numbered
      return (kind, .map (entries.filter fun e => !e.1.isText "type"))
    | _ => none
  | .seq (tag :: items) => do
    let kind ← tag.kind? kinds numbered
    return (kind, .seq items)
  | _ => none

namespace Task

mutual

/-- Read a task of at most `depth` levels. -/
def ofValueAux? (numbered : Bool) (v : Value) : (depth : Nat) → Option Task
  | 0 => none
  | depth + 1 => do
    let (kind, body) ← v.tagged? taskKinds numbered
    match kind with
    | "sequence" => return .sequence (← groupAux? body depth)
    | "parallel" => return .parallel (← groupAux? body depth)
    | _ =>
      let fs ← body.openFields?
      let action ← actionAux? kind fs depth
      let attributes ← fs.attributes?
      return .leaf { attributes, action }

/-- Read the tasks of a group. -/
def groupAux? (body : Value) (depth : Nat) : Option (List Task) := do
  let fs ← body.fields? ["tasks"]
  fs.get? "tasks" (Value.list? fun v => ofValueAux? true v depth) []

/-- Read what a leaf does. -/
def actionAux? (kind : String) (fs : Fields) (depth : Nat) : Option (Action Task) :=
  match kind with
  | "run" => fs.run?.map .run
  | "docker-push" => fs.dockerPush?.map .dockerPush
  | "docker-compose" => fs.dockerCompose?.map .dockerCompose
  | "deploy-cf" => do
    let deploy ← fs.deployCf?
    let prePromote ← fs.get? "pre_promote" (Value.list? fun v => ofValueAux? true v depth) []
    return .deployCf deploy prePromote
  | "deploy-ml-zip" => fs.deployMlZip?.map .deployMlZip
  | "deploy-ml-modules" => fs.deployMlModules?.map .deployMlModules
  | "consumer-integration-test" => fs.consumerTest?.map .consumerTest
  | "deploy-katee" => fs.deployKatee?.map .deployKatee
  | "update" => fs.update?.map .update
  | _ => none

end

/-- Read a task from its document form. -/
def ofValue? (v : Value) : Option Task := ofValueAux? false v v.depth

end Task

/-! ## Triggers and manifests -/

namespace Trigger

/-- A trigger by the repository. -/
def gitOfFields? (fs : Fields) : Option GitTrigger := do
  let uri ← fs.text? "uri"
  let branch ← fs.text? "branch"
  let privateKey ← fs.text? "private_key"
  let gitCryptKey ← fs.text? "git_crypt_key"
  let watchedPaths ← fs.texts? "watched_paths"
  let ignoredPaths ← fs.texts? "ignored_paths"
  let shallow ← fs.flag? "shallow"
  let manualTrigger ← fs.flag? "manual_trigger"
  return {
    uri, branch, privateKey, gitCryptKey, watchedPaths, ignoredPaths, shallow, manualTrigger
  }

/-- A trigger by another pipeline. What it does not say about the build server is filled in. -/
def pipelineOfFields? (fs : Fields) : Option PipelineTrigger := do
  let unset : PipelineTrigger := {}
  let concourseUrl ← fs.text? "concourse_url" unset.concourseUrl
  let username ← fs.text? "username" unset.username
  let password ← fs.text? "password" unset.password
  let team ← fs.text? "team"
  let pipeline ← fs.text? "pipeline"
  let job ← fs.text? "job"
  let status ← fs.text? "status" unset.status
  return { concourseUrl, username, password, team, pipeline, job, status }

/-- Read a trigger from its document form. -/
def ofValue? (v : Value) : Option Trigger := do
  let (kind, body) ← v.tagged? triggerKinds false
  match kind with
  | "git" =>
    let fs ← body.fields?
      ["uri", "branch", "private_key", "git_crypt_key", "watched_paths", "ignored_paths",
        "shallow", "manual_trigger"]
    return .git (← gitOfFields? fs)
  | "timer" =>
    let fs ← body.fields? ["cron"]
    return .timer { cron := ← fs.text? "cron" }
  | "docker" =>
    let docker ← body.docker?
    return .docker { image := docker.image, username := docker.username, password := docker.password }
  | "pipeline" =>
    let fs ← body.fields?
      ["concourse_url", "username", "password", "team", "pipeline", "job", "status"]
    return .pipeline (← pipelineOfFields? fs)
  | _ => none

end Trigger

namespace Manifest

/-- The fields of a manifest, in their order. -/
def fieldNames : List String :=
  ["team", "pipeline", "slack_channel", "slack_success_message", "slack_failure_message",
    "artifact_config", "feature_toggles", "triggers", "tasks", "platform"]

/-- An artifact store. -/
def artifactConfigOfValue? (v : Value) : Option ArtifactConfig := do
  let fs ← v.fields? ["bucket", "json_key"]
  let bucket ← fs.text? "bucket"
  let jsonKey ← fs.text? "json_key"
  return { bucket, jsonKey }

/-- A platform by its name, which may also be the only key of a mapping to null. -/
def platformOfValue? : Value → Option Platform
  | .str s => Platform.ofName? s
  | .map [(.str s, .null)] => Platform.ofName? s
  | _ => none

/-- Read a manifest from its document form. -/
def ofValue? (v : Value) : Option Manifest := do
  let fs ← v.fields? fieldNames
  let team ← fs.text? "team"
  let pipeline ← fs.text? "pipeline"
  let slackChannel ← fs.text? "slack_channel"
  let slackSuccessMessage ← fs.text? "slack_success_message"
  let slackFailureMessage ← fs.text? "slack_failure_message"
  let artifactConfig ← fs.get? "artifact_config" artifactConfigOfValue? {}
  let featureToggles ← fs.texts? "feature_toggles"
  let triggers ← fs.get? "triggers" (Value.list? Trigger.ofValue?) []
  let tasks ← fs.get? "tasks" (Value.list? Task.ofValue?) []
  let platform ← fs.get? "platform" platformOfValue? .concourse
  return {
    team, pipeline, slackChannel, slackSuccessMessage, slackFailureMessage, artifactConfig,
    featureToggles, triggers, tasks, platform
  }

end Manifest

end PipelineCompiler

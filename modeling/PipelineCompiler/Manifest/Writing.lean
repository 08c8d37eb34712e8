import PipelineCompiler.Manifest
import PipelineCompiler.Value

/-!
# Writing manifests

The document form of a manifest. Tasks and triggers carry their kind under `type`, ahead of their
fields. Fields whose default is blank are left out while they are blank; all others are written.
-/

namespace PipelineCompiler

/-! ## Fields that may be left out -/

/-- A text field that is left out when it is blank. -/
def textField (name s : String) : List (String × Value) :=
  if s.isEmpty then [] else [(name, .str s)]

/-- A list field that is left out when it is empty. -/
def listField (name : String) (items : List String) : List (String × Value) :=
  if items.isEmpty then [] else [(name, .texts items)]

/-- A flag that is left out when it is false. -/
def flagField (name : String) (b : Bool) : List (String × Value) :=
  if b then [(name, .bool true)] else []

/-- The fields of a notification block. -/
def Notifications.toValue (n : Notifications) : Value :=
  .record <|
    listField "on_success" n.onSuccess
      ++ textField "on_success_message" n.onSuccessMessage
      ++ listField "on_failure" n.onFailure
      ++ textField "on_failure_message" n.onFailureMessage

/-- Variables as a mapping. -/
def Vars.toValue (vars : Vars) : Value :=
  .record (vars.entries.map fun (name, v) => (name, .str v))

/-- The fields that every leaf has. -/
def Attributes.fields (a : Attributes) : List (String × Value) :=
  textField "name" a.name
    ++ textField "timeout" a.timeout
    ++ (if a.retries = 0 then [] else [("retries", .int a.retries.toInt)])
    ++ (match a.notifications with
      | none => []
      | some n => [("notifications", n.toValue)])
    ++ flagField "notify_on_success" a.notifyOnSuccess
    ++ flagField "manual_trigger" a.manualTrigger
    ++ (match a.buildHistory with
      | none => []
      | some n => [("build_history", .nat n.toNat)])
    ++ listField "save_artifacts" a.saveArtifacts
    ++ listField "save_artifacts_on_failure" a.saveArtifactsOnFailure
    ++ flagField "restore_artifacts" a.restoreArtifacts
    ++ (if a.vars.isEmpty then [] else [("vars", a.vars.toValue)])

/-! ## Actions and tasks -/

/-- The fields of an image with its login. -/
def Docker.toValue (d : Docker) : Value :=
  .record <|
    [("image", .str d.image)]
      ++ textField "username" d.username
      ++ textField "password" d.password

/-- The fields of a script. -/
def Run.fields (r : Run) : List (String × Value) :=
  [("script", .str r.script), ("docker", r.docker.toValue)]

/-- The fields of an image build. -/
def DockerPush.fields (p : DockerPush) : List (String × Value) :=
  [("image", .str p.image), ("username", .str p.username), ("password", .str p.password),
    ("dockerfile_path", .str p.dockerfilePath), ("build_path", .str p.buildPath)]
    ++ textField "tag" p.tag
    ++ [("platforms", .texts p.platforms), ("use_cache", .bool p.useCache),
      ("scan_timeout", .nat p.scanTimeout.toNat)]

/-- The fields of a compose service. -/
def DockerCompose.fields (c : DockerCompose) : List (String × Value) :=
  [("compose_file", .str c.composeFile), ("service", .str c.service)]
    ++ textField "command" c.command

/-- The fields of a deployment to Cloud Foundry, but for its checks. -/
def DeployCf.fields (d : DeployCf) : List (String × Value) :=
  [("api", .str d.api), ("org", .str d.org), ("space", .str d.space),
    ("username", .str d.username), ("password", .str d.password), ("manifest", .str d.manifest)]
    ++ listField "vars_files" d.varsFiles
    ++ textField "test_domain" d.testDomain
    ++ textField "deploy_artifact" d.deployArtifact
    ++ flagField "rolling" d.rolling

/-- The fields of a zip deployment. -/
def DeployMlZip.fields (d : DeployMlZip) : List (String × Value) :=
  [("deploy_zip", .str d.deployZip), ("app_name", .str d.appName)]
    ++ textField "app_version" d.appVersion
    ++ [("targets", .texts d.targets)]
    ++ flagField "use_build_version" d.useBuildVersion

/-- The fields of a modules deployment. -/
def DeployMlModules.fields (d : DeployMlModules) : List (String × Value) :=
  [("ml_modules_version", .str d.mlModulesVersion), ("app_name", .str d.appName)]
    ++ textField "app_version" d.appVersion
    ++ [("targets", .texts d.targets)]
    ++ flagField "use_build_version" d.useBuildVersion

/-- The fields of a consumer test. -/
def ConsumerTest.fields (t : ConsumerTest) : List (String × Value) :=
  [("consumer", .str t.consumer), ("consumer_host", .str t.consumerHost)]
    ++ textField "provider_host" t.providerHost
    ++ [("script", .str t.script), ("docker_compose_service", .str t.composeService)]
    ++ textField "git_clone_options" t.gitCloneOptions
    ++ flagField "use_covenant" t.useCovenant

/-- The fields of a deployment to Katee. -/
def DeployKatee.fields (d : DeployKatee) : List (String × Value) :=
  [("application_name", .str d.applicationName)]
    ++ textField "image" d.image
    ++ textField "tag" d.tag
    ++ [("vela_manifest", .str d.velaManifest)]
    ++ textField "namespace" d.space
    ++ [("check_interval", .nat d.checkInterval.toNat), ("max_checks", .nat d.maxChecks.toNat)]

/-- The fields of an update. -/
def Update.fields (u : Update) : List (String × Value) := flagField "tag_repo" u.tagRepo

mutual

/-- The document form of a leaf. -/
def LeafOf.toValue : LeafOf Task → Value
  | ⟨attributes, action⟩ =>
    .record (("type", .str action.kind) :: (attributes.fields ++ Action.ownFields action))

/-- The fields of an action. -/
def Action.ownFields : Action Task → List (String × Value)
  | .run r => r.fields
  | .dockerPush p => p.fields
  | .dockerCompose c => c.fields
  | .deployCf d prePromote =>
    d.fields
      ++ (if prePromote.isEmpty then [] else [("pre_promote", .seq (Task.toValues prePromote))])
  | .deployMlZip d => d.fields
  | .deployMlModules d => d.fields
  | .consumerTest t => t.fields
  | .deployKatee d => d.fields
  | .update u => u.fields

/-- The document form of a task. -/
def Task.toValue : Task → Value
  | .leaf l => LeafOf.toValue l
  | .sequence tasks =>
    .record [("type", .str "sequence"), ("tasks", .seq (Task.toValues tasks))]
  | .parallel tasks =>
    .record [("type", .str "parallel"), ("tasks", .seq (Task.toValues tasks))]

/-- The document forms of a list of tasks. -/
def Task.toValues : List Task → List Value
  | [] => []
  | t :: rest => Task.toValue t :: Task.toValues rest

end

/-! ## Triggers and manifests -/

/-- The fields of a trigger. -/
def Trigger.fields : Trigger → List (String × Value)
  | .git g =>
    textField "uri" g.uri
      ++ textField "branch" g.branch
      ++ textField "private_key" g.privateKey
      ++ textField "git_crypt_key" g.gitCryptKey
      ++ listField "watched_paths" g.watchedPaths
      ++ listField "ignored_paths" g.ignoredPaths
      ++ [("shallow", .bool g.shallow), ("manual_trigger", .bool g.manualTrigger)]
  | .timer t => [("cron", .str t.cron)]
  | .docker d =>
    [("image", .str d.image)] ++ textField "username" d.username ++ textField "password" d.password
  | .pipeline p =>
    textField "concourse_url" p.concourseUrl
      ++ textField "username" p.username
      ++ textField "password" p.password
      ++ [("team", .str p.team), ("pipeline", .str p.pipeline), ("job", .str p.job),
        ("status", .str p.status)]

/-- The document form of a trigger. -/
def Trigger.toValue (t : Trigger) : Value := .record (("type", .str t.kind) :: t.fields)

/-- The document form of a manifest. -/
def Manifest.toValue (m : Manifest) : Value :=
  .record <|
    [("team", .str m.team), ("pipeline", .str m.pipeline)]
      ++ textField "slack_channel" m.slackChannel
      ++ textField "slack_success_message" m.slackSuccessMessage
      ++ textField "slack_failure_message" m.slackFailureMessage
      ++ (if m.artifactConfig = {} then []
        else
          [("artifact_config", .record <|
            textField "bucket" m.artifactConfig.bucket
              ++ textField "json_key" m.artifactConfig.jsonKey)])
      ++ listField "feature_toggles" m.featureToggles
      ++ [("triggers", .seq (m.triggers.map Trigger.toValue)),
        ("tasks", .seq (Task.toValues m.tasks)),
        ("platform", .str m.platform.name)]

end PipelineCompiler

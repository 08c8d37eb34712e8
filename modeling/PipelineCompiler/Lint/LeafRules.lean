import PipelineCompiler.Duration
import PipelineCompiler.Image
import PipelineCompiler.Lint.ManifestRules
import PipelineCompiler.Surroundings
import PipelineCompiler.Task.Artifacts

/-!
# Rules for leaves

Every leaf follows the rules for its attributes and those for its action. Files that an earlier task
produces are not looked for.
-/

namespace PipelineCompiler.Lint

/-! ## Shared rules -/

/-- Fields that have to be filled. -/
def missingFaults (fields : List (String × String)) : List Fault :=
  (fields.filter fun f => f.2.isEmpty).map fun f => .missing f.1

/-- Retries and the time limit are in bounds. -/
def attributeFaults (a : Attributes) : List Fault :=
  (if 0 ≤ a.retries.toInt ∧ a.retries.toInt ≤ 5 then []
    else [.invalid "retries" "must be between 0 and 5"])
    ++ (if !a.timeout.isEmpty && (Duration.parse? a.timeout).isNone then
      [.invalid "timeout" s!"'{a.timeout}' is not a valid duration such as 30m or 1h"] else [])

/-- What keeps a file from being used, unless an earlier task produces it. -/
def fileFaults (files : FileProbe) (path : String) (executable : Bool) : List Fault :=
  if inArtifacts path then []
  else
    match files.check path executable with
    | some issue => [.file path issue.text]
    | none => []

/-- The field names a file that can be used. -/
def requiredFileFaults (files : FileProbe) (field path : String) : List Fault :=
  if path.isEmpty then [.missing field] else fileFaults files path false

/-- The tag of an image is its commit or, where builds carry one, its version. -/
def tagFaults (tag : String) (m : Manifest) : List Fault :=
  if tag = "" ∨ tag = "gitref" then []
  else if tag = "version" then
    if m.isVersioned || m.platform = .actions then []
    else [.invalid "tag" "'version' requires the 'update-pipeline' feature toggle"]
  else [.invalid "tag" s!"'{tag}' must be one of 'gitref' or 'version'"]

/-! ## Rules for actions -/

/-- An image is named, and a login is complete. -/
def dockerFaults (d : Docker) : List Fault :=
  (if d.image.isEmpty then [.missing "docker.image"] else [])
    ++ (if !d.username.isEmpty && d.password.isEmpty then [.missing "docker.password"] else [])
    ++ (if !d.password.isEmpty && d.username.isEmpty then [.missing "docker.username"] else [])

/-- The script is an executable file, unless a backslash marks a command of the image. -/
def runFindings (r : Run) (files : FileProbe) : Findings :=
  let script : Findings :=
    match Text.words r.script with
    | [] => .ofErrors [.missing "script"]
    | command :: _ =>
      match Text.dropStart? command "\\" with
      | some inImage =>
        .ofWarnings [.invalid "script"
          s!"make sure '{inImage}' is available in the docker image you have specified"]
      | none => .ofErrors (fileFaults files command true)
  script ++ .ofErrors (dockerFaults r.docker)

/-- An image without a tag is built from files that exist. -/
def dockerPushFindings (p : DockerPush) (m : Manifest) (files : FileProbe) : Findings :=
  .ofErrors <|
    (if p.image.isEmpty then [.missing "image"]
      else if Image.untagged p.image ≠ p.image then
        [.invalid "image" "image must not carry a tag, use the 'tag' field instead"]
      else [])
      ++ missingFaults [("username", p.username), ("password", p.password)]
      ++ (if p.buildPath.isEmpty || inArtifacts p.buildPath || files.exists? p.buildPath then []
        else [.file p.buildPath FileIssue.notFound.text])
      ++ requiredFileFaults files "dockerfile_path" p.dockerfilePath
      ++ tagFaults p.tag m
      ++ (if p.platforms.isEmpty then [.invalid "platforms" "at least one platform is required"]
        else [])

/-- A compose file exists, and a service of it is named. -/
def dockerComposeFindings (c : DockerCompose) (files : FileProbe) : Findings :=
  .ofErrors <|
    requiredFileFaults files "compose_file" c.composeFile ++ missingFaults [("service", c.service)]

/-- A zip, its application and the hosts are named. -/
def deployMlZipFindings (d : DeployMlZip) : Findings :=
  .ofErrors <|
    missingFaults [("deploy_zip", d.deployZip), ("app_name", d.appName)]
      ++ (if d.targets.isEmpty then [.missing "targets"] else [])

/-- A release, its application and the hosts are named. -/
def deployMlModulesFindings (d : DeployMlModules) : Findings :=
  .ofErrors <|
    missingFaults [("ml_modules_version", d.mlModulesVersion), ("app_name", d.appName)]
      ++ (if d.targets.isEmpty then [.missing "targets"] else [])

/-- Consumer, script and hosts are named. A test that checks a candidate knows its provider without
being told. -/
def consumerTestFindings (t : ConsumerTest) (checksCandidate : Bool) : Findings :=
  .ofErrors <|
    missingFaults [("consumer", t.consumer), ("consumer_host", t.consumerHost), ("script", t.script)]
      ++ (if t.providerHost.isEmpty && !checksCandidate then [.missing "provider_host"] else [])

/-- An application and its file are named. -/
def deployKateeFindings (d : DeployKatee) (m : Manifest) (files : FileProbe) : Findings :=
  .ofErrors <|
    missingFaults [("application_name", d.applicationName)]
      ++ requiredFileFaults files "vela_manifest" d.velaManifest
      ++ tagFaults d.tag m

/-- A candidate is checked by scripts and consumer tests only. -/
def prePromoteFindings (files : FileProbe) (t : Task) : Findings :=
  let refused (kind : String) : Findings :=
    .ofErrors [.invalid "type"
      s!"pre_promote may only contain run and consumer-integration-test tasks, found '{kind}'"]
  match t with
  | .leaf l =>
    match l.action with
    | .run r => runFindings r files ++ .ofErrors (attributeFaults l.attributes)
    | .consumerTest c => consumerTestFindings c true ++ .ofErrors (attributeFaults l.attributes)
    | _ => refused t.kind
  | _ => refused t.kind

/-- The target is named, the files exist, and the candidate is checked as it may be. -/
def deployCfFindings (d : DeployCf) (prePromote : List Task) (files : FileProbe) : Findings :=
  .ofErrors (
      missingFaults [("api", d.api), ("org", d.org), ("space", d.space), ("username", d.username),
          ("password", d.password)]
        ++ requiredFileFaults files "manifest" d.manifest
        ++ (if d.deployArtifact.isEmpty then [] else fileFaults files d.deployArtifact false)
        ++ (if d.rolling && !prePromote.isEmpty then
          [.invalid "pre_promote" "cannot be used together with a rolling deploy"] else []))
    ++ .concat (prePromote.zipIdx.map fun (t, j) =>
      (prePromoteFindings files t).under (prePromotePosition j))

/-- Only a pipeline that updates itself has an update. -/
def updateFindings (m : Manifest) : Findings :=
  .ofErrors <|
    if m.updatesPipeline then []
    else [.invalid "type" "the update task requires the 'update-pipeline' feature toggle"]

/-- The rules for the action of a leaf. -/
def actionFindings (m : Manifest) (files : FileProbe) : Action Task → Findings
  | .run r => runFindings r files
  | .dockerPush p => dockerPushFindings p m files
  | .dockerCompose c => dockerComposeFindings c files
  | .deployCf d prePromote => deployCfFindings d prePromote files
  | .deployMlZip d => deployMlZipFindings d
  | .deployMlModules d => deployMlModulesFindings d
  | .consumerTest t => consumerTestFindings t false
  | .deployKatee d => deployKateeFindings d m files
  | .update _ => updateFindings m

/-- The rules for a leaf. -/
def leafFindings (m : Manifest) (files : FileProbe) (l : Leaf) : Findings :=
  actionFindings m files l.action ++ .ofErrors (attributeFaults l.attributes)

end PipelineCompiler.Lint

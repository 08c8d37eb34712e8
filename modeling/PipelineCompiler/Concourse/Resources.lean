import PipelineCompiler.Concourse.Container
import PipelineCompiler.Naming
import PipelineCompiler.Task.Artifacts

/-!
# Resources

What a pipeline has to declare for a manifest. Resources are named for what they are, with a number
appended where a name is taken, and deployments to one target share a resource.
-/

namespace PipelineCompiler.Concourse

/-! ## Names -/

/-- Resource of the first git trigger. -/
def gitName : String := "git"

/-- Type of the resources that hold artifacts. -/
def storeType : String := "gcp-resource"

/-- Resource of saved artifacts. -/
def savedName : String := "artifacts"

/-- Resource of artifacts that were saved on failure. -/
def savedOnFailureName : String := "artifacts-on-failure"

/-- Resource of the version. -/
def versionName : String := "version"

/-- Resource and type of chat messages. -/
def slackName : String := "slack"

/-- Type of the resources of schedules. -/
def cronType : String := "cron-resource"

/-- Type of the resources that deploy to Cloud Foundry. -/
def deployType : String := "cf-resource"

/-- Type of the resources of other pipelines. -/
def pipelineWatchType : String := "halfpipe-pipeline-trigger"

/-- Check interval of resources that are only ever pushed to. -/
def longInterval : String := "24h"

/-- The folder of a pipeline in the artifact store. -/
def artifactsFolder (m : Manifest) : String :=
  Text.folderName m.team ++ "/" ++ Text.folderName m.pipelineName

/-- The key of the version of a pipeline. Branches other than the plain ones have a version of their
own. -/
def versionKey (m : Manifest) : String :=
  let key := m.team ++ "-" ++ m.pipeline
  match m.git? with
  | some git =>
    if git.branch.isEmpty || Manifest.defaultBranches.contains git.branch then key
    else key ++ "-" ++ git.branch
  | none => key

/-- Name of the resource for a deployment target. -/
def deployName (d : DeployCf) : String :=
  let api := Text.trimStarts (Text.trimStarts d.api "https://") "http://"
  let api := Text.trimEnds (Text.trimStarts api "((cloudfoundry.api-") "))"
  Text.identifier ("cf-" ++ api ++ "-" ++ d.org ++ "-" ++ d.space)

/-! ## Types -/

/-- The type of schedules. -/
def cronResourceType : ResourceType :=
  { name := cronType
    source := .ofTexts [("repository", "cftoolsmiths/cron-resource"), ("tag", "v0.3")]
    uniqueVersionHistory := some true }

/-- The type of chat messages. -/
def slackResourceType : ResourceType :=
  { name := slackName
    source :=
      .ofTexts [("repository", "cfcommunity/slack-notification-resource"), ("tag", "v1.4.2")]
    checkEvery := some longInterval }

/-- The type of artifact stores. -/
def storeResourceType (c : Config) : ResourceType :=
  { name := storeType, source := installationSource c storeType "stable" }

/-- The type of deployments. A toggle selects the newer image. -/
def deployResourceType (c : Config) (toggles : List String) : ResourceType :=
  let image := if toggles.contains "new-deploy-resource" then "cf-resource-v2" else deployType
  { name := deployType, source := installationSource c image "stable" }

/-- The type of other pipelines. -/
def pipelineWatchResourceType (c : Config) : ResourceType :=
  { name := pipelineWatchType
    source := installationSource c "halfpipe-pipeline-trigger-resource" "latest" }

/-! ## Resources -/

/-- The resource of a repository. -/
def gitResource (g : GitTrigger) : Resource :=
  { name := gitName
    kind := "git"
    source :=
      [("uri", .text g.uri)]
        ++ Settings.textUnlessBlank "private_key" g.privateKey
        ++ (if g.watchedPaths.isEmpty then [] else [("paths", .texts g.watchedPaths)])
        ++ (if g.ignoredPaths.isEmpty then [] else [("ignore_paths", .texts g.ignoredPaths)])
        ++ Settings.textUnlessBlank "git_crypt_key" g.gitCryptKey
        ++ [("branch", .text g.branchOrDefault)] }

/-- The resource of a schedule. -/
def cronResource (t : TimerTrigger) : Resource :=
  { name := (Trigger.timer t).name
    kind := cronType
    source := [("expression", .text t.cron), ("location", .text "UTC"), ("fire_immediately", .flag true)]
    checkEvery := some "1m" }

/-- The resource of an image that starts the pipeline. -/
def dockerResource (d : DockerTrigger) : Resource :=
  { name := (Trigger.docker d).name
    kind := "docker-image"
    source :=
      [("repository", .text d.image)]
        ++ Settings.textUnlessBlank "username" d.username
        ++ Settings.textUnlessBlank "password" d.password }

/-- The resource of a job of another pipeline. -/
def pipelineWatchResource (p : PipelineTrigger) : Resource :=
  { name := (Trigger.pipeline p).name
    kind := pipelineWatchType
    source := .ofTexts
      [("concourse_url", p.concourseUrl), ("username", p.username), ("password", p.password),
        ("team", p.team), ("pipeline", p.pipeline), ("job", p.job), ("status", p.status)] }

/-- The resource of chat messages. -/
def slackResource (c : Config) : Resource :=
  { name := slackName
    kind := slackName
    source := .ofTexts [("url", c.slackWebhook)]
    checkEvery := some longInterval }

/-- A resource of artifacts. -/
def storeResource (c : Config) (m : Manifest) (name : String) : Resource :=
  { name
    kind := storeType
    source := .ofTexts
      [("bucket", m.artifactsBucket c.artifactsBucket), ("folder", artifactsFolder m),
        ("json_key", m.artifactsJsonKey c.artifactsJsonKey)]
    checkEvery := some longInterval }

/-- The resource of the version. -/
def versionResource (c : Config) (m : Manifest) : Resource :=
  { name := versionName
    kind := "semver"
    source := .ofTexts
      [("driver", "gcs"), ("key", versionKey m), ("bucket", c.versionBucket),
        ("json_key", c.versionJsonKey)] }

/-- The target of a deployment, with its login. -/
def deploySource (d : DeployCf) : Settings :=
  .ofTexts
    [("api", d.api), ("org", d.org), ("space", d.space), ("username", d.username),
      ("password", d.password)]

/-- The resource of a deployment target. -/
def deployResource (d : DeployCf) : Resource :=
  { name := deployName d
    kind := deployType
    source := deploySource d
    checkEvery := some longInterval }

/-! ## The set of a manifest -/

/-- Resources and types declared so far, in their order, and the resources of the triggers by the place
of the trigger in the manifest. -/
structure ResourceSet where
  types : List ResourceType := []
  resources : List Resource := []
  names : NameRegistry := {}
  triggers : List (Nat × String) := []
deriving DecidableEq, Repr, Inhabited

namespace ResourceSet

/-- Name of the resource of the trigger at an index. -/
def trigger? (s : ResourceSet) (i : Nat) : Option String :=
  (s.triggers.find? fun e => e.1 = i).map Prod.snd

/-- Declare a type, unless one of its name is there. -/
def addType (s : ResourceSet) (t : ResourceType) : ResourceSet :=
  if s.types.any fun u => u.name = t.name then s else { s with types := s.types ++ [t] }

/-- Declare a resource under a name that is free. -/
def add (s : ResourceSet) (r : Resource) : String × ResourceSet :=
  let (name, names) := s.names.claim r.name
  (name, { s with names, resources := s.resources ++ [{ r with name }] })

/-- Declare a resource for the trigger at an index. -/
def addTrigger (s : ResourceSet) (i : Nat) (r : Resource) : ResourceSet :=
  let (name, s) := s.add r
  { s with triggers := s.triggers ++ [(i, name)] }

/-- The resource of a deployment target, if there is one. -/
def deploy? (s : ResourceSet) (d : DeployCf) : Option Resource :=
  s.resources.find? fun r => r.kind = deployType && r.source = deploySource d

/-- Declare a deployment target, unless it is there. -/
def addDeploy (c : Config) (toggles : List String) (s : ResourceSet) (d : DeployCf) :
    String × ResourceSet :=
  match s.deploy? d with
  | some r => (r.name, s)
  | none => (s.addType (deployResourceType c toggles)).add (deployResource d)

/-- Declare what a trigger that starts the pipeline by itself needs. -/
def addOwnTrigger (s : ResourceSet) : Trigger × Nat → ResourceSet
  | (.git g, i) => s.addTrigger i (gitResource g)
  | (.timer t, i) => (s.addType cronResourceType).addTrigger i (cronResource t)
  | (.docker d, i) => s.addTrigger i (dockerResource d)
  | (.pipeline _, _) => s

/-- Declare what a trigger by another pipeline needs. -/
def addPipelineTrigger (c : Config) (s : ResourceSet) : Trigger × Nat → ResourceSet
  | (.pipeline p, i) => (s.addType (pipelineWatchResourceType c)).addTrigger i (pipelineWatchResource p)
  | _ => s

/-- Declare the store of artifacts if any task uses it. -/
def addStores (c : Config) (m : Manifest) (s : ResourceSet) : ResourceSet :=
  let saves := Task.anySavesArtifacts m.tasks || Task.anyReadsArtifacts m.tasks
  let savesOnFailure := Task.anySavesArtifactsOnFailure m.tasks
  let s := if saves || savesOnFailure then s.addType (storeResourceType c) else s
  let s := if saves then (s.add (storeResource c m savedName)).2 else s
  if savesOnFailure then (s.add (storeResource c m savedOnFailureName)).2 else s

/-- Declare what a leaf deploys to. -/
def addLeaf (c : Config) (toggles : List String) (s : ResourceSet) (l : Leaf) : ResourceSet :=
  match l.action with
  | .deployCf d _ => (s.addDeploy c toggles d).2
  | _ => s

/-- Everything that a manifest needs: triggers, chat messages, artifacts, the version, deployment
targets, and other pipelines last. -/
def ofManifest (c : Config) (m : Manifest) : ResourceSet :=
  let s : ResourceSet := m.triggers.zipIdx.foldl addOwnTrigger {}
  let s :=
    if Task.anyUsesNotifications m.tasks then
      ((s.addType slackResourceType).add (slackResource c)).2
    else s
  let s := s.addStores c m
  let s := if m.isVersioned then (s.add (versionResource c m)).2 else s
  let s := (Task.flatten m.tasks).foldl (addLeaf c m.featureToggles) s
  m.triggers.zipIdx.foldl (addPipelineTrigger c) s

end ResourceSet

end PipelineCompiler.Concourse

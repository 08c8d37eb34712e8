import PipelineCompiler.Notifications
import PipelineCompiler.Text.Cut
import PipelineCompiler.Vars

/-!
# Tasks

A task is a leaf, which becomes one job, or a sequence or parallel group of tasks. Every leaf has the
same attributes and one action, which says what its job does. A deployment to Cloud Foundry may hold
further tasks of its own, which check the candidate before it is promoted.
-/

namespace PipelineCompiler

/-- Position of a task: one index for each level of the tree. -/
abbrev TaskPath := List Nat

/-- What every leaf may set. -/
structure Attributes where
  name : String := ""
  timeout : String := ""
  retries : Int32 := 0
  /-- Unset where the author did not write the block. -/
  notifications : Option Notifications := none
  notifyOnSuccess : Bool := false
  manualTrigger : Bool := false
  buildHistory : Option UInt32 := none
  saveArtifacts : List String := []
  saveArtifactsOnFailure : List String := []
  restoreArtifacts : Bool := false
  vars : Vars := .empty
deriving DecidableEq, Repr, Inhabited

/-! ## Actions -/

/-- The image a script runs in, and the login for its registry. -/
structure Docker where
  image : String := ""
  username : String := ""
  password : String := ""
deriving DecidableEq, Repr, Inhabited

/-- Run a script in an image. -/
structure Run where
  script : String := ""
  docker : Docker := {}
deriving DecidableEq, Repr, Inhabited

/-- Build an image and push it. -/
structure DockerPush where
  image : String := ""
  username : String := "_json_key"
  password : String := "((halfpipe-gcr.private_key))"
  dockerfilePath : String := "Dockerfile"
  buildPath : String := ""
  tag : String := ""
  platforms : List String := ["linux/amd64"]
  useCache : Bool := false
  scanTimeout : UInt32 := 15
deriving DecidableEq, Repr, Inhabited

/-- Run one service of a compose file. -/
structure DockerCompose where
  composeFile : String := "docker-compose.yml"
  service : String := "app"
  command : String := ""
deriving DecidableEq, Repr, Inhabited

/-- Deploy an application to Cloud Foundry. -/
structure DeployCf where
  api : String := ""
  org : String := ""
  space : String := ""
  username : String := "((cloudfoundry.username))"
  password : String := "((cloudfoundry.password))"
  manifest : String := "manifest.yml"
  varsFiles : List String := []
  testDomain : String := ""
  deployArtifact : String := ""
  rolling : Bool := false
deriving DecidableEq, Repr, Inhabited

/-- Deploy a zip to MarkLogic. -/
structure DeployMlZip where
  deployZip : String := ""
  appName : String := ""
  appVersion : String := ""
  targets : List String := []
  useBuildVersion : Bool := false
deriving DecidableEq, Repr, Inhabited

/-- Deploy released modules to MarkLogic. -/
structure DeployMlModules where
  mlModulesVersion : String := ""
  appName : String := ""
  appVersion : String := ""
  targets : List String := []
  useBuildVersion : Bool := false
deriving DecidableEq, Repr, Inhabited

/-- Run the contract tests of a consumer against this provider. -/
structure ConsumerTest where
  consumer : String := ""
  consumerHost : String := ""
  providerHost : String := ""
  script : String := ""
  composeService : String := "code"
  gitCloneOptions : String := ""
  useCovenant : Bool := false
deriving DecidableEq, Repr, Inhabited

/-- Deploy an application to Katee. -/
structure DeployKatee where
  applicationName : String := ""
  image : String := ""
  tag : String := ""
  velaManifest : String := "vela.yaml"
  /-- A blank one stands for the namespace of the team. -/
  space : String := ""
  checkInterval : UInt32 := 1
  maxChecks : UInt32 := 60
deriving DecidableEq, Repr, Inhabited

/-- Update the pipeline itself and raise its version. -/
structure Update where
  tagRepo : Bool := false
deriving DecidableEq, Repr, Inhabited

/-- What the job of a leaf does. `τ` is the type of the tasks that check a candidate. -/
inductive Action (τ : Type) where
  | run (run : Run)
  | dockerPush (push : DockerPush)
  | dockerCompose (compose : DockerCompose)
  | deployCf (deploy : DeployCf) (prePromote : List τ)
  | deployMlZip (deploy : DeployMlZip)
  | deployMlModules (deploy : DeployMlModules)
  | consumerTest (test : ConsumerTest)
  | deployKatee (deploy : DeployKatee)
  | update (update : Update)
deriving Repr

/-- An executable unit over tasks of type `τ`. -/
structure LeafOf (τ : Type) where
  attributes : Attributes := {}
  action : Action τ
deriving Repr

/-- A node of the task tree. -/
inductive Task where
  | leaf (leaf : LeafOf Task)
  | sequence (tasks : List Task)
  | parallel (tasks : List Task)
deriving Repr

/-- An executable unit, which becomes one job. -/
abbrev Leaf := LeafOf Task

instance : Inhabited Leaf := ⟨⟨{}, .run {}⟩⟩

instance : Inhabited Task := ⟨.leaf default⟩

/-! ## Attributes of leaves -/

/-- Time limit of a leaf that sets none. -/
def defaultTimeout : String := "1h"

/-- Beginning of the paths that lead into restored artifacts. -/
def artifactsPrefix : String := "../artifacts/"

/-- The type tag of an action. -/
def Action.kind : Action τ → String
  | .run _ => "run"
  | .dockerPush _ => "docker-push"
  | .dockerCompose _ => "docker-compose"
  | .deployCf _ _ => "deploy-cf"
  | .deployMlZip _ => "deploy-ml-zip"
  | .deployMlModules _ => "deploy-ml-modules"
  | .consumerTest _ => "consumer-integration-test"
  | .deployKatee _ => "deploy-katee"
  | .update _ => "update"

namespace LeafOf

/-- The type tag of a leaf. -/
def kind (l : LeafOf τ) : String := l.action.kind

/-- The display name. Without one of its own, a script is named for itself and any other leaf for its
kind. -/
def name (l : LeafOf τ) : String :=
  orElse l.attributes.name
    (match l.action with
    | .run r => "run " ++ Text.replaceFirst "./" "" r.script
    | action => action.kind)

/-- The time limit. -/
def timeout (l : LeafOf τ) : String := orElse l.attributes.timeout defaultTimeout

/-- Runs in all: one and the retries, of which a negative number counts as none. -/
def attempts (l : LeafOf τ) : Nat := 1 + l.attributes.retries.toInt.toNat

/-- Some channel hears about the leaf. -/
def usesNotifications (l : LeafOf τ) : Bool :=
  l.attributes.notifications.any Notifications.isDefined

/-- The leaf with other notifications. -/
def withNotifications (l : LeafOf τ) (n : Option Notifications) : LeafOf τ :=
  { l with attributes := { l.attributes with notifications := n } }

/-- The leaf raises the version of the pipeline. -/
def isUpdate (l : LeafOf τ) : Bool :=
  match l.action with
  | .update _ => true
  | _ => false

end LeafOf

namespace DeployKatee

/-- The namespace, which belongs to the team unless one is given. -/
def spaceFor (d : DeployKatee) (team : String) : String := orElse d.space ("katee-" ++ team)

/-- The team that the namespace belongs to. -/
def teamFor (d : DeployKatee) (team : String) : String :=
  let space := d.spaceFor team
  (Text.dropStart? space "katee-").getD space

end DeployKatee

end PipelineCompiler

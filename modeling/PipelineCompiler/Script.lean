import PipelineCompiler.Config
import PipelineCompiler.Manifest

/-!
# Scripts

Scripts of the author, services of a compose file, consumer tests and deployments to MarkLogic all run
as a script in an image. `Script.ofLeaf?` says which script a leaf stands for; it is one that keeps
every attribute of the leaf, with the variables the script needs added to the author's.
-/

namespace PipelineCompiler

/-- A script in an image, with the attributes of the leaf that it stands for. -/
structure Script where
  attributes : Attributes := {}
  run : Run := {}
  /-- The script needs the daemon that runs containers. -/
  privileged : Bool := false
deriving DecidableEq, Repr, Inhabited

namespace Script

/-- The script as a leaf of its own. -/
def leaf (s : Script) : Leaf := ⟨s.attributes, .run s.run⟩

/-- The script with variables put over its own. -/
def withVars (s : Script) (vars : List (String × String)) : Script :=
  { s with attributes := { s.attributes with vars := s.attributes.vars.setAll vars } }

/-! ## Commands -/

/-- First character of a script that is a command and not a file. -/
def inlineMark : Char := '\\'

/-- The command that runs a script. A command is taken as it stands; a file without a leading `./`,
`../` or `/` is looked for in the working directory. -/
def command (script : String) : String :=
  match script.toList with
  | c :: rest =>
    if c = inlineMark then String.ofList rest
    else if ["./", "../", "/"].any (Text.startsWith script) then script
    else "./" ++ script
  | [] => "./"

/-- A script that is a command. -/
def inline (command : String) : String := String.singleton inlineMark ++ command

/-! ## Images and logins -/

/-- User name for the registry of the installation. -/
def registryUser : String := "_json_key"

/-- Reference to the key for the registry of the installation. -/
def registryKey : String := "((halfpipe-gcr.private_key))"

/-- Variable that hands the key of the registry to a script. -/
def registryKeyName : String := "GCR_PRIVATE_KEY"

/-- An image of the installation, with its login. -/
def installationImage (c : Config) (name : String) : Docker :=
  ⟨c.registryImage name, registryUser, registryKey⟩

/-! ## Compose services -/

/-- Variables that the build server sets and a service may read. -/
def buildVariables : Platform → List String
  | .concourse => ["BUILD_VERSION", "GIT_REVISION"]
  | .actions => ["BUILD_VERSION", "GIT_REVISION", "GITHUB_RUN_NUMBER", "GITHUB_SHA"]

/-- The variables that are passed on to a service, in the order of their names. The key of the
registry is kept back. -/
def passedVariables (platform : Platform) (vars : Vars) : List String :=
  (buildVariables platform ++ vars.names.filter (· ≠ registryKeyName)).mergeSort
    fun a b => decide (a ≤ b)

/-- The commands that run a service of a compose file. -/
def composeCommands (c : Config) (platform : Platform) (vars : Vars) (compose : DockerCompose) :
    String :=
  let words :=
    ["docker-compose", "-f " ++ compose.composeFile, "run"]
      ++ (passedVariables platform vars).map ("-e " ++ ·)
      ++ [compose.service]
      ++ (if compose.command.isEmpty then [] else [compose.command])
  "docker login -u " ++ registryUser ++ " -p \"$GCR_PRIVATE_KEY\" https://" ++ c.registryHost ++ "\n"
    ++ " \\\n  ".intercalate words ++ "\n"

/-! ## Consumer tests -/

/-- The repository of a consumer and the path inside of it. -/
def splitConsumer (consumer : String) : String × String :=
  (Text.splitFirst? '/' consumer).getD (consumer, "")

/-- The commands that check out a consumer at its deployed revision and run its tests. -/
def consumerCommands : String :=
  "\n".intercalate
    ["echo \"$CONSUMER_GIT_KEY\" > .gitkey",
      "chmod 600 .gitkey",
      "set -ex",
      "",
      "REVISION=$(curl -fsSL \"$CONSUMER_HOST/internal/version\" | jq -r '.revision' || echo \"\")",
      "if [ \"$REVISION\" = \"\" ]; then",
      "  echo \"Could not get the version of the consumer from $CONSUMER_HOST/internal/version, using HEAD\"",
      "  REVISION=HEAD",
      "fi",
      "",
      "GIT_SSH_COMMAND=\"ssh -o StrictHostKeychecking=no -i .gitkey\" git clone $GIT_CLONE_OPTIONS $CONSUMER_GIT_URI ../consumer-repo",
      "cd ../consumer-repo/$CONSUMER_PATH",
      "git checkout $REVISION",
      "",
      "docker login -u _json_key -p \"$GCR_PRIVATE_KEY\" https://$DOCKER_REGISTRY_HOST",
      "docker-compose run --no-deps \\",
      "  --entrypoint \"$CONSUMER_SCRIPT\" \\",
      "  -e DEPENDENCY_NAME=$PROVIDER_NAME \\",
      "  -e PROVIDER_HOST \\",
      "  -e USE_COVENANT \\",
      "  $DOCKER_COMPOSE_SERVICE",
      ""]

/-- The word for a flag in a variable. -/
def flagWord (b : Bool) : String := if b then "true" else "false"

/-- What a consumer test is told. -/
def consumerVars (c : Config) (m : Manifest) (t : ConsumerTest) : List (String × String) :=
  let (repository, path) := splitConsumer t.consumer
  [("CONSUMER_GIT_URI", "git@github.com:springernature/" ++ repository),
    ("CONSUMER_PATH", path),
    ("CONSUMER_SCRIPT", t.script),
    ("CONSUMER_GIT_KEY", "((halfpipe-github.private_key))"),
    ("CONSUMER_HOST", t.consumerHost),
    ("PROVIDER_NAME", m.pipeline),
    ("PROVIDER_HOST", t.providerHost),
    ("DOCKER_COMPOSE_SERVICE", t.composeService),
    ("GIT_CLONE_OPTIONS", t.gitCloneOptions),
    ("USE_COVENANT", flagWord t.useCovenant),
    (registryKeyName, registryKey),
    ("DOCKER_REGISTRY_HOST", c.registryHost)]

/-! ## Deployments to MarkLogic -/

/-- What every deployment to MarkLogic is told. The application is named for the pipeline unless it has
a name of its own. -/
def marklogicVars (m : Manifest) (appName appVersion : String) (targets : List String)
    (useBuildVersion : Bool) : List (String × String) :=
  [("APP_NAME", orElse appName m.pipeline),
    ("APP_VERSION", appVersion),
    ("MARKLOGIC_HOST", ",".intercalate targets),
    ("MARKLOGIC_USERNAME", "((halfpipe-ml-deploy.username))"),
    ("MARKLOGIC_PASSWORD", "((halfpipe-ml-deploy.password))"),
    ("USE_BUILD_VERSION", flagWord useBuildVersion)]

/-- Where modules are fetched from, unless the author says otherwise. -/
def artifactoryVars : List (String × String) :=
  [("ARTIFACTORY_URL", "((artifactory.url))"),
    ("ARTIFACTORY_USERNAME", "((artifactory.username))"),
    ("ARTIFACTORY_PASSWORD", "((artifactory.password))")]

/-- The script with variables that the author did not set. -/
def withDefaultVars (s : Script) (vars : List (String × String)) : Script :=
  { s with
    attributes :=
      { s.attributes with
        vars := vars.foldl (fun vs (name, v) => vs.setDefault name v) s.attributes.vars } }

/-! ## The script of a leaf -/

/-- The script that a leaf stands for, if it runs as one. A script made for a leaf carries the display
name of the leaf. -/
def ofLeaf? (c : Config) (m : Manifest) (l : Leaf) : Option Script :=
  let attributes := { l.attributes with name := l.name }
  match l.action with
  | .run run => some { attributes := l.attributes, run }
  | .dockerCompose compose =>
    some <| withVars
      { attributes
        run :=
          ⟨inline (composeCommands c m.platform l.attributes.vars compose),
            installationImage c "halfpipe-docker-compose:stable"⟩
        privileged := true }
      [(registryKeyName, registryKey)]
  | .consumerTest t =>
    some <| withVars
      { attributes
        run := ⟨inline consumerCommands, installationImage c "halfpipe-docker-compose:stable"⟩
        privileged := true }
      (consumerVars c m t)
  | .deployMlZip d =>
    some <| withVars
      { attributes, run := ⟨"/ml-deploy/deploy-local-zip", installationImage c "halfpipe-ml-deploy"⟩ }
      (marklogicVars m d.appName d.appVersion d.targets d.useBuildVersion
        ++ [("DEPLOY_ZIP", d.deployZip)])
  | .deployMlModules d =>
    some <| withDefaultVars
      (withVars
        { attributes
          run := ⟨"/ml-deploy/deploy-ml-modules", installationImage c "halfpipe-ml-deploy"⟩ }
        (marklogicVars m d.appName d.appVersion d.targets d.useBuildVersion
          ++ [("ML_MODULES_VERSION", d.mlModulesVersion)]))
      artifactoryVars
  | .dockerPush _ | .deployCf _ _ | .deployKatee _ | .update _ => none

end Script

end PipelineCompiler

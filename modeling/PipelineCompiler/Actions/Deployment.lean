import PipelineCompiler.Actions.ScriptStep
import PipelineCompiler.Task.Shape

/-!
# Deployments and updates

The stages of a deployment to Cloud Foundry with the checks of the author between them, deployments to
Katee, and updates of the workflow itself.
-/

namespace PipelineCompiler.Actions

/-! ## Cloud Foundry -/

namespace CloudFoundry

/-- The stages of a deployment. -/
inductive Stage where
  | push
  | check
  | promote
  | cleanup
deriving DecidableEq, Repr

/-- Name of the step of a stage. -/
def Stage.name : Stage → String
  | .push => "Push"
  | .check => "Check"
  | .promote => "Promote"
  | .cleanup => "Cleanup"

/-- The command of a stage. -/
def Stage.command : Stage → String
  | .push => "halfpipe-push"
  | .check => "halfpipe-check"
  | .promote => "halfpipe-promote"
  | .cleanup => "halfpipe-cleanup"

/-- The condition of a stage; the last one runs whatever happens. -/
def Stage.condition? : Stage → Option String
  | .cleanup => some "always()"
  | _ => none

/-- What every stage is told. -/
def targetEnv (m : Manifest) (l : Leaf) (d : DeployCf) : Env :=
  [("CF_API", readSecret d.api), ("CF_ORG", readSecret d.org), ("CF_SPACE", readSecret d.space),
    ("CF_USERNAME", readSecret d.username), ("CF_PASSWORD", readSecret d.password),
    ("CF_CLI_VERSION", if m.featureToggles.contains "cf-v7" then "cf7" else "cf6"),
    ("CF_MANIFEST_PATH", repoPath m.basePath d.manifest), ("CF_TIMEOUT", l.timeout)]

/-- What the first stage is told about the application. -/
def applicationEnv (m : Manifest) (d : DeployCf) : Env :=
  [("CF_APP_PATH", repoPath m.basePath d.deployArtifact)]
    ++ (if d.varsFiles.isEmpty then []
      else [("CF_VARS_FILES", ",".intercalate (d.varsFiles.map (repoPath m.basePath)))])

/-- The environment of a stage. Variables of the author go over what the first stage is told. -/
def stageEnv (m : Manifest) (l : Leaf) (d : DeployCf) (stage : Stage) : Env :=
  let env :=
    if stage = .push then
      putAll (putAll (targetEnv m l d) (applicationEnv m d)) (secretEnv l.attributes.vars)
    else targetEnv m l d
  if d.testDomain.isEmpty || stage = .cleanup then env else put env "CF_TEST_DOMAIN" d.testDomain

/-- The step of a stage. -/
def stageStep (c : Config) (m : Manifest) (l : Leaf) (d : DeployCf) (stage : Stage) : Step :=
  { useStep stage.name (imageAction (c.registryImage "cf-resource-v2:stable"))
      (.ofTexts [("args", stage.command)]) with
    condition := stage.condition?
    env := stageEnv m l d stage }

/-- The step of a check, which carries the name of the check. -/
def checkStep (c : Config) (m : Manifest) (check : Leaf) : Except RenderError Step :=
  match Script.ofLeaf? c m check with
  | some script => .ok { scriptStep m.basePath script with name := some check.name }
  | none => .error (.check check.kind)

/-- The steps of a deployment. -/
def steps (c : Config) (m : Manifest) (l : Leaf) (d : DeployCf) (prePromote : List Task) :
    Except RenderError (List Step) := do
  let checks ← (Task.flatten prePromote).mapM (checkStep c m)
  let stage := stageStep c m l d
  return prepareSteps m.basePath l ++ [stage .push] ++ checks
    ++ [stage .check, stage .promote, stage .cleanup]

end CloudFoundry

/-! ## Katee -/

/-- Deploy to Katee and wait until the deployment is complete. -/
def kateeSteps (c : Config) (m : Manifest) (l : Leaf) (d : DeployKatee) : List Step :=
  let space := d.spaceFor m.team
  let team := d.teamFor m.team
  let image := c.registryImage "ee-katee-vela-cli:latest"
  let tag := if d.tag = "version" then buildVersion else gitRevision
  let credentials := readSecret ("((" ++ space ++ "-service-account-prod.key))")
  let deployEnv : Env :=
    [("BUILD_VERSION", buildVersion), ("GIT_REVISION", gitRevision), ("DOCKER_TAG", tag),
      ("KATEE_APPLICATION_IMAGE", d.image ++ ":" ++ tag),
      ("KATEE_APPLICATION_NAME", d.applicationName), ("KATEE_APPFILE", d.velaManifest),
      ("KATEE_GKE_CREDENTIALS", credentials), ("KATEE_TEAM", team)]
  let deploy : Step :=
    { shellStep "Deploy to Katee" image m.basePath
        "/exe vela up -f $KATEE_APPFILE --publish-version $DOCKER_TAG" with
      env := putAll deployEnv (secretEnv l.attributes.vars) }
  let wait : Step :=
    { shellStep "Check Deployment Status" image m.basePath
        ("/exe deployment-status " ++ space ++ " " ++ d.applicationName ++ " $PUBLISHED_VERSION") with
      env :=
        [("KATEE_GKE_CREDENTIALS", credentials), ("KATEE_TEAM", team), ("PUBLISHED_VERSION", tag),
          ("CHECK_INTERVAL", toString d.checkInterval.toNat),
          ("MAX_CHECKS", toString d.maxChecks.toNat)] }
  prepareSteps m.basePath l ++ [deploy, wait]

/-! ## Updates -/

/-- Name of the file that a manifest is kept in. -/
def manifestFile : String := ".halfpipe.io"

/-- Bring the workflow up to date with its manifest, and tag the revision if that is asked. -/
def updateSteps (c : Config) (m : Manifest) (l : Leaf) (u : Update) : List Step :=
  let sync : Step :=
    { shellStep "Sync workflow with halfpipe manifest" (c.registryImage "halfpipe-auto-update")
        m.basePath "update-actions-workflow" "/bin/bash" with
      id := some "sync"
      env := [("HALFPIPE_FILE_PATH", repoPath m.basePath manifestFile)] }
  let tag := m.pipelineName ++ "/v$BUILD_VERSION"
  let tagStep : Step :=
    { work := .run ("git tag -f " ++ tag ++ "\ngit push origin " ++ tag)
      name := some ("Tag commit with " ++ tag) }
  prepareSteps m.basePath l ++ [sync] ++ (if u.tagRepo then [tagStep] else [])

end PipelineCompiler.Actions

import PipelineCompiler.Concourse.ScriptStep
import PipelineCompiler.Task.Shape

/-!
# Deployments and updates

A deployment to Cloud Foundry pushes a candidate, runs the checks of the author beside it, checks it and
promotes it, and cleans up whatever happens. A rolling one is a single step. Deployments to Katee and
updates of the pipeline itself are containers of the installation.
-/

namespace PipelineCompiler.Concourse

/-! ## Cloud Foundry -/

namespace CloudFoundry

/-- A path of a deployment, from the root. One into the artifacts is looked for where they were
restored to. -/
def path (m : Manifest) (p : String) : String :=
  match Text.dropStart? p artifactsPrefix with
  | some artifact => Path.join [restoredDir, artifact]
  | none => Path.join [workingDir m.basePath, p]

/-- The stages of a deployment. -/
inductive Stage where
  | rolling
  | push
  | check
  | promote
  | cleanup
deriving DecidableEq, Repr

/-- The word for a stage, which is both its command and the name of its step. -/
def Stage.name : Stage → String
  | .rolling => "halfpipe-rolling-deploy"
  | .push => "halfpipe-push"
  | .check => "halfpipe-check"
  | .promote => "halfpipe-promote"
  | .cleanup => "halfpipe-cleanup"

/-- What every stage is told. -/
def params (m : Manifest) (l : Leaf) (d : DeployCf) (stage : Stage) : Settings :=
  Settings.ofTexts
      [("command", stage.name), ("manifestPath", path m d.manifest),
        ("cliVersion", if m.featureToggles.contains "cf-v7" then "cf7" else "cf6"),
        ("timeout", l.timeout)]
    ++ (if stage = .cleanup then [] else Settings.textUnlessBlank "testDomain" d.testDomain)

/-- What the stages that push are told in addition. -/
def pushParams (m : Manifest) (l : Leaf) (d : DeployCf) (stage : Stage) : Settings :=
  let appPath :=
    if d.deployArtifact.isEmpty then workingDir m.basePath else path m d.deployArtifact
  params m l d stage
    ++ Settings.ofTexts [("appPath", appPath), ("gitRefPath", revisionFile)]
    ++ (if l.attributes.vars.isEmpty then [] else [("vars", .table l.attributes.vars.entries)])
    ++ (if d.varsFiles.isEmpty then [] else [("varsFiles", .texts (d.varsFiles.map (path m)))])
    ++ (if m.isVersioned then [("buildVersionPath", .text "version/version")] else [])

/-- A stage that pushes to a resource. -/
def stageStep (l : Leaf) (resource : String) (stage : Stage) (params : Settings) : Step :=
  (Step.put { name := stage.name, target := some resource, params } {}).forLeaf l

/-- The checks of a candidate as scripts. -/
def checks (c : Config) (m : Manifest) (prePromote : List Task) : Except RenderError (List Script) :=
  (Task.flatten prePromote).mapM fun check =>
    match Script.ofLeaf? c m check with
    | some script => .ok script
    | none => .error (.check check.kind)

/-- The steps of a deployment and the one that follows them whatever happens. -/
def steps (c : Config) (m : Manifest) (l : Leaf) (d : DeployCf) (prePromote : List Task)
    (resource : String) : Except RenderError (List Step × Option Step) := do
  let short (stage : Stage) : Step := stageStep l resource stage (params m l d stage)
  let long (stage : Stage) : Step := stageStep l resource stage (pushParams m l d stage)
  if d.rolling then
    return ([long .rolling], none)
  else
    let scripts ← checks c m prePromote
    let checkSteps := scripts.flatMap (ScriptStep.steps m)
    return (
      [long .push] ++ (Step.together? checkSteps).toList ++ [short .check, short .promote],
      some (short .cleanup))

end CloudFoundry

/-! ## Katee -/

/-- Deploy to Katee and wait until the deployment is complete. -/
def kateeStep (c : Config) (m : Manifest) (l : Leaf) (d : DeployKatee) : Step :=
  let space := d.spaceFor m.team
  let tag := if d.tag = "version" then "$BUILD_VERSION" else "$GIT_REVISION"
  let script :=
    exports m
      ++ ["export DOCKER_TAG=" ++ tag,
        "export KATEE_APPLICATION_IMAGE=" ++ d.image ++ ":$DOCKER_TAG",
        "/exe vela up -f $KATEE_APPFILE --publish-version $DOCKER_TAG",
        "/exe deployment-status $KATEE_NAMESPACE $KATEE_APPLICATION_NAME $DOCKER_TAG"]
  let env : Env :=
    [("KATEE_TEAM", d.teamFor m.team), ("KATEE_NAMESPACE", space), ("KATEE_APPFILE", d.velaManifest),
      ("KATEE_APPLICATION_NAME", d.applicationName),
      ("KATEE_GKE_CREDENTIALS", "((" ++ space ++ "-service-account-prod.key))"),
      ("CHECK_INTERVAL", toString d.checkInterval.toNat), ("MAX_CHECKS", toString d.maxChecks.toNat)]
  Step.forLeaf
    (.task
      { name := Text.identifier l.name
        container :=
          { image := installationSource c "ee-katee-vela-cli" "latest"
            env := putAll env l.attributes.vars.entries
            command := shell ("\n".intercalate script) (some (workingDir m.basePath))
            inputs := [gitDir] ++ (if m.isVersioned then [versionName] else []) } }
      {})
    l

/-! ## Updates -/

/-- Update the pipeline, raise its version and tag the revision if that is asked. -/
def updateSteps (c : Config) (m : Manifest) (l : Leaf) (u : Update) : List Step :=
  let update : TaskStep :=
    { name := "update-pipeline"
      container :=
        { image := installationSource c "halfpipe-auto-update" "latest"
          env :=
            [("CONCOURSE_URL", "((concourse.url))"), ("CONCOURSE_PASSWORD", "((concourse.password))"),
              ("CONCOURSE_TEAM", "((concourse.team))"),
              ("CONCOURSE_USERNAME", "((concourse.username))"), ("PIPELINE_NAME", m.pipelineName),
              ("HALFPIPE_DOMAIN", c.domain), ("HALFPIPE_PROJECT", c.project)]
          command := { path := "update-pipeline", dir := some (workingDir m.basePath) }
          inputs := [gitDir] } }
  let raise : Put := { name := versionName, params := .ofTexts [("bump", "minor")] }
  let tag : Put :=
    { name := gitName
      params :=
        [("repository", .text gitDir), ("tag", .text "version/version"),
          ("tag_prefix", .text (m.pipelineName ++ "/v")), ("only_tag", .flag true)] }
  let steps : List Step := [.task update {}, .put raise {}] ++ (if u.tagRepo then [.put tag {}] else [])
  steps.map fun s => s.forLeaf l

end PipelineCompiler.Concourse

import PipelineCompiler.Lint.TaskRules
import PipelineCompiler.Lint.TriggerRules

/-!
# The standard linters

All rules in the order in which they are reported: the manifest, its toggles, triggers and tasks, then
secrets in variables, the applications that deployments describe, and what one of the build servers
cannot express.
-/

namespace PipelineCompiler.Lint

/-! ## Secrets -/

/-- References that are embedded in variables name a map and a key. -/
def varsFaults (vars : Vars) : List Fault :=
  vars.entries.flatMap fun (name, value) =>
    ((Secret.references value).filter fun r => !Secret.isReference r).map fun r =>
      .invalid ("vars." ++ name) s!"'{r}' must be of the form '((map_name.key_name))'"

/-- The rule for the variables of a leaf and of the checks of its candidate. -/
def secretFindingsAt (path : TaskPath) (l : Leaf) : Findings :=
  let own := Findings.ofErrors (varsFaults l.attributes.vars)
  let checks : Findings :=
    match l.action with
    | .deployCf _ prePromote =>
      .concat ((Task.flatten prePromote).zipIdx.map fun (check, i) =>
        (Findings.ofErrors (varsFaults check.attributes.vars)).under (prePromotePosition i))
    | _ => {}
  (own ++ checks).under (taskPosition path)

/-- The report on secrets. -/
def secretsReport (c : Config) (m : Manifest) : Report :=
  { linter := "Secrets"
    docsUrl := docsUrl c "concourse/secrets/"
    findings := .concat ((Task.leaves m.tasks).map fun (path, l) => secretFindingsAt path l) }

/-! ## Applications -/

/-- The rules for the only application of a deployment. -/
def applicationFindings (c : Config) (d : DeployCf) (app : Application) : Findings :=
  let fault (reason : String) : Fault := .deployManifest d.manifest reason
  let routes : List Fault :=
    if app.noRoute then
      if !app.routes.isEmpty then [fault "you cannot set both 'no-route: true' and 'routes'"]
      else if app.healthCheckType ≠ "process" then
        [fault "apps without routes must use 'health-check-type: process'"]
      else []
    else if app.routes.isEmpty then [fault "app must have at least one route, or set 'no-route: true'"]
    else []
  let schemes : List Fault :=
    (app.routes.filter fun r => Text.startsWith r "http://" || Text.startsWith r "https://").map
      fun r => fault s!"route '{r}' must not contain a scheme"
  let image : List Fault :=
    if app.dockerImage.isEmpty then []
    else if !d.deployArtifact.isEmpty then
      [fault "You cannot specify both 'deploy_artifact' in the task and 'docker.image' in the CF manifest"]
    else if d.api ≠ c.cfDockerApi then
      [.invalid "api" s!"docker images can only be deployed to '{c.cfDockerApi}'"]
    else if !Text.startsWith app.dockerImage c.dockerRegistry then
      [fault s!"Image must come from '{c.dockerRegistry}'"]
    else []
  .ofErrors ((if app.name.isEmpty then [fault "app name must be set"] else [])
      ++ routes ++ schemes ++ image)
    ++ .ofWarnings (if app.buildpack.isEmpty then []
      else [fault "'buildpack' is deprecated, use 'buildpacks' instead"])

/-- The rules for what a deployment describes. A manifest that an earlier task produces is not
read. -/
def deployManifestFindings (c : Config) (inventory : Inventory) (vars : Vars) (d : DeployCf) :
    Findings :=
  if inArtifacts d.manifest then {}
  else
    match inventory d.manifest d.varsFiles vars with
    | .error message => .ofErrors [.deployManifest d.manifest message]
    | .ok [app] => applicationFindings c d app
    | .ok apps =>
      .ofErrors [.deployManifest d.manifest
        s!"halfpipe only supports exactly one application per manifest, found {apps.length}"]

/-- The report on the applications that deployments describe. -/
def deployManifestReport (c : Config) (m : Manifest) (s : Surroundings) : Report :=
  { linter := "CF Manifest"
    docsUrl := docsUrl c "cf-deployment/"
    findings := .concat ((Task.leaves m.tasks).map fun (path, l) =>
      match l.action with
      | .deployCf d _ =>
        (deployManifestFindings c s.inventory l.attributes.vars d).under (taskPosition path)
      | _ => {}) }

/-! ## What GitHub Actions cannot express -/

/-- The name under which the build server is reported. -/
def actionsBackend : String := "GitHub Actions"

/-- Features of a leaf that are ignored. -/
def ignoredLeafFeatures (l : Leaf) : List String :=
  (if l.attributes.manualTrigger then ["manual_trigger"] else [])
    ++ (match l.action with
      | .deployCf d _ => if d.rolling then ["rolling"] else []
      | .consumerTest t => if t.useCovenant then ["use_covenant"] else []
      | _ => [])

/-- Features of a trigger that are ignored. -/
def ignoredTriggerFeatures : Trigger → List String
  | .git g =>
    (if g.privateKey.isEmpty then [] else ["private_key"]) ++ (if g.uri.isEmpty then [] else ["uri"])
  | .pipeline _ => ["pipeline trigger"]
  | .timer _ | .docker _ => []

/-- Warnings about ignored features. -/
def ignoredFindings (features : List String) : Findings :=
  .ofWarnings (features.map fun f => .unsupported f actionsBackend)

/-- The report on what is ignored; only workflows have one. -/
def actionsReport (m : Manifest) : Report :=
  { linter := actionsBackend
    docsUrl := "https://ee.public.springernature.app/rel-eng/github-actions/overview/"
    findings :=
      if m.platform = .actions then
        .concat ((Task.leaves m.tasks).map fun (path, l) =>
            (ignoredFindings (ignoredLeafFeatures l)).under (taskPosition path))
          ++ .concat (m.triggers.zipIdx.map fun (t, i) =>
            (ignoredFindings (ignoredTriggerFeatures t)).under (triggerPosition i))
      else {} }

/-! ## All linters -/

/-- The reports of the standard linters. -/
def run (c : Config) (s : Surroundings) (m : Manifest) : List Report :=
  [manifestReport c m, togglesReport c m, triggersReport c m s, tasksReport c m s,
    secretsReport c m, deployManifestReport c m s, actionsReport m]

/-- The names of the standard linters. -/
def linterNames : List String :=
  ["Manifest", "Feature Toggles", "Triggers", "Tasks", "Secrets", "CF Manifest", "GitHub Actions"]

end PipelineCompiler.Lint

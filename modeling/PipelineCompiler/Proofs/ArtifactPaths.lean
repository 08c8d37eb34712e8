import PipelineCompiler.Proofs.Actions.Jobs
import PipelineCompiler.Proofs.Concourse.Uploads

/-!
# Paths into restored artifacts

A leaf may use a path into artifacts that an earlier leaf saved. The rules do not look for a file there:
what they find does not depend on it (`tasksFindings_congr`). The file is there when the job runs only
if the job restores artifacts, which it does if the leaf asks for it or hands such a path to a deployment
to Cloud Foundry (`readsArtifacts_iff_of_uses`). The rules let other leaves pass that have no artifacts
restored for them.
-/

namespace PipelineCompiler

/-! ## Paths that leaves use -/

/-- The paths of files and directories that the action of a leaf uses. The rest of a script is arguments
for its first word. -/
def usedPaths (l : Leaf) : List String :=
  match l.action with
  | .run r => (Text.words r.script).head?.toList
  | .dockerPush p => [p.dockerfilePath, p.buildPath]
  | .dockerCompose d => [d.composeFile]
  | .deployCf d _ => [d.manifest, d.deployArtifact]
  | .deployKatee d => [d.velaManifest]
  | .deployMlZip _ | .deployMlModules _ | .consumerTest _ | .update _ => []

/-- The leaf uses a path into restored artifacts. -/
def usesArtifacts (l : Leaf) : Bool := (usedPaths l).any inArtifacts

/-- The leaf deploys to Cloud Foundry. -/
def Action.isDeployCf : Action Task → Bool
  | .deployCf _ _ => true
  | _ => false

/-- A leaf that uses restored artifacts has them restored just if it asks for that or deploys to Cloud
Foundry. -/
theorem readsArtifacts_iff_of_uses {l : Leaf} (h : usesArtifacts l = true) :
    l.readsArtifacts = true ↔ l.attributes.restoreArtifacts = true ∨ l.action.isDeployCf = true := by
  obtain ⟨attributes, action⟩ := l
  rw [LeafOf.readsArtifacts, Bool.or_eq_true]
  cases action with
  | deployCf d prePromote =>
      have hpath : inArtifacts d.manifest = true ∨ inArtifacts d.deployArtifact = true := by
        simpa [usesArtifacts, usedPaths] using h
      have hreads : Action.readsArtifacts (.deployCf d prePromote) = true := by
        rw [Action.readsArtifacts, Bool.or_eq_true, Bool.or_eq_true]
        exact .inl hpath
      exact iff_of_true (.inr hreads) (.inr rfl)
  | _ => simp [Action.readsArtifacts, Action.isDeployCf]

/-! ## What the rules look at -/

/-- The probes differ at most in what they say about paths into restored artifacts. -/
structure FileProbe.AgreesOutside (files files' : FileProbe) : Prop where
  check : ∀ path executable, inArtifacts path = false →
    files.check path executable = files'.check path executable
  exists? : ∀ path, inArtifacts path = false → files.exists? path = files'.exists? path

namespace Lint

section Congruence

variable {files files' : FileProbe} (h : files.AgreesOutside files')
include h

theorem fileFaults_congr (path : String) (executable : Bool) :
    fileFaults files path executable = fileFaults files' path executable := by
  rw [fileFaults, fileFaults]
  by_cases hpath : inArtifacts path = true
  · rw [if_pos hpath, if_pos hpath]
  · rw [if_neg hpath, if_neg hpath, h.check path executable (Bool.not_eq_true _ ▸ hpath)]

theorem requiredFileFaults_congr (field path : String) :
    requiredFileFaults files field path = requiredFileFaults files' field path := by
  rw [requiredFileFaults, requiredFileFaults, fileFaults_congr h]

theorem runFindings_congr (r : Run) : runFindings r files = runFindings r files' := by
  simp only [runFindings, fileFaults_congr h]

/-- The directory of a build has a rule of its own, which lets the same paths pass. -/
theorem dockerPushFindings_congr (p : DockerPush) (m : Manifest) :
    dockerPushFindings p m files = dockerPushFindings p m files' := by
  have hbuild : (p.buildPath.isEmpty || inArtifacts p.buildPath || files.exists? p.buildPath)
      = (p.buildPath.isEmpty || inArtifacts p.buildPath || files'.exists? p.buildPath) := by
    by_cases hpath : inArtifacts p.buildPath = true
    · rw [hpath, Bool.or_true, Bool.true_or, Bool.true_or]
    · rw [h.exists? p.buildPath (Bool.not_eq_true _ ▸ hpath)]
  simp only [dockerPushFindings, hbuild, requiredFileFaults_congr h]

theorem prePromoteFindings_congr (t : Task) :
    prePromoteFindings files t = prePromoteFindings files' t := by
  simp only [prePromoteFindings, runFindings_congr h]

theorem deployCfFindings_congr (d : DeployCf) (prePromote : List Task) :
    deployCfFindings d prePromote files = deployCfFindings d prePromote files' := by
  simp only [deployCfFindings, requiredFileFaults_congr h, fileFaults_congr h,
    prePromoteFindings_congr h]

/-- The rules for a leaf do not look at paths into restored artifacts. -/
theorem leafFindings_congr (m : Manifest) (l : Leaf) :
    leafFindings m files l = leafFindings m files' l := by
  obtain ⟨attributes, action⟩ := l
  rw [leafFindings, leafFindings]
  refine congrArg (· ++ _) ?_
  cases action with
  | run r => exact runFindings_congr h r
  | dockerPush p => exact dockerPushFindings_congr h p m
  | dockerCompose d =>
      simp only [actionFindings, dockerComposeFindings, requiredFileFaults_congr h]
  | deployCf d prePromote => exact deployCfFindings_congr h d prePromote
  | deployKatee d =>
      simp only [actionFindings, deployKateeFindings, requiredFileFaults_congr h]
  | _ => rfl

/-- Neither do the rules for the tree. -/
theorem tasksFindings_congr (m : Manifest) : tasksFindings m files = tasksFindings m files' := by
  have hleaf (path : TaskPath) (t : Task) :
      leafFindingsAt m files path t = leafFindingsAt m files' path t := by
    cases t with
    | leaf l => rw [leafFindingsAt, leafFindingsAt, leafFindings_congr h]
    | _ => rfl
  have hsequence (path : TaskPath) (tasks : List Task) (inParallel : Bool) :
      sequenceFindingsAt m files path tasks inParallel
        = sequenceFindingsAt m files' path tasks inParallel := by
    simp only [sequenceFindingsAt, hleaf]
  have hbranch (path : TaskPath) (t : Task) :
      branchFindingsAt m files path t = branchFindingsAt m files' path t := by
    cases t with
    | leaf l => exact hleaf path (.leaf l)
    | sequence tasks => exact hsequence path tasks true
    | parallel tasks => rfl
  have htask (i : Nat) (t : Task) : taskFindingsAt m files i t = taskFindingsAt m files' i t := by
    cases t with
    | leaf l => exact hleaf [i] (.leaf l)
    | sequence tasks => exact hsequence [i] tasks false
    | parallel tasks => simp only [taskFindingsAt, hbranch]
  simp only [tasksFindings, htask]

end Congruence

end Lint

/-! ## Jobs that restore artifacts -/

namespace Concourse

/-- The first container of the plan downloads artifacts. -/
def Job.Restores (j : Job) : Prop :=
  ∃ t rest, Step.collect Step.task? j.plan = t :: rest ∧ restoredDir ∈ t.container.outputs

section Restoring

variable {c : Config} {m : Manifest} {resources : ResourceSet} {l : Leaf}

/-- Downloading is no part of the work for a leaf. -/
theorem Work.not_outputs_restored {steps : List Step} {ensure : Option Step}
    (h : Work c m resources l steps ensure) : ¬ Step.Outputs steps restoredDir := by
  have hscript (s : Script) : ¬ Step.Outputs (ScriptStep.steps m s) restoredDir := by
    rw [outputs_script]
    rintro (⟨-, hdir⟩ | ⟨-, hdir⟩)
    · exact absurd hdir (by decide)
    · exact absurd hdir (by decide)
  cases h with
  | script s hs => exact hscript s
  | imageBuild p haction => exact fun houtputs => absurd (outputs_imageBuild houtputs) (by decide)
  | rolling d prePromote r haction hr hrolling =>
      rintro ⟨t, ht, -⟩
      exact absurd ht List.not_mem_nil
  | stages d prePromote r scripts haction hr hrolling hscripts =>
      rw [Step.Outputs, tasks_stageSteps]
      intro houtputs
      obtain ⟨s, -, houtputs⟩ := Step.outputs_flatMap.1 houtputs
      exact hscript s houtputs
  | katee d haction => exact not_outputs_katee
  | update u haction => exact not_outputs_update

/-- A job restores artifacts ahead of its work just if its leaf reads some. -/
theorem restores_iff_of_consists {passed : List String} {j : Job} {steps : List Step}
    (h : Consists c m resources l passed j steps) : j.Restores ↔ l.readsArtifacts = true := by
  have hwork := h.work.not_outputs_restored
  rw [Job.Restores, h.plan, initialPlan_eq, List.append_assoc, Step.collect_append, tasks_fetchSteps,
    List.nil_append, Step.collect_append]
  by_cases hreads : l.readsArtifacts = true
  · rw [if_pos hreads]
    exact iff_of_true ⟨_, _, rfl, List.mem_singleton.2 rfl⟩ hreads
  · rw [if_neg hreads]
    refine iff_of_false ?_ hreads
    rintro ⟨t, rest, hsteps, hdir⟩
    rw [show Step.collect Step.task? [] = [] from rfl, List.nil_append] at hsteps
    exact hwork ⟨t, by rw [hsteps]; exact List.mem_cons_self, hdir⟩

end Restoring

end Concourse

namespace Actions

/-- The action that downloads artifacts. -/
def downloadAction : String := "actions/download-artifact"

/-- The job downloads artifacts as soon as it has checked out the repository. -/
def Job.Restores (j : Job) : Prop :=
  ∃ s, j.steps[1]? = some s ∧ s.action?.map bareAction = some downloadAction

section Restoring

variable {c : Config} {m : Manifest} {l : Leaf} {id : String} {needs : List String} {j : Job}

/-- Whatever its leaf is for, a job is prepared first. -/
theorem exists_steps_eq_prepare (h : job c m id l needs = .ok j) :
    ∃ rest, j.steps = prepareSteps m.basePath l ++ rest := by
  obtain ⟨steps, hbody, hj⟩ := body_of_job h
  have hprepared : ∃ rest, steps = prepareSteps m.basePath l ++ rest := by
    cases hbody with
    | script s hs =>
        -- a script is prepared as a leaf of its own, which reads artifacts just if the leaf does
        have hprepare : prepareSteps m.basePath s.leaf = prepareSteps m.basePath l := by
          rw [prepareSteps, prepareSteps, (Script.artifacts_ofLeaf? hs).2.2]
        rw [scriptSteps, hprepare, List.append_assoc, List.append_assoc]
        exact ⟨_, rfl⟩
    | imageBuild p haction => exact ⟨_, rfl⟩
    | deployment d prePromote checks haction hchecks =>
        rw [deploymentSteps, List.append_assoc, List.append_assoc]
        exact ⟨_, rfl⟩
    | katee d haction => exact ⟨_, rfl⟩
    | update u haction =>
        rw [updateSteps, List.append_assoc]
        exact ⟨_, rfl⟩
  obtain ⟨rest, rfl⟩ := hprepared
  exact ⟨rest ++ messageSteps l, by rw [hj, List.append_assoc]⟩

/-- A job restores artifacts ahead of its work if its leaf reads some. -/
theorem restores_of_job (h : job c m id l needs = .ok j) (hreads : l.readsArtifacts = true) :
    j.Restores := by
  obtain ⟨rest, hsteps⟩ := exists_steps_eq_prepare h
  have hdownload : bareAction "actions/download-artifact@v2" = downloadAction := by decide
  rw [Job.Restores, hsteps, prepareSteps, if_pos hreads]
  exact ⟨_, rfl, congrArg some hdownload⟩

end Restoring

end Actions

/-! ## Accepted manifests -/

/-- Both build servers restore artifacts for the leaves that read some, ahead of their work. -/
structure Restored (c : Config) (m : Manifest) (p : Concourse.Pipeline) (w : Actions.Workflow) :
    Prop where
  pipeline : Concourse.render c m = .ok p
  workflow : Actions.render c m = .ok w
  pipelineJobs : List.Forall₂ (fun e j => j.Restores ↔ e.2.readsArtifacts = true)
    (Task.leaves m.tasks) p.jobs
  workflowJobs : List.Forall₂ (fun e j => e.2.readsArtifacts = true → j.Restores)
    (Task.leaves m.tasks) w.jobs

theorem restored_of_renderable (c : Config) {m : Manifest} (h : m.Renderable) :
    ∃ p w, Restored c m p w := by
  obtain ⟨js, hp, hjobs⟩ := Concourse.render_eq_ok c h
  obtain ⟨w, hw, hjobs'⟩ := Actions.render_eq_ok c h
  refine ⟨_, w, hp, hw, forall₂_imp_mem hjobs fun e he j _ hj => ?_, hjobs'.imp fun e j hj => ?_⟩
  · obtain ⟨steps, hconsists⟩ := Concourse.consists_of_renderable h he hj
    exact Concourse.restores_iff_of_consists hconsists
  · exact Actions.restores_of_job hj

/-- For a manifest without lint errors, the rules for tasks do not depend on what stands at paths into
restored artifacts. A leaf that uses such a path, be it of the tree or the check of a candidate, counts
as reading artifacts just if it asks for them or deploys to Cloud Foundry. Ahead of a leaf of the tree
that reads some, a leaf is listed that saves some, and its job restores them before its work. -/
theorem artifactPaths_of_accepted (c : Config) (s : Surroundings) (m : Manifest)
    (h : Lint.hasErrors (Lint.run c s m) = false) :
    (∀ files : FileProbe, files.AgreesOutside s.files →
        Lint.tasksFindings m files = Lint.tasksFindings m s.files)
      ∧ (∀ l : Leaf, usesArtifacts l = true →
        (l.readsArtifacts = true
          ↔ l.attributes.restoreArtifacts = true ∨ l.action.isDeployCf = true))
      ∧ (∀ e ∈ Task.leaves m.tasks, e.2.readsArtifacts = true →
        ∃ f ∈ Task.leaves m.tasks, f.2.savesArtifacts = true ∧ f.1 < e.1)
      ∧ ∃ p w, Restored c m.withDefaults p w := by
  refine ⟨fun files hfiles => Lint.tasksFindings_congr hfiles m,
    fun l huses => readsArtifacts_iff_of_uses huses, fun e he hreads => ?_,
    restored_of_renderable c (Lint.renderable_of_accepted h).withDefaults⟩
  exact Lint.exists_save_listed_before (Lint.tasksFindings_clean h) he hreads

/-- Surroundings without any files. -/
def bareSurroundings : Surroundings :=
  { Lint.sampleSurroundings with files := ⟨fun _ _ => some .notFound, fun _ => false⟩ }

/-- A compiled application that is saved and then deployed, with its manifest. -/
def deployedArtifact : Manifest where
  team := "acme"
  pipeline := "app"
  triggers := [.git { uri := "https://github.com/acme/app" }]
  tasks :=
    [.leaf
        { attributes := { name := "build", saveArtifacts := ["out"] }
          action := .run { script := "\\make", docker := { image := "alpine" } } },
      .leaf
        { attributes := { name := "deploy" }
          action := .deployCf
            { api := "api", org := "acme", space := "live", manifest := "../artifacts/manifest.yml" }
            [] }]

theorem deployedArtifact_restored :
    Lint.hasErrors (Lint.run {} bareSurroundings deployedArtifact) = false
      ∧ ∃ e ∈ Task.leaves deployedArtifact.tasks, usesArtifacts e.2 = true ∧ e.2.readsArtifacts = true
        ∧ (∃ f ∈ Task.leaves deployedArtifact.tasks, f.2.savesArtifacts = true ∧ f.1 < e.1)
        ∧ ∃ p w, Restored {} deployedArtifact.withDefaults p w := by
  have haccepted : Lint.hasErrors (Lint.run {} bareSurroundings deployedArtifact) = false := by
    decide +kernel
  have hleaf : ∃ e ∈ Task.leaves deployedArtifact.tasks,
      usesArtifacts e.2 = true ∧ e.2.action.isDeployCf = true := by
    decide +kernel
  obtain ⟨-, hreads, hsaved, hrestored⟩ := artifactPaths_of_accepted {} _ _ haccepted
  obtain ⟨e, he, huses, hdeploys⟩ := hleaf
  have hread := (hreads e.2 huses).2 (.inr hdeploys)
  exact ⟨haccepted, e, he, huses, hread, hsaved e he hread, hrestored⟩

/-- A script that is run from artifacts which no task saves. -/
def missingArtifact : Manifest where
  team := "acme"
  pipeline := "app"
  triggers := [.git { uri := "https://github.com/acme/app" }]
  tasks :=
    [.leaf
        { attributes := { name := "run" }
          action := .run { script := "../artifacts/run.sh", docker := { image := "alpine" } } }]

/-- It is accepted where there are no files at all, and its job does not restore anything. -/
theorem missingArtifact_not_restored :
    Lint.hasErrors (Lint.run {} bareSurroundings missingArtifact) = false
      ∧ (∃ e ∈ Task.leaves missingArtifact.tasks, usesArtifacts e.2 = true ∧ e.2.readsArtifacts = false)
      ∧ ∃ p, Concourse.render {} missingArtifact.withDefaults = .ok p ∧ p.jobs.length = 1
        ∧ ∀ j ∈ p.jobs, ¬ j.Restores := by
  have haccepted : Lint.hasErrors (Lint.run {} bareSurroundings missingArtifact) = false := by
    decide +kernel
  have hleaf : ∃ e ∈ Task.leaves missingArtifact.tasks,
      usesArtifacts e.2 = true ∧ e.2.readsArtifacts = false := by
    decide +kernel
  have hunread : ∀ e ∈ Task.leaves missingArtifact.withDefaults.tasks, e.2.readsArtifacts = false := by
    decide +kernel
  have hrenderable := (Lint.renderable_of_accepted haccepted).withDefaults
  obtain ⟨p, w, hrestored⟩ := restored_of_renderable {} hrenderable
  refine ⟨haccepted, hleaf, p, hrestored.pipeline,
    hrestored.pipelineJobs.length_eq.symm.trans (by decide), fun j hj hrestores => ?_⟩
  obtain ⟨e, he, hiff⟩ := exists_of_mem_right hrestored.pipelineJobs hj
  exact absurd ((hunread e he).symm.trans (hiff.1 hrestores)) Bool.false_ne_true

end PipelineCompiler

import PipelineCompiler.Actions.Rendering
import PipelineCompiler.Proofs.Script

/-!
# Jobs of a workflow

A leaf that finds what it needs in its manifest gets a job, and a manifest that can be rendered a
workflow with one job for each leaf (`render_eq_ok`). What a job can consist of is said once, by `Body`.
-/

namespace PipelineCompiler.Actions

variable {m : Manifest} {l : Leaf}

/-- A deployment to Cloud Foundry has its steps if its checks are such. -/
theorem deployCf_eq_ok (c : Config) (m : Manifest) (l : Leaf) (d : DeployCf) {prePromote : List Task}
    (hcheck : ∀ t ∈ prePromote, t.isCheck = true) :
    ∃ steps, CloudFoundry.steps c m l d prePromote = .ok steps := by
  obtain ⟨checks, hchecks⟩ : ∃ checks,
      (Task.flatten prePromote).mapM (CloudFoundry.checkStep c m) = .ok checks := by
    refine exists_mapM_eq_ok fun check hl => ?_
    obtain ⟨s, hs⟩ := Script.exists_ofLeaf? c m (Script.isScript_of_isCheck hcheck hl)
    exact ⟨_, by rw [CloudFoundry.checkStep, hs]⟩
  rw [CloudFoundry.steps, hchecks]
  exact ⟨_, rfl⟩

theorem body_of_isScript {c : Config} {s : Script} (hscript : l.action.isScript = true)
    (hs : Script.ofLeaf? c m l = some s) : body c m l = .ok (scriptSteps m.basePath s) := by
  unfold body
  cases haction : l.action <;> simp_all [Action.isScript]

/-- A leaf that finds what it needs has steps. -/
theorem body_eq_ok (c : Config) (hadmits : m.Admits l) : ∃ steps, body c m l = .ok steps := by
  by_cases hscript : l.action.isScript = true
  · obtain ⟨s, hs⟩ := Script.exists_ofLeaf? c m hscript
    exact ⟨_, body_of_isScript hscript hs⟩
  unfold body
  unfold Manifest.Admits at hadmits
  cases haction : l.action with
  | dockerPush p => exact ⟨_, rfl⟩
  | deployCf d prePromote =>
      rw [haction] at hadmits
      exact deployCf_eq_ok c m l d hadmits
  | deployKatee d => exact ⟨_, rfl⟩
  | update u => exact ⟨_, rfl⟩
  | _ => simp [haction, Action.isScript] at hscript

/-- A leaf that finds what it needs gets a job. -/
theorem job_eq_ok (c : Config) (hadmits : m.Admits l) (id : String) (needs : List String) :
    ∃ j, job c m id l needs = .ok j := by
  obtain ⟨steps, hsteps⟩ := body_eq_ok c hadmits
  rw [job, hsteps]
  exact ⟨_, rfl⟩

/-! ## What a leaf is for -/

/-- The steps of a deployment, with its checks between pushing the candidate and promoting it. -/
def deploymentSteps (c : Config) (m : Manifest) (l : Leaf) (d : DeployCf) (checks : List Step) :
    List Step :=
  prepareSteps m.basePath l ++ [CloudFoundry.stageStep c m l d .push] ++ checks
    ++ [CloudFoundry.stageStep c m l d .check, CloudFoundry.stageStep c m l d .promote,
      CloudFoundry.stageStep c m l d .cleanup]

/-- The steps that a job works through for its leaf. -/
inductive Body (c : Config) (m : Manifest) (l : Leaf) : List Step → Prop
  | script (s : Script) (hs : Script.ofLeaf? c m l = some s) : Body c m l (scriptSteps m.basePath s)
  | imageBuild (p : DockerPush) (haction : l.action = .dockerPush p) :
      Body c m l (ImageBuild.steps m.basePath l p)
  | deployment (d : DeployCf) (prePromote : List Task) (checks : List Step)
      (haction : l.action = .deployCf d prePromote)
      (hchecks : List.Forall₂ (fun check step => ∃ s, Script.ofLeaf? c m check = some s
          ∧ step = { scriptStep m.basePath s with name := some check.name })
        (Task.flatten prePromote) checks) : Body c m l (deploymentSteps c m l d checks)
  | katee (d : DeployKatee) (haction : l.action = .deployKatee d) : Body c m l (kateeSteps c m l d)
  | update (u : Update) (haction : l.action = .update u) : Body c m l (updateSteps c m l u)

variable {c : Config}

/-- The step of a check is that of its script. -/
theorem checkStep_eq_ok {check : Leaf} {step : Step} (h : CloudFoundry.checkStep c m check = .ok step) :
    ∃ s, Script.ofLeaf? c m check = some s
      ∧ step = { scriptStep m.basePath s with name := some check.name } := by
  rw [CloudFoundry.checkStep] at h
  split at h
  · next s hs => exact ⟨s, hs, (Except.ok.inj h).symm⟩
  · simp at h

/-- The steps for a leaf are made up in one of these ways. -/
theorem Body.of_eq_ok {steps : List Step} (h : body c m l = .ok steps) : Body c m l steps := by
  by_cases hscript : l.action.isScript = true
  · obtain ⟨s, hs⟩ := Script.exists_ofLeaf? c m hscript
    rw [body_of_isScript hscript hs] at h
    exact Except.ok.inj h ▸ .script s hs
  rw [body] at h
  cases haction : l.action with
  | dockerPush p =>
      rw [haction] at h
      exact Except.ok.inj h ▸ .imageBuild p haction
  | deployCf d prePromote =>
      rw [haction] at h
      obtain ⟨checks, hchecks, h⟩ := bind_eq_ok.1 h
      have hsteps := (mapM_eq_ok.1 hchecks).imp fun check step hstep => checkStep_eq_ok hstep
      exact Except.ok.inj h ▸ .deployment d prePromote checks haction hsteps
  | deployKatee d =>
      rw [haction] at h
      exact Except.ok.inj h ▸ .katee d haction
  | update u =>
      rw [haction] at h
      exact Except.ok.inj h ▸ .update u haction
  | _ => simp [haction, Action.isScript] at hscript

/-- A job works through what its leaf is for and then sends messages. -/
theorem body_of_job {id : String} {needs : List String} {j : Job} (h : job c m id l needs = .ok j) :
    ∃ steps, Body c m l steps ∧ j.steps = steps ++ messageSteps l := by
  obtain ⟨steps, hsteps, hj⟩ := bind_eq_ok.1 h
  exact ⟨steps, Body.of_eq_ok hsteps, by rw [← Except.ok.inj hj]⟩

/-! ## Scripts that run -/

/-- The job of a leaf that runs as a script works through that. -/
theorem exists_scriptSteps {id : String} {needs : List String} {j : Job}
    (h : job c m id l needs = .ok j) (hscript : l.action.isScript = true) :
    ∃ s, Script.ofLeaf? c m l = some s ∧ j.steps = scriptSteps m.basePath s ++ messageSteps l := by
  obtain ⟨steps, hbody, hj⟩ := body_of_job h
  cases hbody with
  | script s hs => exact ⟨s, hs, hj⟩
  | imageBuild p haction | deployment d prePromote checks haction hchecks | katee d haction
  | update u haction =>
      rw [haction] at hscript
      exact absurd hscript Bool.false_ne_true

/-- The step runs the script, under whatever name. -/
def Step.Runs (basePath : String) (step : Step) (s : Script) : Prop :=
  ∃ name, step = { scriptStep basePath s with name }

theorem runs_scriptStep (basePath : String) (s : Script) : (scriptStep basePath s).Runs basePath s :=
  ⟨_, rfl⟩

/-- What a job does for its leaf has a step for every script that is to run. -/
theorem exists_runs_of_body {steps : List Step} (h : Body c m l steps) {runner : Leaf}
    (hrunner : runner ∈ Script.runners l) {s : Script} (hs : Script.ofLeaf? c m runner = some s) :
    ∃ step ∈ steps, step.Runs m.basePath s := by
  cases h with
  | script s' hs' =>
      rw [Script.runners_of_isScript (Script.isScript_of_ofLeaf? hs'), List.mem_singleton] at hrunner
      subst hrunner
      obtain rfl := Option.some.inj (hs'.symm.trans hs)
      refine ⟨scriptStep m.basePath s', ?_, runs_scriptStep _ _⟩
      simp [scriptSteps]
  | deployment d prePromote checks haction hchecks =>
      rw [Script.runners_deployCf haction] at hrunner
      obtain ⟨step, hstep, s', hs', heq⟩ := exists_of_mem_left hchecks hrunner
      obtain rfl := Option.some.inj (hs'.symm.trans hs)
      refine ⟨step, ?_, _, heq⟩
      simp [deploymentSteps, hstep]
  | imageBuild p haction | katee d haction | update u haction =>
      rw [Script.runners, Script.checksOf, haction] at hrunner
      exact absurd hrunner List.not_mem_nil

/-- The job of a leaf has a step for every script that is to run. -/
theorem exists_runs_of_job {id : String} {needs : List String} {j : Job}
    (h : job c m id l needs = .ok j) {runner : Leaf} (hrunner : runner ∈ Script.runners l) {s : Script}
    (hs : Script.ofLeaf? c m runner = some s) : ∃ step ∈ j.steps, step.Runs m.basePath s := by
  obtain ⟨steps, hbody, hj⟩ := body_of_job h
  obtain ⟨step, hstep, hruns⟩ := exists_runs_of_body hbody hrunner hs
  exact ⟨step, hj ▸ List.mem_append_left _ hstep, hruns⟩

/-! ## Workflows -/

/-- A job has the id that it is built under and needs the jobs that it is built to need. -/
theorem id_needs_of_job {id : String} {needs : List String} {j : Job}
    (h : job c m id l needs = .ok j) : j.id = id ∧ j.needs = needs := by
  obtain ⟨steps, -, hj⟩ := bind_eq_ok.1 h
  rw [← Except.ok.inj hj]
  exact ⟨rfl, rfl⟩

/-- Id of the job of a leaf at a position. -/
def leafId (m : Manifest) (e : TaskPath × Leaf) : String :=
  ((jobIndex m).name? e.1).getD (jobId e.2.name)

/-- Ids of the jobs that the job of a leaf at a position needs. -/
def leafNeeds (m : Manifest) (e : TaskPath × Leaf) : List String := (jobIndex m).passed m.tasks e.1

/-- A manifest that can be rendered has a workflow with one job for each leaf, in their order. -/
theorem render_eq_ok (c : Config) (h : m.Renderable) :
    ∃ w, render c m = .ok w
      ∧ List.Forall₂ (fun e j => job c m (leafId m e) e.2 (leafNeeds m e) = .ok j)
          (Task.leaves m.tasks) w.jobs := by
  obtain ⟨js, hjs⟩ : ∃ js, jobs c m = .ok js :=
    exists_mapM_eq_ok fun e he => job_eq_ok c (h.leaves e.2 (List.mem_map_of_mem he)) _ _
  have hall := mapM_eq_ok.1 hjs
  rw [render, Task.checkShape_eq_ok.2 h.stages, hjs]
  exact ⟨_, rfl, hall⟩

end PipelineCompiler.Actions

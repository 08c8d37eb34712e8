import PipelineCompiler.Proofs.Concourse.Declarations
import PipelineCompiler.Proofs.Concourse.Steps

/-!
# Jobs of a Concourse pipeline

A leaf that finds what it needs in its manifest gets a job, and building the job declares nothing once
the deployment target of the leaf is there (`job_eq_ok`). The job fetches what `leafGets` says and pushes
for the reasons of its leaf. Jobs are built one after the other for all leaves (`jobs_eq_ok`).
-/

namespace PipelineCompiler.Concourse

variable {c : Config} {m : Manifest} {resources : ResourceSet} {l : Leaf}

/-! ## What follows a plan -/

/-- Messages are sent by leaves that some channel hears about. -/
theorem messages_work {channels : List String} (text status : String)
    (h : channels ≠ [] → l.usesNotifications = true) :
    Works resources l (channels.map (messageStep text status)) := by
  refine .of_forall fun s hs => ?_
  obtain ⟨channel, hchannel, rfl⟩ := List.mem_map.1 hs
  rw [messageStep]
  exact .put (.message _ (h (List.ne_nil_of_mem hchannel)))

theorem onSuccess_works : Works resources l (onSuccess l).toList := by
  rw [onSuccess]
  cases hn : l.attributes.notifications with
  | none => exact .nil
  | some n =>
      refine .map_asTransfer (.together (messages_work _ _ fun hne => ?_))
      simp [LeafOf.usesNotifications, hn, Notifications.isDefined, hne]

theorem onFailure_works : Works resources l (onFailure l).toList := by
  rw [onFailure]
  refine .map_asTransfer (.together (.append (.ite fun h => .put (.artifactsOnFailure _ h)) ?_))
  cases hn : l.attributes.notifications with
  | none => exact .nil
  | some n =>
      refine messages_work _ _ fun hne => ?_
      simp [LeafOf.usesNotifications, hn, Notifications.isDefined, hne]

/-! ## What a leaf is for -/

/-- A script uploads artifacts only if its leaf counts as saving some. -/
theorem script_works {s : Script} (h : s.leaf.savesArtifacts = true → l.savesArtifacts = true) :
    Works resources l (ScriptStep.steps m s) := by
  rw [ScriptStep.steps, ← List.singleton_append, ScriptStep.saveStep]
  exact .append (.forLeaf .task) (.ite fun hsaves => .asTransfer (.put (.artifacts _ (h hsaves))))

theorem stage_works {d : DeployCf} {prePromote : List Task} {r : Resource}
    (haction : l.action = .deployCf d prePromote) (hr : resources.deploy? d = some r)
    (stage : CloudFoundry.Stage) (params : Settings) :
    Works resources l [CloudFoundry.stageStep l r.name stage params] := by
  rw [CloudFoundry.stageStep]
  exact .forLeaf (.put (.stage stage params d prePromote r haction hr))

/-- The checks of a candidate are scripts, and what they save counts as saved by the deployment. -/
theorem checks_eq_ok (c : Config) (m : Manifest) {d : DeployCf} {prePromote : List Task}
    (haction : l.action = .deployCf d prePromote) (hcheck : ∀ t ∈ prePromote, t.isCheck = true) :
    ∃ scripts, CloudFoundry.checks c m prePromote = .ok scripts
      ∧ ∀ s ∈ scripts, s.leaf.savesArtifacts = true → l.savesArtifacts = true := by
  have hscript : ∀ check ∈ Task.flatten prePromote, ∃ s, Script.ofLeaf? c m check = some s :=
    fun check hl => Script.exists_ofLeaf? c m (Script.isScript_of_isCheck hcheck hl)
  obtain ⟨scripts, hscripts⟩ : ∃ scripts, CloudFoundry.checks c m prePromote = .ok scripts := by
    refine exists_mapM_eq_ok fun check hl => ?_
    obtain ⟨s, hs⟩ := hscript check hl
    exact ⟨s, by rw [hs]⟩
  refine ⟨scripts, hscripts, fun s hs hsaves => ?_⟩
  obtain ⟨check, hl, hs⟩ := exists_of_mem_right (mapM_eq_ok.1 hscripts) hs
  obtain ⟨s', hs'⟩ := hscript check hl
  rw [hs'] at hs
  obtain rfl := Except.ok.inj hs
  rw [(Script.artifacts_ofLeaf? hs').1] at hsaves
  have hany := Task.anySavesArtifacts_iff.2 ⟨check, hl, hsaves⟩
  obtain ⟨attributes, action⟩ := l
  obtain rfl : action = .deployCf d prePromote := haction
  rw [LeafOf.savesArtifacts, Action.savesArtifacts, hany, Bool.or_true]

/-- A deployment to Cloud Foundry works through its stages. -/
theorem deployCf_works {d : DeployCf} {prePromote : List Task} {r : Resource}
    (haction : l.action = .deployCf d prePromote) (hcheck : ∀ t ∈ prePromote, t.isCheck = true)
    (hr : resources.deploy? d = some r) :
    ∃ steps ensure, CloudFoundry.steps c m l d prePromote r.name = .ok (steps, ensure)
      ∧ Works resources l steps ∧ Works resources l ensure.toList := by
  rw [CloudFoundry.steps]
  split
  · exact ⟨_, _, rfl, stage_works haction hr _ _, .nil⟩
  · obtain ⟨scripts, hscripts, hsaves⟩ := checks_eq_ok c m haction hcheck
    rw [hscripts]
    refine ⟨_, _, rfl, .append (.append (stage_works haction hr _ _) ?checks) ?stages,
      stage_works haction hr _ _⟩
    case checks => exact .together (.flatMap fun s hs => script_works (hsaves s hs))
    case stages =>
      rw [← List.singleton_append]
      exact .append (stage_works haction hr _ _) (stage_works haction hr _ _)

theorem update_works (c : Config) (m : Manifest) (u : Update) (h : l.isUpdate = true) :
    Works resources l (updateSteps c m l u) := by
  refine .map_forLeaf (.append ?_ (.ite fun _ => .put (.tag _ h)))
  rw [← List.singleton_append]
  exact .append .task (.put (.version _ h))

/-- What building the job of a leaf would declare is there: its deployment target. -/
def ResourceSet.Serves (s : ResourceSet) (l : Leaf) : Prop :=
  ∀ (d : DeployCf) (prePromote : List Task), l.action = .deployCf d prePromote →
    (s.deploy? d).isSome = true

theorem imageBuild_works (c : Config) (m : Manifest) (p : DockerPush) :
    Works resources l (ImageBuild.steps c m l p) := by
  refine .of_forall fun s hs => ?_
  obtain ⟨t, -, rfl⟩ := List.mem_map.1 hs
  exact .forLeaf .task

theorem body_of_isScript {s : Script} (hscript : l.action.isScript = true)
    (hs : Script.ofLeaf? c m l = some s) :
    body c m resources l = .ok (ScriptStep.steps m s, none, resources) := by
  unfold body
  cases haction : l.action <;> simp_all [Action.isScript]

/-- A leaf that finds what it needs has a job to do, for which nothing is declared. -/
theorem body_eq_ok (c : Config) (hadmits : m.Admits l) (hserves : resources.Serves l) :
    ∃ steps ensure, body c m resources l = .ok (steps, ensure, resources)
      ∧ Works resources l steps ∧ Works resources l ensure.toList := by
  by_cases hscript : l.action.isScript = true
  · obtain ⟨s, hs⟩ := Script.exists_ofLeaf? c m hscript
    exact ⟨_, _, body_of_isScript hscript hs, script_works (Script.artifacts_ofLeaf? hs).1.symm.trans, .nil⟩
  unfold body
  unfold Manifest.Admits at hadmits
  cases haction : l.action with
  | dockerPush p => exact ⟨_, _, rfl, imageBuild_works c m p, .nil⟩
  | deployCf d prePromote =>
      rw [haction] at hadmits
      obtain ⟨r, hr⟩ := Option.isSome_iff_exists.1 (hserves d prePromote haction)
      obtain ⟨steps, ensure, hsteps, hworks⟩ :=
        deployCf_works (c := c) (m := m) haction hadmits hr
      refine ⟨steps, ensure, ?_, hworks⟩
      simp only [ResourceSet.addDeploy_of_deploy? hr, hsteps]
      rfl
  | deployKatee d => exact ⟨_, _, rfl, .forLeaf .task, .nil⟩
  | update u => exact ⟨_, _, rfl, update_works c m u (by rw [LeafOf.isUpdate, haction]), .nil⟩
  | _ => simp [haction, Action.isScript] at hscript

/-! ## Jobs -/

/-- The steps that fetch what the job of a leaf waits for. -/
def fetchSteps (m : Manifest) (resources : ResourceSet) (l : Leaf) (passed : List String) : List Step :=
  let gets := (leafGets m resources l passed).map fun g => Step.get g {}
  ((Step.together? gets).map Step.asTransfer).toList

/-- A plan begins with what is fetched, and goes on with what is restored. -/
theorem initialPlan_eq (c : Config) (m : Manifest) (resources : ResourceSet) (l : Leaf)
    (passed : List String) :
    initialPlan c m resources l passed
      = fetchSteps m resources l passed ++ (if l.readsArtifacts then [restoreStep c m] else []) :=
  rfl

theorem collect_fetchSteps {α : Type} {f : Step → Option α} (hf : Step.Blind f)
    (passed : List String) :
    Step.collect f (fetchSteps m resources l passed)
      = ((leafGets m resources l passed).map fun g => Step.get g {}).filterMap f := by
  have hflat (gets : List Get) :
      Step.collect f (gets.map fun g => Step.get g {}) = (gets.map fun g => Step.get g {}).filterMap f := by
    induction gets with
    | nil => rfl
    | cons g gets ih =>
        rw [List.map_cons, ← List.singleton_append, Step.collect_append, ih, List.filterMap_append]
        rfl
  rw [fetchSteps, ← hflat]
  exact (Step.collect_map_asTransfer hf _).trans (Step.collect_together hf _)

/-- Fetching resources is all that the first steps of a plan do. -/
theorem gets_fetchSteps (passed : List String) :
    Step.collect Step.get? (fetchSteps m resources l passed) = leafGets m resources l passed := by
  rw [collect_fetchSteps Step.blind_get?, List.filterMap_map]
  exact List.filterMap_some

theorem puts_fetchSteps (passed : List String) :
    Step.collect Step.put? (fetchSteps m resources l passed) = [] := by
  rw [collect_fetchSteps Step.blind_put?, List.filterMap_map]
  exact List.filterMap_eq_nil_iff.2 fun _ _ => rfl

theorem tasks_fetchSteps (passed : List String) :
    Step.collect Step.task? (fetchSteps m resources l passed) = [] := by
  rw [collect_fetchSteps Step.blind_task?, List.filterMap_map]
  exact List.filterMap_eq_nil_iff.2 fun _ _ => rfl

theorem restore_works (c : Config) :
    Works resources l (if l.readsArtifacts then [restoreStep c m] else []) :=
  .ite fun _ => .asTransfer .task

/-- The job of a leaf fetches what the leaf waits for and pushes for the reasons of the leaf. -/
structure JobOf (m : Manifest) (resources : ResourceSet) (l : Leaf) (passed : List String) (j : Job) :
    Prop where
  gets : Step.collect Step.get? (j.plan ++ j.hooks) = leafGets m resources l passed
  puts : ∀ q ∈ Step.collect Step.put? (j.plan ++ j.hooks), Pushes resources l q
  hooks : Works resources l j.hooks

/-- A leaf that finds what it needs gets a job, for which nothing is declared. -/
theorem job_eq_ok (c : Config) (hadmits : m.Admits l) (hserves : resources.Serves l) (name : String)
    (passed : List String) :
    ∃ j, job c m resources name l passed = .ok (j, resources) ∧ j.name = name
      ∧ JobOf m resources l passed j := by
  obtain ⟨steps, ensure, hbody, hsteps, hensure⟩ := body_eq_ok c hadmits hserves
  have hjob : job c m resources name l passed = .ok (
      { name
        builds := l.attributes.buildHistory.bind fun n => if n = 0 then none else some n.toNat
        plan := initialPlan c m resources l passed ++ steps
        onSuccess := onSuccess l
        onFailure := onFailure l
        ensure }, resources) := by
    rw [job, hbody]
    rfl
  refine ⟨_, hjob, rfl, ?_⟩
  have hhooks := (onSuccess_works.append onFailure_works).append hensure
  -- behind what is fetched for the leaf there is only work
  have hworks := ((restore_works (m := m) c).append hsteps).append hhooks
  have hsplit : initialPlan c m resources l passed ++ steps
      ++ ((onSuccess l).toList ++ (onFailure l).toList ++ ensure.toList)
        = fetchSteps m resources l passed ++ ((if l.readsArtifacts then [restoreStep c m] else []) ++ steps
          ++ ((onSuccess l).toList ++ (onFailure l).toList ++ ensure.toList)) := by
    rw [initialPlan_eq]
    simp only [List.append_assoc]
  refine ⟨?gets, fun q hq => ?puts, hhooks⟩
  case gets =>
    simp only [Job.hooks]
    rw [hsplit, Step.collect_append, gets_fetchSteps, hworks.gets, List.append_nil]
  case puts =>
    simp only [Job.hooks] at hq
    rw [hsplit, Step.collect_append, puts_fetchSteps, List.nil_append] at hq
    exact hworks.puts q hq

/-- What a job fetches is fetched by its plan. -/
theorem JobOf.planGets {passed : List String} {j : Job} (hj : JobOf m resources l passed j) :
    Step.collect Step.get? j.plan = leafGets m resources l passed := by
  rw [← hj.gets, Step.collect_append, hj.hooks.gets, List.append_nil]

/-! ## All jobs -/

/-- Name of the job of a leaf at a position. -/
def jobName (m : Manifest) (e : TaskPath × Leaf) : String := ((jobIndex m).name? e.1).getD e.2.name

/-- Names of the jobs that have to pass before the job of a leaf at a position. -/
def jobPassed (m : Manifest) (e : TaskPath × Leaf) : List String := (jobIndex m).passed m.tasks e.1

/-- The job that is built for a leaf at a position, with what it refers to. -/
structure Realises (c : Config) (m : Manifest) (resources : ResourceSet) (e : TaskPath × Leaf) (j : Job) :
    Prop where
  built : job c m resources (jobName m e) e.2 (jobPassed m e) = .ok (j, resources)
  name : j.name = jobName m e
  refers : JobOf m resources e.2 (jobPassed m e) j

/-- Leaves that find what they need get one job each, in their order, for which nothing is declared. -/
theorem jobs_eq_ok (c : Config) {es : List (TaskPath × Leaf)} (hadmits : ∀ e ∈ es, m.Admits e.2)
    (hserves : ∀ e ∈ es, resources.Serves e.2) :
    ∃ js, jobs c m resources es = .ok (js, resources)
      ∧ List.Forall₂ (Realises c m resources) es js := by
  induction es with
  | nil => exact ⟨[], rfl, .nil⟩
  | cons e es ih =>
      obtain ⟨j, hj, hname, hrefers⟩ := job_eq_ok c (hadmits e List.mem_cons_self)
        (hserves e List.mem_cons_self) (jobName m e) (jobPassed m e)
      obtain ⟨js, hjs, hall⟩ := ih (fun e he => hadmits e (List.mem_cons_of_mem _ he))
        fun e he => hserves e (List.mem_cons_of_mem _ he)
      refine ⟨j :: js, ?_, .cons ⟨hj, hname, hrefers⟩ hall⟩
      exact bind_eq_ok.2 ⟨_, hj, bind_eq_ok.2 ⟨_, hjs, rfl⟩⟩

/-- A manifest that can be rendered has a pipeline with one job for each leaf, in their order, and with
the declarations of the manifest alone. -/
theorem render_eq_ok (c : Config) (h : m.Renderable) :
    ∃ js, render c m = .ok
        { types := (ResourceSet.ofManifest c m).types
          resources := (ResourceSet.ofManifest c m).resources
          jobs := js }
      ∧ List.Forall₂ (Realises c m (ResourceSet.ofManifest c m)) (Task.leaves m.tasks) js := by
  have hleaf : ∀ e ∈ Task.leaves m.tasks, e.2 ∈ Task.flatten m.tasks :=
    fun e he => List.mem_map_of_mem he
  obtain ⟨js, hjs, hall⟩ := jobs_eq_ok c (fun e he => h.leaves e.2 (hleaf e he))
    fun e he => (ResourceSet.ofManifest_provides (c := c) h).targets e.2 (hleaf e he)
  refine ⟨js, ?_, hall⟩
  rw [render, Task.checkShape_eq_ok.2 h.stages]
  exact bind_eq_ok.2 ⟨_, rfl, bind_eq_ok.2 ⟨_, hjs, rfl⟩⟩

end PipelineCompiler.Concourse

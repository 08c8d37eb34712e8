import PipelineCompiler.Proofs.Concourse.Names
import PipelineCompiler.Proofs.Concourse.Plans
import PipelineCompiler.Proofs.Concourse.References
import PipelineCompiler.Proofs.Lint.Order
import PipelineCompiler.Proofs.Path

/-!
# What containers are given

A container sees the directories that it names as inputs, and these have to come from somewhere: from a
resource that was fetched, or from a container that ran before. `Job.Supplied` says so of every container
of a job. What the beginning of a plan provides (`prepared_initialPlan`) is decided by the leaf, and what
a container asks for by whichever builder made it, so that each kind of work is held against the
beginning in turn.
-/

namespace PipelineCompiler.Concourse

/-! ## Containers that are supplied -/

/-- The steps leave the directory to those after them: it was fetched, or a container shared it. -/
def Provides (steps : List Step) (dir : String) : Prop :=
  (∃ g ∈ Step.collect Step.get? steps, g.resource = dir) ∨ Step.Outputs steps dir

/-- The container finds its inputs, and works inside of a directory of its own. -/
structure Container.Supplied (before : List Step) (k : Container) : Prop where
  inputs : ∀ dir ∈ k.inputs, Provides before dir
  working : ∀ path, k.command.dir = some path → ∃ dir ∈ k.inputs ++ k.outputs, Path.Inside dir path

/-- Every container that the step runs is supplied by the steps before it. Containers that run at the
same time do not supply each other. -/
def Supplies (before : List Step) (s : Step) : Prop :=
  ∀ t ∈ Step.collect Step.task? [s], t.container.Supplied before

/-- Every container of the job is supplied by what stands before it in the plan, and none follows the
plan. -/
structure Job.Supplied (j : Job) : Prop where
  plan : Step.Throughout Supplies j.plan
  hooks : Step.collect Step.task? j.hooks = []

section Supplied

variable {xs ys : List Step} {k : Container} {dir : String}

theorem provides_append : Provides (xs ++ ys) dir ↔ Provides xs dir ∨ Provides ys dir := by
  simp only [Provides, Step.collect_append, List.mem_append, or_and_right, exists_or,
    Step.outputs_append]
  exact or_or_or_comm

theorem Container.Supplied.append (h : k.Supplied xs) (ys : List Step) : k.Supplied (xs ++ ys) :=
  ⟨fun dir hdir => provides_append.2 (.inl (h.inputs dir hdir)), h.working⟩

theorem supplies_forLeaf {before : List Step} {t : TaskStep} (h : t.container.Supplied before)
    (limits : Limits) (l : Leaf) : Supplies before ((Step.task t limits).forLeaf l) := by
  intro u hu
  rw [Step.collect_task?_forLeaf, List.mem_singleton] at hu
  exact hu ▸ h

/-- Steps whose containers all need no more than what stands before the first of them. -/
theorem throughout_supplies (h : ∀ t ∈ Step.collect Step.task? ys, t.container.Supplied xs) :
    Step.Throughout (fun before => Supplies (xs ++ before)) ys := by
  refine Step.throughout_of_forall fun before s hs t ht => ?_
  exact (h t (Step.mem_collect.2 ⟨s, hs, ht⟩)).append before

end Supplied

/-! ## The beginning of a plan -/

/-- What the steps for a leaf find when they start. -/
structure Prepared (m : Manifest) (l : Leaf) (before : List Step) : Prop where
  git : Provides before gitDir
  version : m.isVersioned = true → l.isUpdate = false → Provides before versionName
  restored : l.readsArtifacts = true → Provides before restoredDir

theorem Prepared.append {m : Manifest} {l : Leaf} {before : List Step} (h : Prepared m l before)
    (ys : List Step) : Prepared m l (before ++ ys) :=
  ⟨provides_append.2 (.inl h.git), fun hversioned hordinary =>
    provides_append.2 (.inl (h.version hversioned hordinary)),
    fun hreads => provides_append.2 (.inl (h.restored hreads))⟩

section Beginning

variable {c : Config} {m : Manifest} {l : Leaf} {passed : List String}

/-- What is fetched for a leaf is there. -/
theorem provides_fetchSteps {resources : ResourceSet} {dir : String}
    (h : dir ∈ (leafGets m resources l passed).map Get.resource) :
    Provides (fetchSteps m resources l passed) dir := by
  obtain ⟨g, hg, hresource⟩ := List.mem_map.1 h
  rw [← gets_fetchSteps] at hg
  exact .inl ⟨g, hg, hresource⟩

/-- Every job fetches the repository. -/
theorem provides_git (h : m.Renderable) (l : Leaf) (passed : List String) :
    Provides (fetchSteps m (ResourceSet.ofManifest c m) l passed) gitDir := by
  obtain ⟨g, hg⟩ := h.exists_git
  obtain ⟨i, hi⟩ := List.mem_iff_getElem?.1 hg
  have hfetched : (.git g, i) ∈ fetchedTriggers m l :=
    List.mem_filter.2 ⟨List.mk_mem_zipIdx_iff_getElem?.2 hi, rfl⟩
  refine provides_fetchSteps ?_
  rw [resource_leafGets]
  refine List.mem_append_left _ (List.mem_map.2 ⟨_, hfetched, ?_⟩)
  rw [ResourceSet.trigger?_git c h hi, Option.getD_some]
  rfl

/-- The beginning of a plan leaves what the leaf calls for. -/
theorem prepared_initialPlan (h : m.Renderable) (l : Leaf) (passed : List String) :
    Prepared m l (initialPlan c m (ResourceSet.ofManifest c m) l passed) := by
  rw [initialPlan_eq]
  refine ⟨?git, fun hversioned hordinary => ?version, fun hreads => ?restored⟩
  case git => exact provides_append.2 (.inl (provides_git h l passed))
  case version =>
    refine provides_append.2 (.inl (provides_fetchSteps ?_))
    have hgated : isGated m l = true := by rw [isGated, hordinary, hversioned]; rfl
    rw [resource_leafGets, if_pos hgated]
    exact List.mem_append_right _ (List.mem_singleton.2 rfl)
  case restored =>
    rw [if_pos hreads]
    exact provides_append.2 (.inr (.inr ⟨_, List.mem_singleton.2 rfl, List.mem_singleton.2 rfl⟩))

/-- The container that restores artifacts. -/
theorem exists_restoreTask (c : Config) (m : Manifest) :
    ∃ t, Step.collect Step.task? [restoreStep c m] = [t] ∧ t.container.inputs = [gitDir]
      ∧ t.container.outputs = [restoredDir] ∧ t.container.command.dir = some restoredDir :=
  ⟨_, rfl, rfl, rfl, rfl⟩

/-- Artifacts are restored for the revision that was fetched, into the directory that is shared. -/
theorem initialPlan_supplied (h : m.Renderable) (l : Leaf) (passed : List String) :
    Step.Throughout Supplies (initialPlan c m (ResourceSet.ofManifest c m) l passed) := by
  rw [initialPlan_eq, Step.throughout_append]
  constructor
  · refine Step.throughout_of_forall fun before s hs t ht => ?_
    have htask := Step.mem_collect.2 ⟨s, hs, ht⟩
    rw [tasks_fetchSteps] at htask
    exact absurd htask List.not_mem_nil
  · refine throughout_supplies fun t ht => ?_
    split at ht
    · obtain ⟨t', htask, hinputs, houtputs, hdir⟩ := exists_restoreTask c m
      rw [htask, List.mem_singleton] at ht
      subst ht
      refine ⟨fun dir hmem => ?_, fun path hpath => ?_⟩
      · rw [hinputs, List.mem_singleton] at hmem
        exact hmem ▸ provides_git h l passed
      · rw [hdir, Option.some.injEq] at hpath
        subst hpath
        rw [houtputs]
        exact ⟨restoredDir, by simp, Path.inside_self (by decide)⟩
    · exact absurd ht List.not_mem_nil

end Beginning

/-! ## Work -/

section Work

variable {c : Config} {m : Manifest} {l : Leaf} {before : List Step}

/-- The directory of the manifest lies in the working copy. -/
theorem workingDir_inside (hbase : Path.IsPlain m.basePath.toList) :
    Path.Inside gitDir (workingDir m.basePath) :=
  Path.inside_join (by decide) hbase

/-- A container that is given no more than the leaf was prepared for, and works in the directory of the
manifest. -/
theorem supplied_of_prepared (h : Prepared m l before) (hbase : Path.IsPlain m.basePath.toList)
    {k : Container} (hgit : gitDir ∈ k.inputs)
    (hinputs : ∀ dir ∈ k.inputs, dir = gitDir
      ∨ (dir = versionName ∧ m.isVersioned = true ∧ l.isUpdate = false)
      ∨ (dir = restoredDir ∧ l.readsArtifacts = true))
    (hdir : k.command.dir = some (workingDir m.basePath)) : k.Supplied before := by
  constructor
  · intro dir hmem
    rcases hinputs dir hmem with rfl | ⟨rfl, hversioned, hordinary⟩ | ⟨rfl, hreads⟩
    · exact h.git
    · exact h.version hversioned hordinary
    · exact h.restored hreads
  · intro path hpath
    rw [hdir, Option.some.injEq] at hpath
    subst hpath
    exact ⟨gitDir, List.mem_append_left _ hgit, workingDir_inside hbase⟩

/-- A script is given the version if there is one, and the artifacts if it restores some. -/
theorem script_supplied (h : Prepared m l before) (hbase : Path.IsPlain m.basePath.toList)
    (hordinary : l.isUpdate = false) {s : Script}
    (hreads : s.leaf.readsArtifacts = true → l.readsArtifacts = true) :
    (ScriptStep.container m s).Supplied before := by
  refine supplied_of_prepared h hbase (by simp [ScriptStep.container]) (fun dir hmem => ?_) rfl
  have hmem : dir ∈ [gitDir] ++ (if s.leaf.readsArtifacts then [restoredDir] else [])
      ++ (if m.isVersioned then [versionName] else []) := hmem
  rcases List.mem_append.1 hmem with hmem | hmem
  · rcases List.mem_append.1 hmem with hmem | hmem
    · exact .inl (List.mem_singleton.1 hmem)
    · obtain ⟨hrestores, hmem⟩ := List.mem_ite_nil_right.1 hmem
      exact .inr (.inr ⟨List.mem_singleton.1 hmem, hreads hrestores⟩)
  · obtain ⟨hversioned, hmem⟩ := List.mem_ite_nil_right.1 hmem
    exact .inr (.inl ⟨List.mem_singleton.1 hmem, hversioned, hordinary⟩)

/-- A script that restores artifacts does so for its leaf. -/
theorem script_work_supplied (h : Prepared m l before) (hbase : Path.IsPlain m.basePath.toList)
    {s : Script} (hs : Script.ofLeaf? c m l = some s) :
    ∀ t ∈ Step.collect Step.task? (ScriptStep.steps m s), t.container.Supplied before := by
  have hordinary := Script.isUpdate_of_isScript (Script.isScript_of_ofLeaf? hs)
  have hreads := (Script.artifacts_ofLeaf? hs).2.2
  obtain ⟨script, htask, hcontainer⟩ := exists_scriptTask m s
  intro t ht
  rw [htask, List.mem_singleton] at ht
  rw [ht, hcontainer]
  exact script_supplied h hbase hordinary hreads.symm.trans

/-- A check that restores artifacts makes its deployment restore them. -/
theorem checks_supplied (h : Prepared m l before) (hbase : Path.IsPlain m.basePath.toList)
    {d : DeployCf} {prePromote : List Task} (haction : l.action = .deployCf d prePromote)
    {scripts : List Script}
    (hscripts : List.Forall₂ (fun check s => Script.ofLeaf? c m check = some s)
      (Task.flatten prePromote) scripts) :
    ∀ t ∈ Step.collect Step.task? (scripts.flatMap (ScriptStep.steps m)),
      t.container.Supplied before := by
  have hordinary : l.isUpdate = false := by rw [LeafOf.isUpdate, haction]
  intro t ht
  obtain ⟨step, hstep, ht⟩ := Step.mem_collect.1 ht
  obtain ⟨s, hs, hstep⟩ := List.mem_flatMap.1 hstep
  obtain ⟨check, hcheck, hscript⟩ := exists_of_mem_right hscripts hs
  obtain ⟨script, htask, hcontainer⟩ := exists_scriptTask m s
  have ht := Step.mem_collect.2 ⟨step, hstep, ht⟩
  rw [htask, List.mem_singleton] at ht
  rw [ht, hcontainer]
  refine script_supplied h hbase hordinary fun hreads => ?_
  rw [(Script.artifacts_ofLeaf? hscript).2.2] at hreads
  have hany := Task.anyReadsArtifacts_iff.2 ⟨check, hcheck, hreads⟩
  obtain ⟨attributes, action⟩ := l
  obtain rfl : action = .deployCf d prePromote := haction
  rw [LeafOf.readsArtifacts, Action.readsArtifacts, hany, Bool.or_true, Bool.or_true]

theorem katee_supplied (h : Prepared m l before) (hbase : Path.IsPlain m.basePath.toList)
    (hordinary : l.isUpdate = false) (d : DeployKatee) :
    ∀ t ∈ Step.collect Step.task? [kateeStep c m l d], t.container.Supplied before := by
  intro t ht
  rw [kateeStep, Step.collect_task?_forLeaf, List.mem_singleton] at ht
  subst ht
  refine supplied_of_prepared h hbase (by simp) (fun dir hmem => ?_) rfl
  rcases List.mem_append.1 hmem with hmem | hmem
  · exact .inl (List.mem_singleton.1 hmem)
  · obtain ⟨hversioned, hmem⟩ := List.mem_ite_nil_right.1 hmem
    exact .inr (.inl ⟨List.mem_singleton.1 hmem, hversioned, hordinary⟩)

theorem update_supplied (h : Prepared m l before) (hbase : Path.IsPlain m.basePath.toList) (u : Update) :
    ∀ t ∈ Step.collect Step.task? (updateSteps c m l u), t.container.Supplied before := by
  obtain ⟨update, htask, hinputs, -, hdir⟩ := exists_updateTask c m l u
  intro t ht
  rw [htask, List.mem_singleton] at ht
  subst ht
  refine supplied_of_prepared h hbase ?_ (fun dir hmem => .inl ?_) hdir
  · rw [hinputs]
    exact List.mem_singleton.2 rfl
  · rw [hinputs] at hmem
    exact List.mem_singleton.1 hmem

end Work

/-! ## Image builds -/

section ImageBuild

variable {c : Config} {m : Manifest} {l : Leaf} {before : List Step}

/-- The step that runs a container shares the directories of that container. -/
theorem provides_forLeaf {t : TaskStep} {dir : String} (h : dir ∈ t.container.outputs)
    (limits : Limits) (l : Leaf) : Provides [(Step.task t limits).forLeaf l] dir :=
  .inr ⟨t, by rw [Step.collect_task?_forLeaf]; exact List.mem_singleton.2 rfl, h⟩

/-- A container that works in the root is supplied if its inputs are there. -/
theorem supplied_of_inputs {k : Container} (hdir : k.command.dir = none)
    (hinputs : ∀ dir ∈ k.inputs, Provides before dir) : k.Supplied before := by
  refine ⟨hinputs, fun path hpath => ?_⟩
  rw [hdir] at hpath
  exact absurd hpath nofun

/-- The directory that is built lies in the working copy, or where artifacts were copied to it. -/
theorem rootDir_inside (hbase : Path.IsPlain m.basePath.toList) (a : Attributes) :
    Path.Inside (if a.restoreArtifacts then buildDir else gitDir) (ImageBuild.rootDir m.basePath a) := by
  refine Path.inside_join ?_ hbase
  split
  · decide
  · decide

/-- Where both were copied, the copy is supplied by what was fetched and restored. -/
theorem copy_supplied (h : Prepared m l before) (hreads : l.readsArtifacts = true) :
    ImageBuild.copyStep.container.Supplied before := by
  refine supplied_of_inputs rfl fun dir hmem => ?_
  have hmem : dir ∈ [gitDir, restoredDir] := hmem
  rcases List.mem_cons.1 hmem with rfl | hmem
  · exact h.git
  · rw [List.mem_singleton.1 hmem]
    exact h.restored hreads

theorem tags_supplied (h : Prepared m l before) (hordinary : l.isUpdate = false) :
    (ImageBuild.tagsStep m.isVersioned).container.Supplied before := by
  refine supplied_of_inputs rfl fun dir hmem => ?_
  rcases List.mem_append.1 hmem with hmem | hmem
  · exact List.mem_singleton.1 hmem ▸ h.git
  · obtain ⟨hversioned, hmem⟩ := List.mem_ite_nil_right.1 hmem
    exact List.mem_singleton.1 hmem ▸ h.version hversioned hordinary

/-- Once the tags are written, the image is built, scanned and published. -/
theorem build_supplied (h : Prepared m l before) (hbase : Path.IsPlain m.basePath.toList)
    (htags : Provides before tagsDir)
    (hcopied : l.attributes.restoreArtifacts = true → Provides before buildDir) (p : DockerPush)
    {t : TaskStep}
    (ht : t ∈ [ImageBuild.buildStep c p l.attributes.vars (ImageBuild.rootDir m.basePath l.attributes)
        l.attributes.restoreArtifacts,
      ImageBuild.scanStep c p m.basePath (ImageBuild.rootDir m.basePath l.attributes)
        l.attributes.restoreArtifacts,
      ImageBuild.publishStep c p l.attributes.vars
        (ImageBuild.rootDir m.basePath l.attributes)]) : t.container.Supplied before := by
  have hbuildDir {dir : String}
      (hmem : dir ∈ if l.attributes.restoreArtifacts then [buildDir] else []) : Provides before dir := by
    obtain ⟨hrestores, hmem⟩ := List.mem_ite_nil_right.1 hmem
    exact List.mem_singleton.1 hmem ▸ hcopied hrestores
  have htagged {dir : String} (hmem : dir ∈ [gitDir, tagsDir]) : Provides before dir := by
    rcases List.mem_cons.1 hmem with rfl | hmem
    · exact h.git
    · exact List.mem_singleton.1 hmem ▸ htags
  rcases List.mem_cons.1 ht with rfl | ht
  · refine supplied_of_inputs rfl fun dir hmem => ?_
    exact (List.mem_append.1 hmem).elim htagged hbuildDir
  rcases List.mem_cons.1 ht with rfl | ht
  · refine ⟨fun dir hmem => ?_, fun path hpath => ?_⟩
    · rcases List.mem_append.1 hmem with hmem | hmem
      · exact List.mem_singleton.1 hmem ▸ h.git
      · exact hbuildDir hmem
    · obtain rfl : ImageBuild.rootDir m.basePath l.attributes = path := Option.some.inj hpath
      refine ⟨_, ?_, rootDir_inside hbase l.attributes⟩
      -- the directory is among the inputs in either case
      cases l.attributes.restoreArtifacts <;> simp [ImageBuild.scanStep]
  · obtain rfl := List.mem_singleton.1 ht
    exact supplied_of_inputs rfl fun dir hmem => htagged hmem

/-- An image is built from the working copy or, if artifacts were restored, from a directory that both
were copied to ahead of everything else. The list of tags is written before it is read. -/
theorem imageBuild_supplied (h : Prepared m l before) (hbase : Path.IsPlain m.basePath.toList)
    {p : DockerPush} (haction : l.action = .dockerPush p) :
    Step.Throughout (fun steps => Supplies (before ++ steps)) (ImageBuild.steps c m l p) := by
  have hordinary : l.isUpdate = false := by rw [LeafOf.isUpdate, haction]
  have hreads : l.readsArtifacts = l.attributes.restoreArtifacts := by
    obtain ⟨attributes, action⟩ := l
    obtain rfl : action = .dockerPush p := haction
    rw [LeafOf.readsArtifacts, Action.readsArtifacts, Bool.or_false]
  rw [ImageBuild.steps]
  simp only [hreads]
  rw [List.map_append, List.map_cons, Step.throughout_append, Step.throughout_cons]
  set copy := List.map (fun t => (Step.task t {}).forLeaf l)
    (if l.attributes.restoreArtifacts then [ImageBuild.copyStep] else []) with hcopy
  refine ⟨?copy, ?tags, ?build⟩
  case copy =>
    split at hcopy
    · next hrestores =>
        have hsupplied := copy_supplied h (hreads.trans hrestores)
        rw [hcopy]
        exact Step.throughout_singleton.2 (supplies_forLeaf (hsupplied.append []) {} l)
    · rw [hcopy]
      exact Step.throughout_nil
  case tags =>
    have hsupplied := tags_supplied (h.append copy) hordinary
    rw [List.append_nil]
    exact supplies_forLeaf hsupplied {} l
  case build =>
    set tags := (Step.task (ImageBuild.tagsStep m.isVersioned) {}).forLeaf l with htags
    have hcopied : l.attributes.restoreArtifacts = true →
        Provides (before ++ copy ++ [tags]) buildDir := by
      intro hrestores
      rw [if_pos hrestores] at hcopy
      rw [hcopy]
      refine provides_append.2 (.inl (provides_append.2 (.inr ?_)))
      exact provides_forLeaf (List.mem_singleton.2 rfl) {} l
    have htagged : Provides (before ++ copy ++ [tags]) tagsDir :=
      provides_append.2 (.inr (provides_forLeaf (List.mem_singleton.2 rfl) {} l))
    refine Step.throughout_of_forall fun steps s hs => ?_
    obtain ⟨t, ht, rfl⟩ := List.mem_map.1 hs
    have hsupplied := build_supplied (c := c) ((h.append copy).append [tags]) hbase htagged hcopied p ht
    have hassoc : before ++ (copy ++ tags :: steps) = before ++ copy ++ [tags] ++ steps := by simp
    rw [hassoc]
    exact supplies_forLeaf (hsupplied.append steps) {} l

end ImageBuild

/-! ## Jobs -/

section Jobs

variable {c : Config} {m : Manifest} {resources : ResourceSet} {l : Leaf}

/-- Whatever a leaf is for, its containers are supplied if its job began as it should. -/
theorem work_supplied {before steps : List Step} {ensure : Option Step} (h : Prepared m l before)
    (hbase : Path.IsPlain m.basePath.toList) (hwork : Work c m resources l steps ensure) :
    Step.Throughout (fun after => Supplies (before ++ after)) steps := by
  cases hwork with
  | script s hs => exact throughout_supplies (script_work_supplied h hbase hs)
  | imageBuild p haction => exact imageBuild_supplied h hbase haction
  | rolling d prePromote r haction hr hrolling => exact throughout_supplies nofun
  | stages d prePromote r scripts haction hr hrolling hscripts =>
      refine throughout_supplies ?_
      rw [tasks_stageSteps]
      exact checks_supplied h hbase haction hscripts
  | katee d haction =>
      have hordinary : l.isUpdate = false := by rw [LeafOf.isUpdate, haction]
      exact throughout_supplies (katee_supplied h hbase hordinary d)
  | update u haction => exact throughout_supplies (update_supplied h hbase u)

/-- Steps that follow a plan push, at the same time, under the limits of a transfer. -/
theorem collect_task?_hook {steps : List Step} (h : ∀ s ∈ steps, ∃ q limits, s = .put q limits) :
    Step.collect Step.task? ((Step.together? steps).map Step.asTransfer).toList = [] := by
  rw [Step.collect_map_asTransfer Step.blind_task?, Step.collect_together Step.blind_task?]
  exact Step.collect_task?_of_puts h

theorem messageStep_puts {channels : List String} {text status : String} :
    ∀ s ∈ channels.map (messageStep text status), ∃ q limits, s = .put q limits := by
  intro s hs
  obtain ⟨channel, -, rfl⟩ := List.mem_map.1 hs
  exact ⟨_, _, rfl⟩

theorem onSuccess_tasks (l : Leaf) : Step.collect Step.task? (onSuccess l).toList = [] := by
  rw [onSuccess]
  cases l.attributes.notifications with
  | none => rfl
  | some n => exact collect_task?_hook messageStep_puts

theorem onFailure_tasks (l : Leaf) : Step.collect Step.task? (onFailure l).toList = [] := by
  rw [onFailure]
  refine collect_task?_hook fun s hs => ?_
  rcases List.mem_append.1 hs with hs | hs
  · obtain ⟨-, hs⟩ := List.mem_ite_nil_right.1 hs
    exact ⟨_, _, List.mem_singleton.1 hs⟩
  · cases hn : l.attributes.notifications with
    | none => simp [hn] at hs
    | some n =>
        rw [hn] at hs
        exact messageStep_puts s hs

theorem ensure_tasks {steps : List Step} {ensure : Option Step}
    (hwork : Work c m resources l steps ensure) : Step.collect Step.task? ensure.toList = [] := by
  cases hwork <;> rfl

/-- Nothing that follows a plan runs a container. -/
theorem Consists.tasks_hooks {passed : List String} {j : Job} {steps : List Step}
    (h : Consists c m resources l passed j steps) : Step.collect Step.task? j.hooks = [] := by
  rw [Job.hooks, Step.collect_append, Step.collect_append, h.onSuccess, h.onFailure, onSuccess_tasks,
    onFailure_tasks, ensure_tasks h.work]
  rfl

/-- Every container of a job is supplied. -/
theorem supplied_of_realises (h : m.Renderable) (hbase : Path.IsPlain m.basePath.toList)
    {e : TaskPath × Leaf} {j : Job} (he : e ∈ Task.leaves m.tasks)
    (hj : Realises c m (ResourceSet.ofManifest c m) e j) : j.Supplied := by
  obtain ⟨steps, hconsists⟩ := consists_of_renderable h he hj
  constructor
  · rw [hconsists.plan, Step.throughout_append]
    exact ⟨initialPlan_supplied h e.2 _,
      work_supplied (prepared_initialPlan h e.2 _) hbase hconsists.work⟩
  · exact hconsists.tasks_hooks

end Jobs

/-! ## The pipeline of an accepted manifest -/

/-- In the pipeline of a manifest without lint errors, its defaults filled in, every container of every
job finds its inputs and works inside of a directory of its own, if the path of the manifest in its
repository makes no detours. -/
theorem supplied_of_accepted (c : Config) (s : Surroundings) (m : Manifest)
    (h : Lint.hasErrors (Lint.run c s m) = false) (hbase : Path.IsPlain m.basePath.toList) :
    ∃ p, render c m.withDefaults = .ok p ∧ ∀ j ∈ p.jobs, j.Supplied := by
  have hrenderable := (Lint.renderable_of_accepted h).withDefaults
  have hbase' : m.withDefaults.basePath = m.basePath := by
    rw [Manifest.withDefaults_eq]
    rfl
  obtain ⟨js, hrender, hjobs⟩ := render_eq_ok c hrenderable
  refine ⟨_, hrender, fun j hj => ?_⟩
  obtain ⟨e, he, hrealises⟩ := exists_of_mem_right hjobs hj
  exact supplied_of_realises hrenderable (hbase' ▸ hbase) he hrealises

/-- A manifest below the root of its repository whose jobs restore artifacts in all the ways there are:
for a script, to build an image, and to check a candidate. -/
def restoringManifest : Manifest where
  team := "acme"
  pipeline := "app"
  featureToggles := [updatePipelineToggle]
  triggers :=
    [.git { uri := "git@github.com:acme/app", privateKey := "((deploy.key))", basePath := "apps/web" }]
  tasks :=
    [.leaf (Lint.savingScript "build"),
      .parallel
        [.leaf (Lint.restoringScript "test"),
          .leaf
            { attributes := { name := "image", restoreArtifacts := true }
              action := .dockerPush { image := "acme/app" } }],
      .leaf
        { attributes := { name := "deploy" }
          action := .deployCf { api := "api", org := "acme", space := "live" }
            [.leaf (Lint.restoringScript "smoke")] }]

theorem restoringManifest_supplied :
    Lint.hasErrors (Lint.run {} Lint.sampleSurroundings restoringManifest) = false
      ∧ Path.IsPlain restoringManifest.basePath.toList
      ∧ ∃ p, render {} restoringManifest.withDefaults = .ok p ∧ ∀ j ∈ p.jobs, j.Supplied := by
  have haccepted : Lint.hasErrors (Lint.run {} Lint.sampleSurroundings restoringManifest) = false := by
    decide +kernel
  have hbase : Path.IsPlain restoringManifest.basePath.toList := by decide
  exact ⟨haccepted, hbase, supplied_of_accepted {} _ _ haccepted hbase⟩

end PipelineCompiler.Concourse

import PipelineCompiler.Proofs.Concourse.Names
import PipelineCompiler.Proofs.Concourse.Plans
import PipelineCompiler.Proofs.Lint.Order

/-!
# What is uploaded

An upload pushes a folder to the store of artifacts, and a container has to have shared that folder
before. For scripts this is so: the container shares what its leaf saves, and the upload follows it.

Two builders do without. The checks of a candidate are put together to run at the same time, and their
uploads with them, so that an upload does not wait for its check. And what a leaf saves on failure is
uploaded after every job, whether a container of it shares such a folder or not. `fillsUploads` says for
which leaves the job is not affected, and `filled_iff_of_realises` that it is so for no others.
-/

namespace PipelineCompiler.Concourse

/-! ## Filled uploads -/

/-- The folder that a push uploads. -/
def Put.folder? (q : Put) : Option String := (named? q.params "folder").bind Setting.text?

/-- The push is one to the stores of artifacts. -/
def Put.IsUpload (q : Put) : Prop := q.resource = savedName ∨ q.resource = savedOnFailureName

/-- What the push uploads was shared by a container of the steps before it. -/
def Put.Filled (before : List Step) (q : Put) : Prop :=
  q.IsUpload → ∃ folder, q.folder? = some folder ∧ Step.Outputs before folder

/-- Whatever the step uploads was shared before. Containers that run at the same time come too late. -/
def Fills (before : List Step) (s : Step) : Prop := ∀ q ∈ Step.collect Step.put? [s], q.Filled before

/-- The uploads in the plan find their folders, and so do those that follow the plan when it fails. -/
structure Job.Filled (j : Job) : Prop where
  plan : Step.Throughout Fills j.plan
  onFailure : ∀ s, j.onFailure = some s → Fills j.plan s

/-- The job of the leaf shares every folder that it uploads. A deployment does if its checks save nothing,
as far as success goes, and leave something to save on failure if anything is to be saved then. Other
leaves that do not run as scripts share nothing to be saved. -/
def fillsUploads (l : Leaf) : Bool :=
  match l.action with
  | .deployCf _ prePromote =>
    !Task.anySavesArtifacts prePromote
      && (!l.savesArtifactsOnFailure || Task.anySavesArtifactsOnFailure prePromote)
  | .dockerPush _ | .deployKatee _ | .update _ => !l.savesArtifactsOnFailure
  | .run _ | .dockerCompose _ | .consumerTest _ | .deployMlZip _ | .deployMlModules _ => true

section Filled

variable {before steps : List Step} {q : Put}

theorem filled_of_not_upload (h : ¬ q.IsUpload) : q.Filled before := fun hupload => absurd hupload h

/-- An upload finds its folder if that was shared. -/
theorem filled_iff_outputs {folder : String} (hupload : q.IsUpload) (hfolder : q.folder? = some folder) :
    q.Filled before ↔ Step.Outputs before folder := by
  constructor
  · intro h
    obtain ⟨folder', hfolder', houtputs⟩ := h hupload
    obtain rfl : folder = folder' := Option.some.inj (hfolder.symm.trans hfolder')
    exact houtputs
  · exact fun houtputs _ => ⟨folder, hfolder, houtputs⟩

/-- Steps without uploads. -/
theorem throughout_fills (h : ∀ q ∈ Step.collect Step.put? steps, ¬ q.IsUpload)
    (f : List Step → List Step) : Step.Throughout (fun after => Fills (f after)) steps := by
  refine Step.throughout_of_forall fun after s hs q hq => filled_of_not_upload ?_
  exact h q (Step.mem_collect.2 ⟨s, hs, hq⟩)

/-- A step that there may be fills what it pushes. -/
theorem fills_toList {s : Option Step} :
    (∀ t, s = some t → Fills before t) ↔ ∀ q ∈ Step.collect Step.put? s.toList, q.Filled before := by
  cases s with
  | none => exact ⟨fun _ q hq => absurd hq List.not_mem_nil, fun _ t ht => absurd ht nofun⟩
  | some s =>
      constructor
      · exact fun h => h s rfl
      · rintro h t ⟨⟩
        exact h

/-- Steps that run at the same time fill their uploads if what stands before all of them does. -/
theorem throughout_together :
    Step.Throughout (fun after => Fills (before ++ after)) (Step.together? steps).toList
      ↔ ∀ q ∈ Step.collect Step.put? steps, q.Filled before := by
  rw [← Step.collect_together Step.blind_put?, ← fills_toList]
  cases Step.together? steps with
  | none => exact ⟨fun _ t ht => absurd ht nofun, fun _ => Step.throughout_nil⟩
  | some s =>
      rw [Option.toList_some, Step.throughout_singleton, List.append_nil]
      simp

end Filled

/-! ## Pushes that upload -/

section Puts

variable {c : Config} {m : Manifest} {l : Leaf}

/-- The upload of what a script saved. -/
theorem exists_savePut :
    ∃ q, Step.collect Step.put? [ScriptStep.saveStep] = [q] ∧ q.IsUpload ∧ q.folder? = some savedDir :=
  ⟨_, rfl, .inl rfl, rfl⟩

/-- The upload of what was saved on failure. -/
theorem exists_saveOnFailurePut :
    ∃ q, Step.collect Step.put? [saveOnFailureStep] = [q] ∧ q.IsUpload
      ∧ q.folder? = some savedOnFailureDir :=
  ⟨_, rfl, .inr rfl, rfl⟩

/-- A push to a resource of another name is no upload. -/
theorem not_upload_of_resource {q : Put} {name : String} (hq : q.resource = name)
    (h : name ∉ [savedName, savedOnFailureName]) : ¬ q.IsUpload := by
  rw [Put.IsUpload, hq]
  simpa using h

theorem not_upload_message {q : Put} {channels : List String} {text status : String}
    (hq : q ∈ Step.collect Step.put? (channels.map (messageStep text status))) : ¬ q.IsUpload := by
  obtain ⟨s, hs, hq⟩ := Step.mem_collect.1 hq
  obtain ⟨channel, -, rfl⟩ := List.mem_map.1 hs
  have hslack : q.resource = slackName := by
    obtain rfl := List.mem_singleton.1 hq
    rfl
  exact not_upload_of_resource hslack (by decide)

/-- A stage of a deployment pushes to its target. -/
theorem resource_stagePut {r : Resource} {stage : CloudFoundry.Stage} {params : Settings} {q : Put}
    (hq : q ∈ Step.collect Step.put? [CloudFoundry.stageStep l r.name stage params]) :
    q.resource = r.name := by
  rw [CloudFoundry.stageStep, Step.forLeaf, Step.within, Step.collect_withLimits Step.blind_put?] at hq
  obtain rfl := List.mem_singleton.1 hq
  rfl

/-- The target of a deployment is not named like a store. -/
theorem not_upload_stage {d : DeployCf} {r : Resource} {stage : CloudFoundry.Stage} {params : Settings}
    (hr : (ResourceSet.ofManifest c m).deploy? d = some r) {q : Put}
    (hq : q ∈ Step.collect Step.put? [CloudFoundry.stageStep l r.name stage params]) :
    ¬ q.IsUpload := by
  refine not_upload_of_resource (resource_stagePut hq) fun hmem => ?_
  have hhead := ResourceSet.head?_of_deploy? hr
  have hother : ∀ name ∈ [savedName, savedOnFailureName], name.toList.head? ≠ some 'c' := by decide
  exact hother r.name hmem hhead

theorem not_upload_update {u : Update} {q : Put}
    (hq : q ∈ Step.collect Step.put? (updateSteps c m l u)) : ¬ q.IsUpload := by
  have hresource := List.mem_map_of_mem (f := Put.resource) hq
  rw [puts_updateSteps] at hresource
  rcases List.mem_cons.1 hresource with hversion | htag
  · exact not_upload_of_resource hversion (by decide)
  · obtain ⟨-, htag⟩ := List.mem_ite_nil_right.1 htag
    exact not_upload_of_resource (List.mem_singleton.1 htag) (by decide)

/-- A script uploads once if its leaf saves artifacts, and else not at all. -/
theorem puts_script (m : Manifest) (s : Script) :
    Step.collect Step.put? (ScriptStep.steps m s)
      = if s.leaf.savesArtifacts then Step.collect Step.put? [ScriptStep.saveStep] else [] := by
  rw [ScriptStep.steps, ← List.singleton_append, Step.collect_append]
  split
  · rfl
  · rfl

end Puts

/-! ## Folders that are shared -/

section Shared

variable {c : Config} {m : Manifest} {resources : ResourceSet} {l : Leaf} {dir : String}

/-- The beginning of a plan shares restored artifacts only. -/
theorem outputs_initialPlan {passed : List String}
    (h : Step.Outputs (initialPlan c m resources l passed) dir) : dir = restoredDir := by
  rw [initialPlan_eq, Step.outputs_append] at h
  rcases h with ⟨t, ht, -⟩ | ⟨t, ht, hdir⟩
  · rw [tasks_fetchSteps] at ht
    exact absurd ht List.not_mem_nil
  · split at ht
    · obtain rfl := List.mem_singleton.1 ht
      exact List.mem_singleton.1 hdir
    · exact absurd ht List.not_mem_nil

/-- A script shares the folders for what it saves. -/
theorem outputs_script (m : Manifest) (s : Script) :
    Step.Outputs (ScriptStep.steps m s) dir
      ↔ (s.leaf.savesArtifacts = true ∧ dir = savedDir)
        ∨ (s.leaf.savesArtifactsOnFailure = true ∧ dir = savedOnFailureDir) := by
  obtain ⟨script, htask, hcontainer⟩ := exists_scriptTask m s
  rw [Step.Outputs, htask]
  simp only [List.mem_singleton, exists_eq_left, hcontainer, ScriptStep.container, List.mem_append]
  cases s.leaf.savesArtifacts <;> cases s.leaf.savesArtifactsOnFailure <;> simp

/-- Building an image shares directories of its own. -/
theorem outputs_imageBuild {p : DockerPush} (h : Step.Outputs (ImageBuild.steps c m l p) dir) :
    dir = buildDir ∨ dir = tagsDir := by
  obtain ⟨t, ht, hdir⟩ := h
  obtain ⟨step, hstep, ht⟩ := Step.mem_collect.1 ht
  obtain ⟨u, hu, rfl⟩ := List.mem_map.1 hstep
  rw [Step.collect_task?_forLeaf, List.mem_singleton] at ht
  subst ht
  rcases List.mem_append.1 hu with hu | hu
  · obtain ⟨-, hu⟩ := List.mem_ite_nil_right.1 hu
    obtain rfl := List.mem_singleton.1 hu
    exact .inl (List.mem_singleton.1 hdir)
  · rcases List.mem_cons.1 hu with rfl | hu
    · exact .inr (List.mem_singleton.1 hdir)
    · simp only [List.mem_cons, List.not_mem_nil, or_false] at hu
      rcases hu with rfl | rfl | rfl <;> exact absurd hdir List.not_mem_nil

theorem not_outputs_katee {d : DeployKatee} : ¬ Step.Outputs [kateeStep c m l d] dir := by
  rintro ⟨t, ht, hdir⟩
  rw [kateeStep, Step.collect_task?_forLeaf, List.mem_singleton] at ht
  subst ht
  exact absurd hdir List.not_mem_nil

theorem not_outputs_update {u : Update} : ¬ Step.Outputs (updateSteps c m l u) dir := by
  obtain ⟨update, htask, -, houtputs, -⟩ := exists_updateTask c m l u
  rintro ⟨t, ht, hdir⟩
  rw [htask, List.mem_singleton] at ht
  rw [ht, houtputs] at hdir
  exact absurd hdir List.not_mem_nil

end Shared

/-! ## Uploads that follow a failure -/

section OnFailure

variable {l : Leaf} {before : List Step}

/-- What follows a failure pushes what the leaf saves then, and messages. -/
theorem puts_onFailure (l : Leaf) {q : Put} (hq : q ∈ Step.collect Step.put? (onFailure l).toList) :
    (l.savesArtifactsOnFailure = true ∧ q ∈ Step.collect Step.put? [saveOnFailureStep])
      ∨ ¬ q.IsUpload := by
  rw [onFailure, Step.collect_map_asTransfer Step.blind_put?, Step.collect_together Step.blind_put?,
    Step.collect_append] at hq
  rcases List.mem_append.1 hq with hq | hq
  · split at hq
    · next hsaves => exact .inl ⟨hsaves, hq⟩
    · exact absurd hq List.not_mem_nil
  · refine .inr ?_
    cases hn : l.attributes.notifications with
    | none => simp [hn, Step.collect, Step.allOf] at hq
    | some n =>
        rw [hn] at hq
        exact not_upload_message hq

/-- What the leaf saves on failure is pushed then. -/
theorem mem_puts_onFailure (hsaves : l.savesArtifactsOnFailure = true) {q : Put}
    (hq : q ∈ Step.collect Step.put? [saveOnFailureStep]) :
    q ∈ Step.collect Step.put? (onFailure l).toList := by
  rw [onFailure, Step.collect_map_asTransfer Step.blind_put?, Step.collect_together Step.blind_put?,
    Step.collect_append, if_pos hsaves]
  exact List.mem_append_left _ hq

/-- What is uploaded after a failure is what the leaf saves then. -/
theorem onFailure_fills :
    (∀ s, onFailure l = some s → Fills before s)
      ↔ (l.savesArtifactsOnFailure = true → Step.Outputs before savedOnFailureDir) := by
  obtain ⟨save, hsave, hupload, hfolder⟩ := exists_saveOnFailurePut
  rw [fills_toList]
  constructor
  · intro h hsaves
    have hmem : save ∈ Step.collect Step.put? (onFailure l).toList :=
      mem_puts_onFailure hsaves (by rw [hsave, List.mem_singleton])
    exact (filled_iff_outputs hupload hfolder).1 (h save hmem)
  · intro h q hq
    rcases puts_onFailure l hq with ⟨hsaves, hq⟩ | hother
    · rw [hsave, List.mem_singleton] at hq
      exact hq ▸ (filled_iff_outputs hupload hfolder).2 (h hsaves)
    · exact filled_of_not_upload hother

end OnFailure

/-! ## Jobs -/

section Jobs

variable {c : Config} {m : Manifest} {resources : ResourceSet} {l : Leaf} {steps : List Step}

/-- Nothing is pushed at the beginning of a plan. -/
theorem puts_initialPlan (c : Config) (m : Manifest) (resources : ResourceSet) (l : Leaf)
    (passed : List String) : Step.collect Step.put? (initialPlan c m resources l passed) = [] := by
  rw [initialPlan_eq, Step.collect_append, puts_fetchSteps, List.nil_append]
  split
  · rfl
  · rfl

theorem initialPlan_fills (c : Config) (m : Manifest) (resources : ResourceSet) (l : Leaf)
    (passed : List String) : Step.Throughout Fills (initialPlan c m resources l passed) := by
  refine throughout_fills (fun q hq => ?_) id
  rw [puts_initialPlan] at hq
  exact absurd hq List.not_mem_nil

/-- Behind the beginning of the plan, the uploads of a job are those of its work and the one after a
failure. -/
theorem filled_iff {passed : List String} {j : Job} (h : Consists c m resources l passed j steps) :
    j.Filled ↔ Step.Throughout (fun after => Fills (initialPlan c m resources l passed ++ after)) steps
      ∧ (l.savesArtifactsOnFailure = true → Step.Outputs steps savedOnFailureDir) := by
  have hplan : Step.Throughout Fills j.plan
      ↔ Step.Throughout (fun after => Fills (initialPlan c m resources l passed ++ after)) steps := by
    rw [h.plan, Step.throughout_append]
    exact and_iff_right (initialPlan_fills c m resources l passed)
  have houtputs : Step.Outputs j.plan savedOnFailureDir ↔ Step.Outputs steps savedOnFailureDir := by
    rw [h.plan, Step.outputs_append]
    refine or_iff_right fun hinitial => ?_
    exact absurd (outputs_initialPlan hinitial) (by decide)
  have hhook : (∀ s, j.onFailure = some s → Fills j.plan s)
      ↔ (l.savesArtifactsOnFailure = true → Step.Outputs steps savedOnFailureDir) := by
    rw [h.onFailure, onFailure_fills, houtputs]
  rw [← hplan, ← hhook]
  exact ⟨fun hfilled => ⟨hfilled.plan, hfilled.onFailure⟩, fun ⟨hplan, hhook⟩ => ⟨hplan, hhook⟩⟩

/-- Work without uploads that shares no folder for a failure is filled if nothing is saved then. -/
theorem filled_iff_of_no_upload {passed : List String} {j : Job}
    (h : Consists c m resources l passed j steps)
    (hputs : ∀ q ∈ Step.collect Step.put? steps, ¬ q.IsUpload)
    (houtputs : ¬ Step.Outputs steps savedOnFailureDir) :
    j.Filled ↔ l.savesArtifactsOnFailure = false := by
  rw [filled_iff h, and_iff_right (throughout_fills hputs _), ← Bool.not_eq_true]
  exact ⟨fun hfilled hsaves => houtputs (hfilled hsaves), fun hnot hsaves => absurd hsaves hnot⟩

/-- A script shares what it saves ahead of the upload. -/
theorem script_fills (m : Manifest) (s : Script) (before : List Step) :
    Step.Throughout (fun after => Fills (before ++ after)) (ScriptStep.steps m s) := by
  rw [ScriptStep.steps, Step.throughout_cons]
  refine ⟨fun q hq => absurd hq List.not_mem_nil, ?_⟩
  split
  · next hsaves =>
      obtain ⟨save, hsave, hupload, hfolder⟩ := exists_savePut
      refine Step.throughout_singleton.2 fun q hq => ?_
      rw [hsave, List.mem_singleton] at hq
      rw [hq, filled_iff_outputs hupload hfolder]
      refine Step.outputs_append.2 (.inr ⟨_, List.mem_singleton.2 rfl, ?_⟩)
      simp [ScriptStep.container, hsaves]
  · exact Step.throughout_nil

/-- A script shares what it saves, and what its leaf saves on failure. -/
theorem script_filled {passed : List String} {j : Job} {s : Script}
    (h : Consists c m resources l passed j (ScriptStep.steps m s))
    (hs : Script.ofLeaf? c m l = some s) : j.Filled := by
  obtain ⟨-, honFailure, -⟩ := Script.artifacts_ofLeaf? hs
  refine (filled_iff h).2 ⟨script_fills m s _, fun hsaves => ?_⟩
  exact (outputs_script m s).2 (.inr ⟨honFailure.trans hsaves, rfl⟩)

end Jobs

/-! ## Checks of a candidate -/

section Checks

variable {c : Config} {m : Manifest} {prePromote : List Task} {scripts : List Script}
  (hscripts : List.Forall₂ (fun check s => Script.ofLeaf? c m check = some s)
    (Task.flatten prePromote) scripts)
include hscripts

/-- Checks fill their uploads, from what stands before all of them, just if they upload nothing. -/
theorem checks_fill_iff {before : List Step} (hbefore : ¬ Step.Outputs before savedDir) :
    (∀ q ∈ Step.collect Step.put? (scripts.flatMap (ScriptStep.steps m)), q.Filled before)
      ↔ Task.anySavesArtifacts prePromote = false := by
  obtain ⟨save, hsave, hupload, hfolder⟩ := exists_savePut
  have hany : Task.anySavesArtifacts prePromote = true ↔ ∃ s ∈ scripts, s.leaf.savesArtifacts = true := by
    rw [Task.anySavesArtifacts_iff]
    refine exists_mem_congr hscripts fun check s hs => ?_
    rw [(Script.artifacts_ofLeaf? hs).1]
  rw [← Bool.not_eq_true, hany]
  constructor
  · rintro h ⟨s, hs, hsaves⟩
    have hmem : save ∈ Step.collect Step.put? (scripts.flatMap (ScriptStep.steps m)) := by
      have hput : save ∈ Step.collect Step.put? (ScriptStep.steps m s) := by
        rw [puts_script, if_pos hsaves, hsave]
        exact List.mem_singleton.2 rfl
      exact Step.mem_collect_flatMap.2 ⟨s, hs, hput⟩
    exact hbefore ((filled_iff_outputs hupload hfolder).1 (h save hmem))
  · intro hnone q hq
    obtain ⟨s, hs, hq⟩ := Step.mem_collect_flatMap.1 hq
    rw [puts_script] at hq
    split at hq
    · next hsaves => exact absurd ⟨s, hs, hsaves⟩ hnone
    · exact absurd hq List.not_mem_nil

/-- Checks share a folder for a failure just if one of them saves something then. -/
theorem checks_output_iff :
    Step.Outputs (scripts.flatMap (ScriptStep.steps m)) savedOnFailureDir
      ↔ Task.anySavesArtifactsOnFailure prePromote = true := by
  rw [Step.outputs_flatMap, Task.anySavesArtifactsOnFailure_iff]
  refine (exists_mem_congr hscripts fun check s hs => ?_).symm
  rw [outputs_script, (Script.artifacts_ofLeaf? hs).2.1]
  have hother : savedOnFailureDir ≠ savedDir := by decide
  simp [hother]

end Checks

/-- A deployment fills its uploads just if its checks save nothing, and leave something to save on failure
if there is to be. -/
theorem deployment_filled_iff {c : Config} {m : Manifest} {l : Leaf} {passed : List String} {j : Job}
    {d : DeployCf} {prePromote : List Task} {r : Resource} {scripts : List Script}
    (hr : (ResourceSet.ofManifest c m).deploy? d = some r)
    (hscripts : List.Forall₂ (fun check s => Script.ofLeaf? c m check = some s)
      (Task.flatten prePromote) scripts)
    (h : Consists c m (ResourceSet.ofManifest c m) l passed j
      (stageSteps m l d r (scripts.flatMap (ScriptStep.steps m)))) :
    j.Filled ↔ Task.anySavesArtifacts prePromote = false
      ∧ (l.savesArtifactsOnFailure = true → Task.anySavesArtifactsOnFailure prePromote = true) := by
  set initial := initialPlan c m (ResourceSet.ofManifest c m) l passed with hinitial
  have hpush : ∀ q ∈ Step.collect Step.put? [longStage m l d r .push], ¬ q.IsUpload :=
    fun q hq => not_upload_stage hr hq
  have hpromote : ∀ q ∈ Step.collect Step.put?
      [shortStage m l d r .check, shortStage m l d r .promote], ¬ q.IsUpload := by
    intro q hq
    obtain ⟨s, hs, hq⟩ := Step.mem_collect.1 hq
    rcases List.mem_cons.1 hs with rfl | hs
    · exact not_upload_stage hr hq
    · rw [List.mem_singleton.1 hs] at hq
      exact not_upload_stage hr hq
  have hbefore : ¬ Step.Outputs (initial ++ [longStage m l d r .push]) savedDir := by
    rw [Step.outputs_append]
    rintro (houtputs | ⟨t, ht, -⟩)
    · exact absurd (outputs_initialPlan houtputs) (by decide)
    · exact absurd ht List.not_mem_nil
  have hchecks : Step.Throughout (fun after => Fills (initial ++ ([longStage m l d r .push] ++ after)))
        (Step.together? (scripts.flatMap (ScriptStep.steps m))).toList
      ↔ Task.anySavesArtifacts prePromote = false := by
    rw [← checks_fill_iff hscripts hbefore, ← throughout_together]
    simp only [List.append_assoc]
  have houtputs : Step.Outputs (stageSteps m l d r (scripts.flatMap (ScriptStep.steps m)))
      savedOnFailureDir ↔ Task.anySavesArtifactsOnFailure prePromote = true := by
    rw [← checks_output_iff hscripts, Step.Outputs, Step.Outputs, tasks_stageSteps]
  rw [filled_iff h, houtputs, stageSteps, Step.throughout_append, Step.throughout_append, hchecks,
    and_iff_left (throughout_fills hpromote _), and_iff_right (throughout_fills hpush _)]

/-! ## The pipeline of an accepted manifest -/

/-- A rolling deployment has no checks. -/
def RollsUnchecked (l : Leaf) : Prop :=
  ∀ (d : DeployCf) (prePromote : List Task), l.action = .deployCf d prePromote → d.rolling = true →
    prePromote = []

theorem fillsUploads_of_isScript {l : Leaf} (h : l.action.isScript = true) : fillsUploads l = true := by
  rw [fillsUploads]
  cases haction : l.action <;> simp_all [Action.isScript]

/-- The job of a leaf fills its uploads just if `fillsUploads` says so. -/
theorem filled_iff_of_consists {c : Config} {m : Manifest} {l : Leaf} {passed : List String} {j : Job}
    {steps : List Step} (h : Consists c m (ResourceSet.ofManifest c m) l passed j steps)
    (hunchecked : RollsUnchecked l) : j.Filled ↔ fillsUploads l = true := by
  have hwork := h.work
  generalize j.ensure = ensure at hwork
  cases hwork with
  | script s hs =>
      exact iff_of_true (script_filled h hs) (fillsUploads_of_isScript (Script.isScript_of_ofLeaf? hs))
  | imageBuild p haction =>
      rw [fillsUploads, haction, Bool.not_eq_true']
      refine filled_iff_of_no_upload h (fun q hq => ?_) fun houtputs => ?_
      · obtain ⟨step, hstep, hq⟩ := Step.mem_collect.1 hq
        obtain ⟨t, -, rfl⟩ := List.mem_map.1 hstep
        exact absurd hq List.not_mem_nil
      · exact absurd (outputs_imageBuild houtputs) (by decide)
  | rolling d prePromote r haction hr hrolling =>
      obtain rfl := hunchecked d prePromote haction hrolling
      have hnone : Task.anySavesArtifacts [] = false ∧ Task.anySavesArtifactsOnFailure [] = false := by
        rw [Task.anySavesArtifacts, Task.anySavesArtifactsOnFailure]
        exact ⟨rfl, rfl⟩
      rw [fillsUploads, haction]
      simp only [hnone.1, hnone.2, Bool.not_false, Bool.true_and, Bool.or_false, Bool.not_eq_true']
      refine filled_iff_of_no_upload h (fun q hq => not_upload_stage hr hq) ?_
      rintro ⟨t, ht, -⟩
      exact absurd ht List.not_mem_nil
  | stages d prePromote r scripts haction hr hrolling hscripts =>
      have hfills : fillsUploads l = (!Task.anySavesArtifacts prePromote
          && (!l.savesArtifactsOnFailure || Task.anySavesArtifactsOnFailure prePromote)) := by
        rw [fillsUploads, haction]
      rw [deployment_filled_iff hr hscripts h, hfills]
      cases Task.anySavesArtifacts prePromote <;> cases l.savesArtifactsOnFailure <;> simp
  | katee d haction =>
      rw [fillsUploads, haction, Bool.not_eq_true']
      exact filled_iff_of_no_upload h (fun q hq => absurd hq List.not_mem_nil) not_outputs_katee
  | update u haction =>
      rw [fillsUploads, haction, Bool.not_eq_true']
      exact filled_iff_of_no_upload h (fun q hq => not_upload_update hq) not_outputs_update

/-- The rules leave a rolling deployment without checks, and the defaults give it none. -/
theorem rollsUnchecked_of_clean {m : Manifest} {files : FileProbe}
    (h : (Lint.tasksFindings m files).Clean) {l : Leaf}
    (hl : l ∈ Task.flatten m.withDefaults.tasks) : RollsUnchecked l := by
  intro d prePromote haction hrolling
  obtain ⟨l', rfl, hl' | ⟨hl', -⟩⟩ := Manifest.mem_flatten_withDefaults hl
  · exact Lint.prePromote_eq_nil_of_clean (Lint.leafFindings_clean h hl') haction hrolling
  · obtain rfl := Task.leaf.inj hl'
    simp at haction

/-- A job fills its uploads just if its leaf is one of those that do. -/
theorem filled_iff_of_realises {c : Config} {m : Manifest} {files : FileProbe}
    (h : m.withDefaults.Renderable) (hclean : (Lint.tasksFindings m files).Clean)
    {e : TaskPath × Leaf} {j : Job} (he : e ∈ Task.leaves m.withDefaults.tasks)
    (hj : Realises c m.withDefaults (ResourceSet.ofManifest c m.withDefaults) e j) :
    j.Filled ↔ fillsUploads e.2 = true := by
  obtain ⟨steps, hconsists⟩ := consists_of_renderable h he hj
  exact filled_iff_of_consists hconsists (rollsUnchecked_of_clean hclean (List.mem_map_of_mem he))

/-- In the pipeline of a manifest without lint errors, its defaults filled in, the jobs in which every
upload finds its folder are those of the leaves that `fillsUploads` describes. -/
theorem filled_of_accepted (c : Config) (s : Surroundings) (m : Manifest)
    (h : Lint.hasErrors (Lint.run c s m) = false) :
    ∃ p, render c m.withDefaults = .ok p
      ∧ List.Forall₂ (fun e j => j.Filled ↔ fillsUploads e.2 = true)
        (Task.leaves m.withDefaults.tasks) p.jobs := by
  have hrenderable := (Lint.renderable_of_accepted h).withDefaults
  obtain ⟨js, hrender, hjobs⟩ := render_eq_ok c hrenderable
  refine ⟨_, hrender, forall₂_imp_mem hjobs fun e he j _ hj => ?_⟩
  exact filled_iff_of_realises hrenderable (Lint.tasksFindings_clean h) he hj

theorem sample_filled :
    Lint.hasErrors (Lint.run {} Lint.sampleSurroundings Lint.sampleManifest) = false
      ∧ ∃ p, render {} Lint.sampleManifest.withDefaults = .ok p
        ∧ List.Forall₂ (fun e j => j.Filled ↔ fillsUploads e.2 = true)
          (Task.leaves Lint.sampleManifest.withDefaults.tasks) p.jobs :=
  ⟨Lint.sample_accepted, filled_of_accepted {} _ _ Lint.sample_accepted⟩

/-- A deployment with a check that saves artifacts, and an image build that is to save some if it
fails. -/
def unfilledManifest : Manifest where
  team := "acme"
  pipeline := "app"
  triggers := [.git { uri := "git@github.com:acme/app", privateKey := "((deploy.key))" }]
  tasks :=
    [.leaf
        { attributes := { name := "image", saveArtifactsOnFailure := ["log"] }
          action := .dockerPush { image := "acme/app" } },
      .leaf
        { attributes := { name := "deploy" }
          action := .deployCf { api := "api", org := "acme", space := "live" }
            [.leaf (Lint.savingScript "smoke")] }]

/-- In neither of its jobs is there a folder to upload. -/
theorem unfilledManifest_unfilled :
    Lint.hasErrors (Lint.run {} Lint.sampleSurroundings unfilledManifest) = false
      ∧ ∃ p, render {} unfilledManifest.withDefaults = .ok p ∧ p.jobs.length = 2
        ∧ ∀ j ∈ p.jobs, ¬ j.Filled := by
  have haccepted : Lint.hasErrors (Lint.run {} Lint.sampleSurroundings unfilledManifest) = false := by
    decide +kernel
  have hleaves : ∀ e ∈ Task.leaves unfilledManifest.withDefaults.tasks, fillsUploads e.2 = false := by
    decide +kernel
  have hrenderable := (Lint.renderable_of_accepted haccepted).withDefaults
  obtain ⟨js, hrender, hjobs⟩ := render_eq_ok {} hrenderable
  refine ⟨haccepted, _, hrender, hjobs.length_eq.symm.trans (by decide), fun j hj hfilled => ?_⟩
  obtain ⟨e, he, hrealises⟩ := exists_of_mem_right hjobs hj
  rw [filled_iff_of_realises hrenderable (Lint.tasksFindings_clean haccepted) he hrealises,
    hleaves e he] at hfilled
  exact absurd hfilled Bool.false_ne_true

end PipelineCompiler.Concourse

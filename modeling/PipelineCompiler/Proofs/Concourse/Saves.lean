import PipelineCompiler.Proofs.Concourse.Uploads

/-!
# What jobs save

Every leaf may name artifacts to save, and the linters and the declarations count on each that does. The
upload after a success belongs to scripts, though: a leaf that does not run as one uploads nothing but
what the checks of its candidate save, and drops what it names itself (`dropsSaved`). Uploads after a
failure belong to jobs, so that none of them is left out.
-/

namespace PipelineCompiler.Concourse

/-! ## Pushes to a resource -/

/-- Some step, at any depth, pushes to the resource. -/
def Step.PushesTo (steps : List Step) (name : String) : Prop :=
  ∃ q ∈ Step.collect Step.put? steps, q.resource = name

/-- The plan of the job uploads artifacts to their store. -/
def Job.Saves (j : Job) : Prop := Step.PushesTo j.plan savedName

/-- The job uploads artifacts to the store for failures when it fails. -/
def Job.SavesOnFailure (j : Job) : Prop := Step.PushesTo j.onFailure.toList savedOnFailureName

namespace Step

variable {xs ys : List Step} {name : String}

theorem pushesTo_append : PushesTo (xs ++ ys) name ↔ PushesTo xs name ∨ PushesTo ys name := by
  simp only [PushesTo, collect_append, List.mem_append, or_and_right, exists_or]

theorem pushesTo_together : PushesTo (together? xs).toList name ↔ PushesTo xs name := by
  rw [PushesTo, collect_together blind_put?, PushesTo]

theorem pushesTo_flatMap {α : Type} {f : α → List Step} {as : List α} :
    PushesTo (as.flatMap f) name ↔ ∃ a ∈ as, PushesTo (f a) name := by
  constructor
  · rintro ⟨q, hq, hname⟩
    obtain ⟨a, ha, hq⟩ := mem_collect_flatMap.1 hq
    exact ⟨a, ha, q, hq, hname⟩
  · rintro ⟨a, ha, q, hq, hname⟩
    exact ⟨q, mem_collect_flatMap.2 ⟨a, ha, hq⟩, hname⟩

/-- Steps without uploads push to no store. -/
theorem not_pushesTo_of_not_upload (h : ∀ q ∈ collect put? xs, ¬ q.IsUpload) :
    ¬ PushesTo xs savedName := by
  rintro ⟨q, hq, hname⟩
  exact h q hq (.inl hname)

end Step

/-! ## Leaves whose artifacts are dropped -/

/-- The leaf names artifacts, and neither runs as a script nor has a check that saves some. -/
def dropsSaved (l : Leaf) : Bool :=
  !l.action.isScript && !l.attributes.saveArtifacts.isEmpty && !Action.savesArtifacts l.action

/-- Of a leaf that runs as a script nothing is dropped. -/
theorem dropsSaved_of_isScript {l : Leaf} (h : l.action.isScript = true) : dropsSaved l = false := by
  rw [dropsSaved, h, Bool.not_true, Bool.false_and, Bool.false_and]

/-- Of another leaf everything is dropped but what its action saves. -/
theorem saves_not_drops_iff {l : Leaf} (h : l.action.isScript = false) :
    (l.savesArtifacts = true ∧ dropsSaved l = false) ↔ Action.savesArtifacts l.action = true := by
  obtain ⟨attributes, action⟩ := l
  have hscript : action.isScript = false := h
  rw [LeafOf.savesArtifacts, dropsSaved]
  cases attributes.saveArtifacts.isEmpty <;> cases Action.savesArtifacts action <;> simp [hscript]

/-! ## Uploads of a job -/

section Jobs

variable {c : Config} {m : Manifest} {resources : ResourceSet} {l : Leaf}

/-- A script uploads to the store if its leaf saves artifacts. -/
theorem script_pushesTo_iff (m : Manifest) (s : Script) :
    Step.PushesTo (ScriptStep.steps m s) savedName ↔ s.leaf.savesArtifacts = true := by
  rw [Step.PushesTo, puts_script]
  by_cases hsaves : s.leaf.savesArtifacts = true
  · rw [if_pos hsaves]
    exact iff_of_true ⟨_, List.mem_singleton.2 rfl, rfl⟩ hsaves
  · rw [if_neg hsaves]
    refine iff_of_false ?_ hsaves
    rintro ⟨q, hq, -⟩
    exact absurd hq List.not_mem_nil

/-- The checks of a candidate upload if one of them saves artifacts. -/
theorem checks_pushesTo_iff {prePromote : List Task} {scripts : List Script}
    (hscripts : List.Forall₂ (fun check s => Script.ofLeaf? c m check = some s)
      (Task.flatten prePromote) scripts) :
    Step.PushesTo (scripts.flatMap (ScriptStep.steps m)) savedName
      ↔ Task.anySavesArtifacts prePromote = true := by
  rw [Step.pushesTo_flatMap, Task.anySavesArtifacts_iff]
  refine (exists_mem_congr hscripts fun check s hs => ?_).symm
  rw [script_pushesTo_iff, (Script.artifacts_ofLeaf? hs).1]

/-- The stages of a deployment add nothing to what its checks upload. -/
theorem stageSteps_pushesTo_iff {d : DeployCf} {r : Resource} {checks : List Step}
    (hr : (ResourceSet.ofManifest c m).deploy? d = some r) :
    Step.PushesTo (stageSteps m l d r checks) savedName ↔ Step.PushesTo checks savedName := by
  -- stages push to the resource of the deployment, which is no store
  have hstage (stage : CloudFoundry.Stage) (params : Settings) :
      ¬ Step.PushesTo [CloudFoundry.stageStep l r.name stage params] savedName :=
    Step.not_pushesTo_of_not_upload fun q hq => not_upload_stage hr hq
  have hpromote :
      ¬ Step.PushesTo [shortStage m l d r .check, shortStage m l d r .promote] savedName := by
    rw [← List.singleton_append, Step.pushesTo_append]
    rintro (hcheck | hpromote)
    · exact hstage _ _ hcheck
    · exact hstage _ _ hpromote
  rw [stageSteps, Step.pushesTo_append, Step.pushesTo_append, Step.pushesTo_together,
    or_iff_left hpromote]
  exact or_iff_right (hstage _ _)

/-- Work without uploads is what a leaf gets that does not run as a script and whose action saves
nothing: whatever it names is dropped. -/
theorem pushesTo_iff_of_not_upload {steps : List Step} (hscript : l.action.isScript = false)
    (hnone : Action.savesArtifacts l.action = false)
    (hputs : ∀ q ∈ Step.collect Step.put? steps, ¬ q.IsUpload) :
    Step.PushesTo steps savedName ↔ l.savesArtifacts = true ∧ dropsSaved l = false := by
  rw [saves_not_drops_iff hscript, hnone]
  exact iff_of_false (Step.not_pushesTo_of_not_upload hputs) Bool.false_ne_true

/-- The work for a leaf uploads artifacts just if the leaf saves some that are not dropped. -/
theorem work_pushesTo_iff {steps : List Step} {ensure : Option Step}
    (h : Work c m (ResourceSet.ofManifest c m) l steps ensure) (hunchecked : RollsUnchecked l) :
    Step.PushesTo steps savedName ↔ l.savesArtifacts = true ∧ dropsSaved l = false := by
  cases h with
  | script s hs =>
      have hdrops := dropsSaved_of_isScript (Script.isScript_of_ofLeaf? hs)
      rw [script_pushesTo_iff, (Script.artifacts_ofLeaf? hs).1, and_iff_left hdrops]
  | imageBuild p haction =>
      refine pushesTo_iff_of_not_upload (by rw [haction, Action.isScript])
        (by rw [haction, Action.savesArtifacts]) fun q hq => ?_
      obtain ⟨step, hstep, hq⟩ := Step.mem_collect.1 hq
      obtain ⟨t, -, rfl⟩ := List.mem_map.1 hstep
      exact absurd hq List.not_mem_nil
  | rolling d prePromote r haction hr hrolling =>
      -- a rolling deployment runs no checks, and an accepted one has none
      obtain rfl := hunchecked d prePromote haction hrolling
      exact pushesTo_iff_of_not_upload (by rw [haction, Action.isScript])
        (by rw [haction, Action.savesArtifacts, Task.anySavesArtifacts]) fun q hq =>
          not_upload_stage hr hq
  | stages d prePromote r scripts haction hr hrolling hscripts =>
      rw [stageSteps_pushesTo_iff hr, checks_pushesTo_iff hscripts,
        saves_not_drops_iff (by rw [haction, Action.isScript]), haction, Action.savesArtifacts]
  | katee d haction =>
      exact pushesTo_iff_of_not_upload (by rw [haction, Action.isScript])
        (by rw [haction, Action.savesArtifacts]) fun q hq => absurd hq List.not_mem_nil
  | update u haction =>
      exact pushesTo_iff_of_not_upload (by rw [haction, Action.isScript])
        (by rw [haction, Action.savesArtifacts]) fun q hq => not_upload_update hq

/-- The plan of a job uploads what its work does. -/
theorem saves_iff_of_consists {passed : List String} {j : Job} {steps : List Step}
    (h : Consists c m (ResourceSet.ofManifest c m) l passed j steps) (hunchecked : RollsUnchecked l) :
    j.Saves ↔ l.savesArtifacts = true ∧ dropsSaved l = false := by
  have hinitial :
      ¬ Step.PushesTo (initialPlan c m (ResourceSet.ofManifest c m) l passed) savedName := by
    rintro ⟨q, hq, -⟩
    rw [puts_initialPlan] at hq
    exact absurd hq List.not_mem_nil
  rw [Job.Saves, h.plan, Step.pushesTo_append, or_iff_right hinitial]
  exact work_pushesTo_iff h.work hunchecked

/-- Every job uploads what its leaf saves on failure. -/
theorem savesOnFailure_iff_of_consists {passed : List String} {j : Job} {steps : List Step}
    (h : Consists c m resources l passed j steps) :
    j.SavesOnFailure ↔ l.savesArtifactsOnFailure = true := by
  rw [Job.SavesOnFailure, h.onFailure]
  constructor
  · rintro ⟨q, hq, hname⟩
    rcases puts_onFailure l hq with ⟨hsaves, -⟩ | hother
    · exact hsaves
    · exact absurd (.inr hname) hother
  · intro hsaves
    exact ⟨_, mem_puts_onFailure hsaves (List.mem_singleton.2 rfl), rfl⟩

end Jobs

/-! ## The pipeline of an accepted manifest -/

/-- The job uploads the artifacts of its leaf: after a success those that are not dropped, after a
failure all. -/
structure Job.Uploads (j : Job) (l : Leaf) : Prop where
  saved : j.Saves ↔ l.savesArtifacts = true ∧ dropsSaved l = false
  savedOnFailure : j.SavesOnFailure ↔ l.savesArtifactsOnFailure = true

theorem uploads_of_realises {c : Config} {m : Manifest} {files : FileProbe}
    (h : m.withDefaults.Renderable) (hclean : (Lint.tasksFindings m files).Clean)
    {e : TaskPath × Leaf} {j : Job} (he : e ∈ Task.leaves m.withDefaults.tasks)
    (hj : Realises c m.withDefaults (ResourceSet.ofManifest c m.withDefaults) e j) : j.Uploads e.2 := by
  obtain ⟨steps, hconsists⟩ := consists_of_renderable h he hj
  have hunchecked := rollsUnchecked_of_clean hclean (List.mem_map_of_mem he)
  exact ⟨saves_iff_of_consists hconsists hunchecked, savesOnFailure_iff_of_consists hconsists⟩

/-- In the pipeline of a manifest without lint errors, its defaults filled in, the plan of a job uploads
artifacts just if its leaf saves some that are not dropped, and a job uploads artifacts on failure just
if its leaf saves some then. -/
theorem uploads_of_accepted (c : Config) (s : Surroundings) (m : Manifest)
    (h : Lint.hasErrors (Lint.run c s m) = false) :
    ∃ p, render c m.withDefaults = .ok p
      ∧ List.Forall₂ (fun e j => j.Uploads e.2) (Task.leaves m.withDefaults.tasks) p.jobs := by
  have hrenderable := (Lint.renderable_of_accepted h).withDefaults
  obtain ⟨js, hrender, hjobs⟩ := render_eq_ok c hrenderable
  refine ⟨_, hrender, forall₂_imp_mem hjobs fun e he j _ hj => ?_⟩
  exact uploads_of_realises hrenderable (Lint.tasksFindings_clean h) he hj

theorem sample_uploads :
    Lint.hasErrors (Lint.run {} Lint.sampleSurroundings Lint.sampleManifest) = false
      ∧ ∃ p, render {} Lint.sampleManifest.withDefaults = .ok p
        ∧ List.Forall₂ (fun e j => j.Uploads e.2)
          (Task.leaves Lint.sampleManifest.withDefaults.tasks) p.jobs :=
  ⟨Lint.sample_accepted, uploads_of_accepted {} _ _ Lint.sample_accepted⟩

/-- An image build that is to save artifacts. -/
def droppedManifest : Manifest where
  team := "acme"
  pipeline := "app"
  triggers := [.git { uri := "git@github.com:acme/app", privateKey := "((deploy.key))" }]
  tasks :=
    [.leaf
        { attributes := { name := "image", saveArtifacts := ["out"] }
          action := .dockerPush { image := "acme/app" } }]

/-- Its leaf counts as saving artifacts, and the store for them is declared, but no job uploads any. -/
theorem droppedManifest_dropped :
    Lint.hasErrors (Lint.run {} Lint.sampleSurroundings droppedManifest) = false
      ∧ (∀ e ∈ Task.leaves droppedManifest.withDefaults.tasks, e.2.savesArtifacts = true)
      ∧ ∃ p, render {} droppedManifest.withDefaults = .ok p
        ∧ (∃ r ∈ p.resources, r.name = savedName) ∧ p.jobs.length = 1 ∧ ∀ j ∈ p.jobs, ¬ j.Saves := by
  have haccepted : Lint.hasErrors (Lint.run {} Lint.sampleSurroundings droppedManifest) = false := by
    decide +kernel
  have hleaves : ∀ e ∈ Task.leaves droppedManifest.withDefaults.tasks,
      e.2.savesArtifacts = true ∧ dropsSaved e.2 = true := by
    decide +kernel
  have hsaved : Task.anySavesArtifacts droppedManifest.withDefaults.tasks = true := by
    decide +kernel
  have hrenderable := (Lint.renderable_of_accepted haccepted).withDefaults
  obtain ⟨js, hrender, hjobs⟩ := render_eq_ok {} hrenderable
  refine ⟨haccepted, fun e he => (hleaves e he).1, _, hrender,
    (ResourceSet.ofManifest_provides hrenderable).saved hsaved,
    hjobs.length_eq.symm.trans (by decide), fun j hj hsaves => ?_⟩
  obtain ⟨e, he, hrealises⟩ := exists_of_mem_right hjobs hj
  have huploads := uploads_of_realises hrenderable (Lint.tasksFindings_clean haccepted) he hrealises
  have hkept := (huploads.saved.1 hsaves).2
  exact absurd (hkept.symm.trans (hleaves e he).2) Bool.false_ne_true

end PipelineCompiler.Concourse

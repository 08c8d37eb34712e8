import PipelineCompiler.Proofs.Agreement
import PipelineCompiler.Proofs.Concourse.Plans
import PipelineCompiler.Proofs.Lint.Order
import PipelineCompiler.Proofs.Manifest.UpdateFirst

/-!
# Versions that passed other jobs

A job may ask for versions of a resource that passed other jobs. A version passes a job only if the job
fetches the resource or pushes to it, so that a job that asks in vain never runs. Who is asked follows
from the tree alone, and what is fetched from the version and from being the update. The two agree
because the update stands first: it asks nobody, all other jobs fetch alike (`resource_leafGets_congr`),
and of what they ask the update for it fetches all but the version, to which it pushes.
-/

namespace PipelineCompiler.Concourse

/-! ## Constraints that can be satisfied -/

/-- What the plan pushes. -/
def Job.puts (j : Job) : List Put := j.steps.filterMap Step.put?

/-- The plan fetches the resource or pushes to it. -/
def Job.Handles (j : Job) (resource : String) : Prop :=
  (∃ g ∈ j.gets, g.resource = resource) ∨ ∃ q ∈ j.puts, q.resource = resource

/-- Every version that a job asks for can pass the jobs that it has to have passed. -/
def Pipeline.Satisfiable (p : Pipeline) : Prop :=
  ∀ j ∈ p.jobs, ∀ g ∈ j.gets, ∀ name ∈ g.passed, ∃ j', p.job? name = some j' ∧ j'.Handles g.resource

/-! ## Who is asked -/

/-- The first task waits for nothing. -/
theorem passedPaths_first (tasks : List Task) : Task.passedPaths tasks [0] = [] := by
  rw [Task.passedPaths, Task.passedFrom]
  cases tasks[0]? with
  | none => rfl
  | some t => simp [Task.entryOf]

/-- A name that a job asks for is the one of the job of a leaf that its own leaf waits for. -/
theorem exists_job_of_passed {c : Config} {m : Manifest} {resources : ResourceSet} {js : List Job}
    (hjobs : List.Forall₂ (Realises c m resources) (Task.leaves m.tasks) js) {e : TaskPath × Leaf}
    {name : String} (hname : name ∈ jobPassed m e) :
    ∃ e' ∈ Task.leaves m.tasks, e'.1 ∈ Task.passedPaths m.tasks e.1
      ∧ ∃ j' ∈ js, Realises c m resources e' j' ∧ j'.name = name := by
  obtain ⟨i, path, l, hi, hclaimed, hpassed⟩ := JobIndex.mem_passed.1 hname
  obtain ⟨hlt, -⟩ := List.getElem?_eq_some_iff.1 hi
  rw [hjobs.length_eq] at hlt
  have hj : js[i]? = some js[i] := List.getElem?_eq_getElem hlt
  have hrealises := rel_of_getElem? hjobs hi hj
  refine ⟨(path, l), List.mem_of_getElem? hi, hpassed, js[i], List.mem_of_getElem? hj, hrealises, ?_⟩
  rw [hrealises.name, jobName, jobIndex, JobIndex.name?_of_getElem? hi hclaimed, Option.getD_some]

/-- A job is found by its name if no two have one name. -/
theorem job?_of_mem {p : Pipeline} (hnames : (p.jobs.map Job.name).Nodup) {j : Job} (hj : j ∈ p.jobs) :
    p.job? j.name = some j := by
  have hsome : (p.job? j.name).isSome = true := by
    rw [Pipeline.job?, List.find?_isSome]
    exact ⟨j, hj, by simp⟩
  obtain ⟨j', hj'⟩ := Option.isSome_iff_exists.1 hsome
  have hname : j'.name = j.name := by simpa using List.find?_some hj'
  rw [hj', List.inj_on_of_nodup_map hnames (List.mem_of_find?_eq_some hj') hj hname]

/-! ## What jobs fetch and push -/

section Handles

variable {c : Config} {m : Manifest} {resources : ResourceSet} {e : TaskPath × Leaf} {j : Job}

/-- Leaves that the version gates alike fetch alike. -/
theorem resource_leafGets_congr {l l' : Leaf} (h : isGated m l = isGated m l')
    (passed passed' : List String) :
    (leafGets m resources l passed).map Get.resource
      = (leafGets m resources l' passed').map Get.resource := by
  rw [resource_leafGets, resource_leafGets, fetchedTriggers, fetchedTriggers, h]

/-- A job handles what is fetched for its leaf. -/
theorem handles_of_leafGets (hj : Realises c m resources e j) {resource : String}
    (h : resource ∈ (leafGets m resources e.2 (jobPassed m e)).map Get.resource) :
    j.Handles resource := by
  rw [← hj.refers.planGets] at h
  obtain ⟨g, hg, hresource⟩ := List.mem_map.1 h
  exact .inl ⟨g, hg, hresource⟩

/-- The job of the update handles what any other job fetches. -/
theorem update_handles (h : m.Renderable) (he : e ∈ Task.leaves m.tasks)
    (hj : Realises c m (ResourceSet.ofManifest c m) e j) (hupdate : e.2.isUpdate = true) {l : Leaf}
    {passed : List String} {resource : String}
    (hresource : resource ∈ (leafGets m (ResourceSet.ofManifest c m) l passed).map Get.resource) :
    j.Handles resource := by
  rw [resource_leafGets] at hresource
  rcases List.mem_append.1 hresource with htrigger | hversion
  · -- the update fetches something for every trigger
    have hall : fetchedTriggers m l ⊆ fetchedTriggers m e.2 := by
      intro t ht
      refine List.mem_filter.2 ⟨List.mem_of_mem_filter ht, ?_⟩
      rw [isGated, hupdate, Bool.not_true, Bool.false_and, Bool.not_false, Bool.or_true]
    refine handles_of_leafGets hj ?_
    rw [resource_leafGets]
    exact List.mem_append_left _ (List.map_subset _ hall htrigger)
  · have hresource : resource = versionName :=
      List.mem_singleton.1 (List.mem_ite_nil_right.1 hversion).2
    obtain ⟨steps, hconsists⟩ := consists_of_renderable h he hj
    obtain ⟨u, rfl⟩ := hconsists.work.eq_updateSteps hupdate
    have hversion : versionName ∈ (Step.collect Step.put? (updateSteps c m e.2 u)).map Put.resource := by
      rw [puts_updateSteps]
      exact List.mem_cons_self
    obtain ⟨q, hq, hname⟩ := List.mem_map.1 hversion
    refine .inr ⟨q, ?_, hname.trans hresource.symm⟩
    have hplan : j.puts = Step.collect Step.put? j.plan := rfl
    rw [hplan, hconsists.plan, Step.collect_append]
    exact List.mem_append_right _ hq

end Handles

/-! ## The pipeline of an accepted manifest -/

section Satisfiable

variable {c : Config} {m : Manifest} {p : Pipeline}

theorem nodup_jobNames (h : m.Renderable)
    (hjobs : List.Forall₂ (Realises c m (ResourceSet.ofManifest c m)) (Task.leaves m.tasks) p.jobs) :
    (p.jobs.map Job.name).Nodup := by
  have hdistinct := (JobGraph.orders_of_index (fromIndex_graph h hjobs) h.filled).distinct
  rwa [Pipeline.graph, List.map_map] at hdistinct

/-- A leaf that waits for another one is not the update, and fetches what the other one handles. -/
theorem handles_of_waits (h : m.Renderable) (hfirst : m.UpdateFirst) {e e' : TaskPath × Leaf}
    (he : e ∈ Task.leaves m.tasks) (he' : e' ∈ Task.leaves m.tasks)
    (hwaits : e'.1 ∈ Task.passedPaths m.tasks e.1) {j' : Job}
    (hj' : Realises c m (ResourceSet.ofManifest c m) e' j') {passed : List String} {resource : String}
    (hresource : resource ∈ (leafGets m (ResourceSet.ofManifest c m) e.2 passed).map Get.resource) :
    j'.Handles resource := by
  have hordinary : e.2.isUpdate = false := by
    by_contra hupdate
    rw [Bool.not_eq_false] at hupdate
    rw [hfirst e he hupdate, passedPaths_first] at hwaits
    exact absurd hwaits List.not_mem_nil
  cases hupdate : e'.2.isUpdate with
  | true => exact update_handles h he' hj' hupdate hresource
  | false =>
      have hgated : isGated m e.2 = isGated m e'.2 := by rw [isGated, isGated, hordinary, hupdate]
      rw [resource_leafGets_congr hgated passed (jobPassed m e')] at hresource
      exact handles_of_leafGets hj' hresource

/-- Where the update stands first, every constraint can be satisfied. -/
theorem satisfiable_of_jobs (h : m.Renderable) (hfirst : m.UpdateFirst)
    (hjobs : List.Forall₂ (Realises c m (ResourceSet.ofManifest c m)) (Task.leaves m.tasks) p.jobs) :
    p.Satisfiable := by
  intro j hj g hg name hname
  obtain ⟨e, he, hrealises⟩ := exists_of_mem_right hjobs hj
  have hgets : j.gets = leafGets m (ResourceSet.ofManifest c m) e.2 (jobPassed m e) :=
    hrealises.refers.planGets
  rw [hgets] at hg
  have hpassed : name ∈ jobPassed m e := by
    obtain ⟨g', -, rfl⟩ := List.mem_map.1 hg
    exact hname
  obtain ⟨e', he', hwaits, j', hj', hrealises', rfl⟩ := exists_job_of_passed hjobs hpassed
  exact ⟨j', job?_of_mem (nodup_jobNames h hjobs) hj',
    handles_of_waits h hfirst he he' hwaits hrealises' (List.mem_map_of_mem hg)⟩

end Satisfiable

/-- In the pipeline of a manifest without lint errors, its defaults filled in, the jobs that a version
has to have passed all fetch or push the resource that it is a version of. -/
theorem satisfiable_of_accepted (c : Config) (s : Surroundings) (m : Manifest)
    (h : Lint.hasErrors (Lint.run c s m) = false) :
    ∃ p, render c m.withDefaults = .ok p ∧ p.Satisfiable := by
  have hfirst : m.UpdateFirst := fun e he hupdate =>
    Lint.update_first (Lint.tasksFindings_clean h) he hupdate
  have hrenderable := (Lint.renderable_of_accepted h).withDefaults
  obtain ⟨js, hrender, hjobs⟩ := render_eq_ok c hrenderable
  exact ⟨_, hrender, satisfiable_of_jobs hrenderable hfirst.withDefaults hjobs⟩

theorem sample_satisfiable :
    Lint.hasErrors (Lint.run {} Lint.sampleSurroundings Lint.sampleManifest) = false
      ∧ ∃ p, render {} Lint.sampleManifest.withDefaults = .ok p ∧ p.Satisfiable :=
  ⟨Lint.sample_accepted, satisfiable_of_accepted {} _ _ Lint.sample_accepted⟩

end PipelineCompiler.Concourse

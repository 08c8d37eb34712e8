import PipelineCompiler.Proofs.Actions.Jobs
import PipelineCompiler.Proofs.Concourse.References
import PipelineCompiler.Proofs.JobGraph

/-!
# Both build servers run the leaves in one order

A pipeline and a workflow have graphs of their jobs. For a manifest that can be rendered each of them is
the graph of an index (`FromIndex`), although the indices hand out different names: Concourse jobs wait
through what they fetch, which is never nothing since there is a repository to fetch, and Actions jobs
through what they need. So both order the tasks of the manifest, and in the same way.
-/

namespace PipelineCompiler

/-! ## Pipelines -/

namespace Concourse

/-- The names of the jobs that a job waits for: what it fetches has passed them. -/
def Job.passed (j : Job) : List String := (j.allSteps.filterMap Step.get?).flatMap Get.passed

/-- The jobs of a pipeline and the jobs that they wait for. -/
def Pipeline.graph (p : Pipeline) : JobGraph := p.jobs.map fun j => (j.name, j.passed)

variable {c : Config} {m : Manifest}

/-- There is something to fetch for every leaf. -/
theorem leafGets_ne_nil (h : m.Renderable) (resources : ResourceSet) (l : Leaf) (passed : List String) :
    leafGets m resources l passed ≠ [] := by
  obtain ⟨g, hg⟩ := h.exists_git
  obtain ⟨i, hi⟩ := List.mem_iff_getElem?.1 hg
  have hfetched : (.git g, i) ∈ fetchedTriggers m l :=
    List.mem_filter.2 ⟨List.mk_mem_zipIdx_iff_getElem?.2 hi, rfl⟩
  intro hnil
  have hresources := resource_leafGets m resources l passed
  rw [hnil, List.map_nil, eq_comm, List.append_eq_nil_iff, List.map_eq_nil_iff] at hresources
  rw [hresources.1] at hfetched
  exact absurd hfetched List.not_mem_nil

/-- A job waits for the jobs that it was built to wait for. -/
theorem mem_passed_of_jobOf (h : m.Renderable) {resources : ResourceSet} {l : Leaf}
    {passed : List String} {j : Job} (hj : JobOf m resources l passed j) {name : String} :
    name ∈ j.passed ↔ name ∈ passed := by
  have hgets : j.allSteps.filterMap Step.get? = leafGets m resources l passed := hj.gets
  have hpassed : ∀ g ∈ leafGets m resources l passed, g.passed = passed := by
    intro g hg
    obtain ⟨g', -, rfl⟩ := List.mem_map.1 hg
    rfl
  rw [Job.passed, hgets, List.mem_flatMap]
  constructor
  · rintro ⟨g, hg, hname⟩
    rwa [hpassed g hg] at hname
  · intro hname
    obtain ⟨g, hg⟩ := List.exists_mem_of_ne_nil _ (leafGets_ne_nil h resources l passed)
    exact ⟨g, hg, by rwa [hpassed g hg]⟩

/-- The graph of the jobs is the one of their index. -/
theorem fromIndex_graph (h : m.Renderable) {resources : ResourceSet} {p : Pipeline}
    (hjobs : List.Forall₂ (Realises c m resources) (Task.leaves m.tasks) p.jobs) :
    List.Forall₂ (JobGraph.FromIndex m.tasks LeafOf.name) (Task.leaves m.tasks) p.graph := by
  refine JobGraph.fromIndex_map hjobs fun e j hj => ?_
  exact ⟨_, hj.name, fun name => mem_passed_of_jobOf h hj.refers⟩

end Concourse

/-! ## Workflows -/

namespace Actions

/-- The jobs of a workflow and the jobs that they need. -/
def Workflow.graph (w : Workflow) : JobGraph := w.jobs.map fun j => (j.id, j.needs)

variable {c : Config} {m : Manifest}

/-- The graph of the jobs is the one of their index. -/
theorem fromIndex_graph {w : Workflow}
    (hjobs : List.Forall₂ (fun e j => job c m (leafId m e) e.2 (leafNeeds m e) = .ok j)
      (Task.leaves m.tasks) w.jobs) :
    List.Forall₂ (JobGraph.FromIndex m.tasks fun l => jobId l.name) (Task.leaves m.tasks) w.graph := by
  refine JobGraph.fromIndex_map hjobs fun e j hj => ?_
  obtain ⟨hid, hneeds⟩ := id_needs_of_job hj
  refine ⟨_, hid, fun name => ?_⟩
  rw [hneeds]
  rfl

end Actions

/-! ## Agreement -/

/-- The pipeline and the workflow of a manifest have one job for each leaf, built from that leaf, and
their jobs wait for each other in the same way. -/
structure Agree (c : Config) (m : Manifest) (p : Concourse.Pipeline) (w : Actions.Workflow) : Prop where
  pipelineJobs : List.Forall₂ (fun e j => ∃ passed,
      Concourse.job c m (Concourse.ResourceSet.ofManifest c m) j.name e.2 passed
        = .ok (j, Concourse.ResourceSet.ofManifest c m))
    (Task.leaves m.tasks) p.jobs
  workflowJobs : List.Forall₂ (fun e j => Actions.job c m j.id e.2 j.needs = .ok j)
    (Task.leaves m.tasks) w.jobs
  pipelineOrder : p.graph.Orders m.tasks
  workflowOrder : w.graph.Orders m.tasks
  same : ∀ i k, p.graph.Waits i k ↔ w.graph.Waits i k

/-- A manifest that can be rendered has a pipeline and a workflow, and they agree. -/
theorem agree_of_renderable (c : Config) {m : Manifest} (h : m.Renderable) :
    ∃ p w, Concourse.render c m = .ok p ∧ Actions.render c m = .ok w ∧ Agree c m p w := by
  obtain ⟨js, hp, hjobs⟩ := Concourse.render_eq_ok c h
  obtain ⟨w, hw, hjobs'⟩ := Actions.render_eq_ok c h
  refine ⟨_, w, hp, hw, hjobs.imp fun e j hj => ?_, hjobs'.imp fun e j hj => ?_,
    JobGraph.orders_of_index (Concourse.fromIndex_graph h hjobs) h.filled,
    JobGraph.orders_of_index (Actions.fromIndex_graph hjobs') h.filled, fun i k => ?_⟩
  · rw [hj.name]
    exact ⟨_, hj.built⟩
  · obtain ⟨hid, hneeds⟩ := Actions.id_needs_of_job hj
    rw [hid, hneeds, hj]
  · rw [JobGraph.waits_iff (Concourse.fromIndex_graph h hjobs),
      JobGraph.waits_iff (Actions.fromIndex_graph hjobs')]

/-- For a manifest without lint errors, its defaults filled in, both build servers run one job for each
leaf, under names of their own, in one order. -/
theorem agree_of_accepted (c : Config) (s : Surroundings) (m : Manifest)
    (h : Lint.hasErrors (Lint.run c s m) = false) :
    ∃ p w, Concourse.render c m.withDefaults = .ok p ∧ Actions.render c m.withDefaults = .ok w
      ∧ Agree c m.withDefaults p w :=
  agree_of_renderable c (Lint.renderable_of_accepted h).withDefaults

theorem sample_agree :
    Lint.hasErrors (Lint.run {} Lint.sampleSurroundings Lint.sampleManifest) = false
      ∧ ∃ p w, Concourse.render {} Lint.sampleManifest.withDefaults = .ok p
        ∧ Actions.render {} Lint.sampleManifest.withDefaults = .ok w
        ∧ Agree {} Lint.sampleManifest.withDefaults p w :=
  ⟨Lint.sample_accepted, agree_of_accepted {} _ _ Lint.sample_accepted⟩

end PipelineCompiler

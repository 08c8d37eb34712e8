import PipelineCompiler.Proofs.Concourse.Names
import PipelineCompiler.Proofs.Concourse.References

/-!
# What jobs fetch and what starts them

Where builds carry a version, a new version starts every job but the update's, and the version and the
repository are all that such a job fetches. Any other job fetches the resource of every trigger and is
started by each of them, apart from a repository that waits for someone to start the pipeline.

The renderer decides this by the names of resources, after the gets are there. That the names stand for
what they say is what has to be shown: there is one repository, its resource is named for it
(`ResourceSet.trigger?_git`), and no other trigger has a resource of that name (`resource_eq_git_iff`).
-/

namespace PipelineCompiler.Concourse

/-! ## The two ways to fetch -/

/-- What a job fetches, in its plan and after it, steps inside of others included. -/
def Job.fetched (j : Job) : List Get := j.allSteps.filterMap Step.get?

/-- The job of a leaf at a position fetches what its pipeline is for. -/
structure Job.Fetches (c : Config) (m : Manifest) (p : Pipeline) (e : TaskPath × Leaf) (j : Job) :
    Prop where
  /-- Behind the update, jobs fetch the repository and the version, and the version starts them. -/
  gated : m.isVersioned = true ∧ e.2.isUpdate = false →
    j.fetched.map Get.resource = [gitName, versionName]
      ∧ ∀ g ∈ j.fetched, g.trigger = true ↔
        e.2.attributes.manualTrigger = false ∧ g.resource = versionName
  /-- Other jobs fetch the resource of every trigger, in the order of the triggers, and all of them start
  the job apart from a manual repository. -/
  ungated : ¬ (m.isVersioned = true ∧ e.2.isUpdate = false) →
    List.Forall₂ (fun t g => (ResourceSet.ofManifest c m).trigger? t.2 = some g.resource
        ∧ (triggerResource t.1).renamed g.resource ∈ p.resources
        ∧ (g.resource = gitName ↔ ∃ git, t.1 = .git git)
        ∧ (g.trigger = true ↔ e.2.attributes.manualTrigger = false
          ∧ ¬ ∃ git, t.1 = .git git ∧ git.manualTrigger = true))
      m.triggers.zipIdx j.fetched
  /-- Whatever is fetched has passed the same jobs. -/
  passed : ∀ g ∈ j.fetched, g.passed = jobPassed m e

/-! ## Flags -/

section Flags

variable {m : Manifest} {l : Leaf}

theorem isGated_iff : isGated m l = true ↔ m.isVersioned = true ∧ l.isUpdate = false := by
  rw [isGated, Bool.and_eq_true, Bool.not_eq_true', and_comm]

theorem isGated_eq_false (h : ¬ (m.isVersioned = true ∧ l.isUpdate = false)) : isGated m l = false := by
  rw [← isGated_iff, Bool.not_eq_true] at h
  exact h

/-- A job that waits for the version is started by it alone. -/
theorem startsJob_gated (h : isGated m l = true) (resource : String) (manualGit : Bool) :
    startsJob resource l.isUpdate m.isVersioned manualGit = decide (resource = versionName) := by
  obtain ⟨hversioned, hordinary⟩ := isGated_iff.1 h
  rw [hversioned, hordinary]
  by_cases hresource : resource = versionName <;> simp [startsJob, hresource]

/-- A job that does not is started by everything but a manual repository. -/
theorem startsJob_ungated (h : isGated m l = false) (resource : String) (manualGit : Bool) :
    startsJob resource l.isUpdate m.isVersioned manualGit
      = !(decide (resource = gitName) && manualGit) := by
  cases hupdate : l.isUpdate with
  | true => simp [startsJob, Bool.not_and]
  | false =>
      have hversioned : m.isVersioned = false := by simpa [isGated, hupdate] using h
      rw [hversioned]
      by_cases hversion : resource = versionName
      · have hdistinct : versionName ≠ gitName := by decide
        simp [startsJob, hversion, hdistinct]
      · by_cases hgit : resource = gitName
        · have hdistinct : gitName ≠ versionName := by decide
          simp [startsJob, hgit, hdistinct]
        · simp [startsJob, hversion, hgit]

end Flags

section Gets

variable {m : Manifest} {resources : ResourceSet} {l : Leaf} {passed : List String} {g : Get}

theorem passed_of_mem_leafGets (hg : g ∈ leafGets m resources l passed) : g.passed = passed := by
  obtain ⟨g', -, rfl⟩ := List.mem_map.1 hg
  rfl

theorem trigger_of_mem_leafGets (hg : g ∈ leafGets m resources l passed) :
    g.trigger = (!l.attributes.manualTrigger
      && startsJob g.resource l.isUpdate m.isVersioned m.gitIsManual) := by
  obtain ⟨g', -, rfl⟩ := List.mem_map.1 hg
  rfl

end Gets

/-! ## Triggers and their resources -/

section Triggers

variable {c : Config} {m : Manifest} {l : Leaf}

/-- The resource of the repository, and of no other trigger, is named for it. -/
theorem resource_eq_git_iff (h : m.Renderable) {t : Trigger} {i : Nat} {name : String}
    (ht : m.triggers[i]? = some t) (hname : (ResourceSet.ofManifest c m).trigger? i = some name) :
    name = gitName ↔ ∃ git, t = .git git := by
  constructor
  · rintro rfl
    obtain ⟨git, hgit⟩ := h.exists_git
    obtain ⟨k, hk⟩ := List.mem_iff_getElem?.1 hgit
    -- triggers with one resource are one trigger, and the repository has this resource
    have hi := (ResourceSet.ofManifest_coherent c m).trigger?_inj hname
      (ResourceSet.trigger?_git c h hk)
    subst hi
    exact ⟨git, Option.some.inj (ht.symm.trans hk)⟩
  · rintro ⟨git, rfl⟩
    exact Option.some.inj (hname.symm.trans (ResourceSet.trigger?_git c h ht))

/-- A job that does not wait for the version fetches something for every trigger. -/
theorem fetchedTriggers_ungated (hgated : isGated m l = false) :
    fetchedTriggers m l = m.triggers.zipIdx :=
  List.filter_eq_self.2 fun e _ => by rw [hgated, Bool.not_false, Bool.or_true]

/-- A job that waits for the version fetches something for the repository alone. -/
theorem fetchedTriggers_gated (h : m.Renderable) (hgated : isGated m l = true) :
    ∃ git i, fetchedTriggers m l = [(.git git, i)] ∧ m.triggers[i]? = some (.git git) := by
  have hlength : (fetchedTriggers m l).length = 1 := by
    have hkind : (fun e : Trigger × Nat => e.1.git?.isSome || !isGated m l)
        = (fun t : Trigger => decide (t.kind = "git")) ∘ Prod.fst := by
      funext ⟨t, i⟩
      rw [hgated]
      cases t <;> rfl
    rw [fetchedTriggers, hkind, ← h.git, Manifest.triggerCount]
    conv_rhs => rw [← List.zipIdx_map_fst 0 m.triggers, List.filter_map, List.length_map]
  obtain ⟨⟨t, i⟩, he⟩ := List.length_eq_one_iff.1 hlength
  have hmem : (t, i) ∈ fetchedTriggers m l := he ▸ List.mem_singleton_self _
  obtain ⟨hmem, hgit⟩ := List.mem_filter.1 hmem
  cases t with
  | git git => exact ⟨git, i, he, List.mk_mem_zipIdx_iff_getElem?.1 hmem⟩
  | _ => simp [hgated, Trigger.git?] at hgit

/-- A job that waits for the version fetches the repository and the version. -/
theorem resource_leafGets_gated (h : m.Renderable) (hgated : isGated m l = true) (passed : List String) :
    (leafGets m (ResourceSet.ofManifest c m) l passed).map Get.resource = [gitName, versionName] := by
  obtain ⟨git, i, hfetched, hi⟩ := fetchedTriggers_gated h hgated
  rw [resource_leafGets, hfetched, if_pos hgated, List.map_singleton, ResourceSet.trigger?_git c h hi]
  rfl

/-- A job that does not fetches the resources of the triggers. -/
theorem leafGets_ungated (h : m.Renderable) (hgated : isGated m l = false) (passed : List String) :
    List.Forall₂ (fun t g => (ResourceSet.ofManifest c m).trigger? t.2 = some g.resource
        ∧ (triggerResource t.1).renamed g.resource ∈ (ResourceSet.ofManifest c m).resources)
      m.triggers.zipIdx (leafGets m (ResourceSet.ofManifest c m) l passed) := by
  obtain ⟨-, hall⟩ := resources_of_fetchedTriggers (ResourceSet.ofManifest_coherent c m)
    (ResourceSet.ofManifest_provides h) l
  have hresources := resource_leafGets m (ResourceSet.ofManifest c m) l passed
  rw [hgated, if_neg Bool.false_ne_true, List.append_nil] at hresources
  rwa [← hresources, fetchedTriggers_ungated hgated, List.forall₂_map_right_iff] at hall

end Triggers

/-! ## The pipeline of an accepted manifest -/

section Fetches

variable {c : Config} {m : Manifest} {p : Pipeline} {e : TaskPath × Leaf} {j : Job}

/-- A trigger starts the job of a leaf that does not wait for the version, unless it is a manual
repository. -/
theorem trigger_ungated (h : m.Renderable) {l : Leaf} (hgated : isGated m l = false)
    {passed : List String} {g : Get} (hg : g ∈ leafGets m (ResourceSet.ofManifest c m) l passed)
    {t : Trigger} (ht : t ∈ m.triggers) (hgit : g.resource = gitName ↔ ∃ git, t = .git git) :
    g.trigger = true ↔ l.attributes.manualTrigger = false
      ∧ ¬ ∃ git, t = .git git ∧ git.manualTrigger = true := by
  have hmanual : (g.resource = gitName ∧ m.gitIsManual = true)
      ↔ ∃ git, t = .git git ∧ git.manualTrigger = true := by
    constructor
    · rintro ⟨hname, hmanual⟩
      obtain ⟨git, rfl⟩ := hgit.1 hname
      rw [h.gitIsManual_eq ht] at hmanual
      exact ⟨git, rfl, hmanual⟩
    · rintro ⟨git, rfl, hmanual⟩
      rw [h.gitIsManual_eq ht]
      exact ⟨hgit.2 ⟨git, rfl⟩, hmanual⟩
  rw [trigger_of_mem_leafGets hg, startsJob_ungated hgated, ← hmanual]
  simp only [Bool.and_eq_true, Bool.not_eq_true', Bool.and_eq_false_iff, decide_eq_false_iff_not,
    not_and_or, Bool.not_eq_true]

/-- The job of a leaf of a manifest that can be rendered fetches what its pipeline is for. -/
theorem fetches_of_realises (h : m.Renderable)
    (hresources : p.resources = (ResourceSet.ofManifest c m).resources)
    (hj : Realises c m (ResourceSet.ofManifest c m) e j) : j.Fetches c m p e := by
  have hfetched : j.fetched = leafGets m (ResourceSet.ofManifest c m) e.2 (jobPassed m e) :=
    hj.refers.gets
  refine ⟨fun hversioned => ?gated, fun hversioned => ?ungated, fun g hg => ?passed⟩
  case gated =>
    have hgated := isGated_iff.2 hversioned
    refine ⟨by rw [hfetched, resource_leafGets_gated h hgated], fun g hg => ?_⟩
    rw [hfetched] at hg
    rw [trigger_of_mem_leafGets hg, startsJob_gated hgated, Bool.and_eq_true, Bool.not_eq_true',
      decide_eq_true_iff]
  case ungated =>
    have hgated := isGated_eq_false hversioned
    rw [hfetched]
    refine forall₂_imp_mem (leafGets_ungated h hgated (jobPassed m e)) fun t ht g hg ⟨hname, hr⟩ => ?_
    have hi := List.mem_zipIdx_iff_getElem?.1 ht
    have hgit := resource_eq_git_iff h hi hname
    refine ⟨hname, hresources ▸ hr, hgit, ?_⟩
    exact trigger_ungated h hgated hg (List.mem_of_getElem? hi) hgit
  case passed =>
    rw [hfetched] at hg
    exact passed_of_mem_leafGets hg

end Fetches

/-- In the pipeline of a manifest without lint errors, its defaults filled in, the job of every leaf
fetches the repository and the version if it waits for the version, and otherwise the resource of every
trigger, and is started by what it fetches as `Job.Fetches` says. -/
theorem fetches_of_accepted (c : Config) (s : Surroundings) (m : Manifest)
    (h : Lint.hasErrors (Lint.run c s m) = false) :
    ∃ p, render c m.withDefaults = .ok p
      ∧ List.Forall₂ (Job.Fetches c m.withDefaults p) (Task.leaves m.withDefaults.tasks) p.jobs := by
  have hrenderable := (Lint.renderable_of_accepted h).withDefaults
  obtain ⟨js, hrender, hjobs⟩ := render_eq_ok c hrenderable
  exact ⟨_, hrender, hjobs.imp fun e j hj => fetches_of_realises hrenderable rfl hj⟩

theorem sample_fetches :
    Lint.hasErrors (Lint.run {} Lint.sampleSurroundings Lint.sampleManifest) = false
      ∧ ∃ p, render {} Lint.sampleManifest.withDefaults = .ok p
        ∧ List.Forall₂ (Job.Fetches {} Lint.sampleManifest.withDefaults p)
          (Task.leaves Lint.sampleManifest.withDefaults.tasks) p.jobs :=
  ⟨Lint.sample_accepted, fetches_of_accepted {} _ _ Lint.sample_accepted⟩

end PipelineCompiler.Concourse

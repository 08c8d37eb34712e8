import PipelineCompiler.Proofs.Concourse.Jobs
import PipelineCompiler.Proofs.Lint.Accepted

/-!
# References in a Concourse pipeline

Jobs refer to resources by name, resources to their types. `Closed` says of a pipeline that all of these
lead somewhere, and to the right place for triggers and deployment targets. The pipeline of an accepted
manifest is closed: what its jobs refer to is declared if the manifest calls for it
(`ResourceSet.Provides`), and a job pushes and fetches only what its leaf calls for (`JobOf`).
-/

namespace PipelineCompiler.Concourse

/-! ## Closed pipelines -/

/-- The resource that a step fetches or pushes to. -/
def Step.resource? (s : Step) : Option String :=
  match s with
  | .get g _ => some g.resource
  | .put q _ => some q.resource
  | _ => none

/-- Every step of a job, those that follow the plan and those inside of others included. -/
def Job.allSteps (j : Job) : List Step := Step.allOf (j.plan ++ j.hooks)

/-- The triggers, with their indices, that the job of a leaf fetches something for: the repository, and
the others unless the job waits for the version. -/
def fetchedTriggers (m : Manifest) (l : Leaf) : List (Trigger × Nat) :=
  m.triggers.zipIdx.filter fun e => e.1.git?.isSome || !isGated m l

/-- The stages of deployments, by the names of their steps. -/
def stagePrefix : String := "halfpipe-"

/-- The references in a pipeline of a manifest lead to what they stand for. -/
structure Pipeline.Closed (c : Config) (m : Manifest) (p : Pipeline) : Prop where
  /-- Building the jobs declares nothing. -/
  declared : p.resources = (ResourceSet.ofManifest c m).resources
    ∧ p.types = (ResourceSet.ofManifest c m).types
  distinct : (p.resources.map Resource.name).Nodup
  typed : ∀ r ∈ p.resources,
    r.kind ∈ ["git", "docker-image", "semver"] ∨ (p.types.filter fun t => t.name = r.kind).length = 1
  resolved : ∀ j ∈ p.jobs, ∀ s ∈ j.allSteps, ∀ name, s.resource? = some name →
    ∃ r ∈ p.resources, r.name = name
  /-- The job of a leaf fetches, in the order of the triggers, the resources that are built from them,
  and then the version if it waits for it. -/
  fetched : List.Forall₂ (fun e j => ∃ names,
      (j.allSteps.filterMap Step.get?).map Get.resource
        = names ++ (if isGated m e.2 then [versionName] else [])
      ∧ names.Nodup
      ∧ List.Forall₂ (fun t name => (ResourceSet.ofManifest c m).trigger? t.2 = some name
          ∧ (triggerResource t.1).renamed name ∈ p.resources) (fetchedTriggers m e.2) names)
    (Task.leaves m.tasks) p.jobs
  /-- The stages of a deployment push to its own target. -/
  targeted : List.Forall₂ (fun e j => ∀ q ∈ j.allSteps.filterMap Step.put?,
      Text.startsWith q.name stagePrefix = true → ∃ d prePromote, e.2.action = .deployCf d prePromote
        ∧ ∃ r ∈ p.resources, r.name = q.resource ∧ r.kind = "cf-resource"
          ∧ r.source = .ofTexts [("api", d.api), ("org", d.org), ("space", d.space),
              ("username", d.username), ("password", d.password)])
    (Task.leaves m.tasks) p.jobs

/-! ## What the jobs refer to -/

namespace ResourceSet

variable {m : Manifest} {s : ResourceSet} {l : Leaf}

/-- A job pushes to resources that are declared. -/
theorem Provides.declares_of_pushes (h : s.Provides m) (hadmits : m.Admits l)
    (hl : l ∈ Task.flatten m.tasks) {q : Put} (hq : Pushes s l q) : s.Declares q.resource := by
  cases hq with
  | artifacts params hsaves => exact h.saved (Task.anySavesArtifacts_iff.2 ⟨l, hl, hsaves⟩)
  | artifactsOnFailure params hsaves =>
      exact h.savedOnFailure (Task.anySavesArtifactsOnFailure_iff.2 ⟨l, hl, hsaves⟩)
  | message params huses => exact h.messages (Task.anyUsesNotifications_iff.2 ⟨l, hl, huses⟩)
  | version params hupdate =>
      refine h.version ?_
      unfold Manifest.Admits at hadmits
      cases haction : l.action with
      | update u => rwa [haction] at hadmits
      | _ => simp [LeafOf.isUpdate, haction] at hupdate
  | tag params hupdate => exact h.git
  | stage stage params d prePromote r haction hr =>
      exact ⟨r, List.mem_of_find?_eq_some hr, rfl⟩

/-- The names of the resources that jobs push to apart from deployment targets. -/
def fixedNames : List String := [savedName, savedOnFailureName, slackName, versionName, gitName]

theorem stage_of_fixedNames {name : String} (h : name ∈ fixedNames) :
    Text.startsWith name stagePrefix = false := by
  revert name
  decide

/-- A step that is named like a stage of a deployment pushes to the target of the deployment. -/
theorem target_of_pushes {q : Put} (hq : Pushes s l q)
    (hstage : Text.startsWith q.name stagePrefix = true) :
    ∃ d prePromote r, l.action = .deployCf d prePromote ∧ s.deploy? d = some r ∧ r.name = q.resource := by
  cases hq with
  | stage stage params d prePromote r haction hr => exact ⟨d, prePromote, r, haction, hr, rfl⟩
  | _ =>
      rw [stage_of_fixedNames (by simp [fixedNames])] at hstage
      exact absurd hstage Bool.false_ne_true

end ResourceSet

/-! ## What the jobs fetch -/

/-- What is fetched for triggers are their resources. -/
theorem resource_triggerGet? (resources : ResourceSet) (gated : Bool) (es : List (Trigger × Nat)) :
    (es.filterMap (triggerGet? resources gated)).map Get.resource
      = (es.filter fun e => e.1.git?.isSome || !gated).map fun e =>
          (resources.trigger? e.2).getD e.1.name := by
  induction es with
  | nil => rfl
  | cons e es ih =>
      obtain ⟨t, i⟩ := e
      rw [List.filterMap_cons, List.filter_cons]
      cases t <;> cases gated <;> simp_all [triggerGet?, Trigger.git?]

/-- A job fetches the resources of triggers, and the version if it waits for it. -/
theorem resource_leafGets (m : Manifest) (resources : ResourceSet) (l : Leaf) (passed : List String) :
    (leafGets m resources l passed).map Get.resource
      = ((fetchedTriggers m l).map fun e => (resources.trigger? e.2).getD e.1.name)
        ++ (if isGated m l then [versionName] else []) := by
  have hannotate : (leafGets m resources l passed).map Get.resource
      = (m.triggers.zipIdx.filterMap (triggerGet? resources (isGated m l))
          ++ (if isGated m l then [({ resource := versionName } : Get)] else [])).map Get.resource := by
    rw [leafGets, List.map_map]
    rfl
  rw [hannotate, List.map_append, resource_triggerGet?, fetchedTriggers]
  split <;> rfl

/-- Two triggers do not have one resource. -/
theorem ResourceSet.Coherent.trigger?_inj {ts : List Trigger} {s : ResourceSet} (hs : s.Coherent ts)
    {i j : Nat} {name : String} (hi : s.trigger? i = some name) (hj : s.trigger? j = some name) :
    i = j := by
  have hentry {k : Nat} (h : s.trigger? k = some name) : (k, name) ∈ s.triggers := by
    obtain ⟨e, he, hname⟩ := Option.map_eq_some_iff.1 h
    have hk : e.1 = k := by simpa using List.find?_some he
    rw [← hk, ← hname]
    exact List.mem_of_find?_eq_some he
  exact congrArg Prod.fst (List.inj_on_of_nodup_map hs.owners (hentry hi) (hentry hj) rfl)

/-- Different triggers are fetched from different resources, each built from its trigger. -/
theorem resources_of_fetchedTriggers {m : Manifest} {s : ResourceSet} (hcoherent : s.Coherent m.triggers)
    (hprovides : s.Provides m) (l : Leaf) :
    ((fetchedTriggers m l).map fun e => (s.trigger? e.2).getD e.1.name).Nodup
      ∧ List.Forall₂ (fun t name => s.trigger? t.2 = some name
          ∧ (triggerResource t.1).renamed name ∈ s.resources) (fetchedTriggers m l)
        ((fetchedTriggers m l).map fun e => (s.trigger? e.2).getD e.1.name) := by
  have hsome : ∀ e ∈ fetchedTriggers m l, s.trigger? e.2 = some ((s.trigger? e.2).getD e.1.name)
      ∧ (triggerResource e.1).renamed ((s.trigger? e.2).getD e.1.name) ∈ s.resources := by
    intro e he
    have ht := List.mem_zipIdx_iff_getElem?.1 (List.mem_of_mem_filter he)
    obtain ⟨name, hname, hr⟩ := hprovides.triggers e.1 e.2 ht
    rw [hname]
    exact ⟨rfl, hr⟩
  constructor
  · have hnodup : (fetchedTriggers m l).Nodup := by
      refine List.Nodup.filter _ (List.Nodup.of_map Prod.snd ?_)
      rw [List.zipIdx_map_snd]
      exact List.nodup_range'
    refine List.Nodup.map_on (fun e he e' he' heq => ?_) hnodup
    obtain ⟨t, i⟩ := e
    obtain ⟨t', i'⟩ := e'
    have hi := (hsome _ he).1
    rw [heq] at hi
    obtain rfl : i = i' := hcoherent.trigger?_inj hi (hsome _ he').1
    have ht := List.mk_mem_zipIdx_iff_getElem?.1 (List.mem_of_mem_filter he)
    have ht' := List.mk_mem_zipIdx_iff_getElem?.1 (List.mem_of_mem_filter he')
    rw [Option.some.inj (ht.symm.trans ht')]
  · rw [List.forall₂_map_right_iff, List.forall₂_same]
    exact hsome

/-! ## The pipeline of an accepted manifest -/

section Closed

variable {c : Config} {m : Manifest} {e : TaskPath × Leaf} {j : Job}

/-- What a job fetches is declared. -/
theorem declares_of_get (h : m.Renderable) (hj : Realises c m (ResourceSet.ofManifest c m) e j)
    {g : Get} (hg : g ∈ j.allSteps.filterMap Step.get?) :
    (ResourceSet.ofManifest c m).Declares g.resource := by
  have hprovides := ResourceSet.ofManifest_provides (c := c) h
  have hcoherent := ResourceSet.ofManifest_coherent c m
  have hmem : g.resource ∈ (leafGets m (ResourceSet.ofManifest c m) e.2 (jobPassed m e)).map
      Get.resource := by
    rw [← hj.refers.gets]
    exact List.mem_map_of_mem hg
  rw [resource_leafGets] at hmem
  rcases List.mem_append.1 hmem with hmem | hmem
  · obtain ⟨-, hall⟩ := resources_of_fetchedTriggers hcoherent hprovides e.2
    obtain ⟨t, -, -, hr⟩ := exists_of_mem_right hall hmem
    exact ⟨_, hr, rfl⟩
  · split at hmem
    · next hgated =>
        rw [List.mem_singleton.1 hmem]
        exact hprovides.version (Bool.and_eq_true_iff.1 hgated).2
    · simp at hmem

/-- What a step of a job refers to is declared. -/
theorem declares_of_step (h : m.Renderable) (he : e ∈ Task.leaves m.tasks)
    (hj : Realises c m (ResourceSet.ofManifest c m) e j) {s : Step} (hs : s ∈ j.allSteps)
    {name : String} (hname : s.resource? = some name) :
    (ResourceSet.ofManifest c m).Declares name := by
  have hl : e.2 ∈ Task.flatten m.tasks := List.mem_map_of_mem he
  cases s with
  | get g limits =>
      rw [← Option.some.inj hname]
      exact declares_of_get h hj (List.mem_filterMap.2 ⟨_, hs, rfl⟩)
  | put q limits =>
      rw [← Option.some.inj hname]
      exact (ResourceSet.ofManifest_provides h).declares_of_pushes (h.leaves e.2 hl) hl
        (hj.refers.puts q (List.mem_filterMap.2 ⟨_, hs, rfl⟩))
  | task t limits => simp [Step.resource?] at hname
  | parallel steps limits => simp [Step.resource?] at hname

/-- The pipeline of a manifest that can be rendered is closed. -/
theorem closed_of_renderable (h : m.Renderable) : ∃ p, render c m = .ok p ∧ p.Closed c m := by
  obtain ⟨js, hrender, hjobs⟩ := render_eq_ok c h
  have hcoherent := ResourceSet.ofManifest_coherent c m
  have hprovides := ResourceSet.ofManifest_provides (c := c) h
  refine ⟨_, hrender, ⟨rfl, rfl⟩, hcoherent.names, fun r hr => ?typed,
    fun j hj s hs name hname => ?resolved, hjobs.imp fun e j hj => ?fetched,
    hjobs.imp fun e j hj q hq hstage => ?targeted⟩
  case typed =>
    refine (hcoherent.kinds r hr).imp id fun hkind => ?_
    have hcount := List.count_eq_one_of_mem hcoherent.types hkind
    rw [List.count, List.countP_map, List.countP_eq_length_filter] at hcount
    exact hcount
  case resolved =>
    obtain ⟨e, he, hrealises⟩ := exists_of_mem_right hjobs hj
    exact declares_of_step h he hrealises hs hname
  case fetched =>
    obtain ⟨hnodup, hall⟩ := resources_of_fetchedTriggers hcoherent hprovides e.2
    refine ⟨_, ?_, hnodup, hall⟩
    rw [← resource_leafGets m _ e.2 (jobPassed m e), ← hj.refers.gets]
    rfl
  case targeted =>
    obtain ⟨d, prePromote, r, haction, hr, hname⟩ :=
      ResourceSet.target_of_pushes (hj.refers.puts q hq) hstage
    have hmatch := List.find?_some hr
    rw [Bool.and_eq_true_iff, decide_eq_true_iff, decide_eq_true_iff] at hmatch
    exact ⟨d, prePromote, haction, r, List.mem_of_find?_eq_some hr, hname, hmatch.1, hmatch.2⟩

end Closed

/-- The pipeline of a manifest without lint errors, its defaults filled in, is closed. -/
theorem closed_of_accepted (c : Config) (s : Surroundings) (m : Manifest)
    (h : Lint.hasErrors (Lint.run c s m) = false) :
    ∃ p, render c m.withDefaults = .ok p ∧ p.Closed c m.withDefaults :=
  closed_of_renderable (Lint.renderable_of_accepted h).withDefaults

theorem sample_closed :
    Lint.hasErrors (Lint.run {} Lint.sampleSurroundings Lint.sampleManifest) = false
      ∧ ∃ p, render {} Lint.sampleManifest.withDefaults = .ok p
        ∧ p.Closed {} Lint.sampleManifest.withDefaults :=
  ⟨Lint.sample_accepted, closed_of_accepted {} _ _ Lint.sample_accepted⟩

end PipelineCompiler.Concourse

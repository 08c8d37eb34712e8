import PipelineCompiler.Proofs.Concourse.Plans
import PipelineCompiler.Proofs.Lint.Limits
import PipelineCompiler.Proofs.Script.Lowering

/-!
# Time limits

Steps are made without limits and are put under some one by one, or as a group, or one by one before they
are grouped. `Step.Limited` says of a step that this was forgotten nowhere: whatever it fetches, pushes or
runs is given up after a time, and none of its limits is one that cannot be read. The limits of a job are
those of transfers, and those of its leaf and of what checks it.
-/

namespace PipelineCompiler.Concourse

open Lint (Bounded)

/-! ## Limits of steps -/

/-- A timeout can be read, and a step that may be tried again is tried between two and six times. -/
structure Limits.Sound (limits : Limits) : Prop where
  timeout : ∀ t, limits.timeout = some t → (Duration.parse? t).isSome = true
  attempts : ∀ n, limits.attempts = some n → 2 ≤ n ∧ n ≤ 6

theorem Limits.sound_empty : Limits.Sound {} := ⟨nofun, nofun⟩

namespace Step

/-- The step has a timeout, or it is a group of steps that are all covered by one. -/
inductive Timed : Step → Prop where
  | own (s : Step) (h : s.limits.timeout.isSome = true) : Timed s
  | inside (steps : List Step) (limits : Limits) (h : ∀ s ∈ steps, Timed s) :
      Timed (.parallel steps limits)

/-- The limits of the step and of the steps inside of it are sound. -/
def Sound (s : Step) : Prop := ∀ t ∈ s.all, t.limits.Sound

/-- Everything in the step is covered by a timeout, and all limits are sound. -/
structure Limited (s : Step) : Prop where
  timed : s.Timed
  sound : s.Sound

variable {s : Step} {steps : List Step} {limits : Limits}

theorem sound_get {g : Get} : (Step.get g {}).Sound :=
  List.forall_mem_singleton.2 Limits.sound_empty

theorem sound_put {p : Put} : (Step.put p {}).Sound :=
  List.forall_mem_singleton.2 Limits.sound_empty

theorem sound_task {t : TaskStep} : (Step.task t {}).Sound :=
  List.forall_mem_singleton.2 Limits.sound_empty

theorem sound_parallel (hlimits : limits.Sound) (h : ∀ s ∈ steps, s.Sound) :
    (Step.parallel steps limits).Sound := by
  intro t ht
  rw [all, List.mem_cons] at ht
  rcases ht with rfl | ht
  · exact hlimits
  · rw [allOf_eq_flatMap, List.mem_flatMap] at ht
    obtain ⟨s, hs, ht⟩ := ht
    exact h s hs t ht

theorem Sound.withLimits (h : s.Sound) (hlimits : limits.Sound) : (s.withLimits limits).Sound := by
  cases s with
  | parallel steps l =>
      refine sound_parallel hlimits fun s hs t ht => h t ?_
      rw [all, List.mem_cons, allOf_eq_flatMap]
      exact .inr (List.mem_flatMap.2 ⟨s, hs, ht⟩)
  | get g l => exact List.forall_mem_singleton.2 hlimits
  | put p l => exact List.forall_mem_singleton.2 hlimits
  | task t l => exact List.forall_mem_singleton.2 hlimits

/-- A step that is put under limits is limited, whether it was before or not. -/
theorem Sound.within (h : s.Sound) {attempts : Nat} {timeout : String} (hattempts : attempts ≤ 6)
    (htimeout : (Duration.parse? timeout).isSome = true) : (s.within attempts timeout).Limited := by
  have hlimits : (Limits.mk (if attempts > 1 then some attempts else none) (some timeout)).Sound := by
    refine ⟨fun t ht => ?_, fun n hn => ?_⟩
    · rwa [← Option.some.inj ht]
    · by_cases hmany : attempts > 1
      · rw [if_pos hmany] at hn
        obtain rfl := Option.some.inj hn
        exact ⟨hmany, hattempts⟩
      · rw [if_neg hmany] at hn
        exact absurd hn nofun
  refine ⟨.own _ ?_, h.withLimits hlimits⟩
  cases s <;> rfl

theorem Sound.asTransfer (h : s.Sound) : s.asTransfer.Limited := by
  have htimeout : (Duration.parse? transferTimeout).isSome = true := by decide +kernel
  exact h.within (by decide) htimeout

/-- A property of groups without limits whose steps have it, and of a single step that has it, is one of
steps that are run together. -/
theorem forall_together? {P : Step → Prop}
    (hgroup : ∀ steps, (∀ s ∈ steps, P s) → P (.parallel steps {})) (h : ∀ s ∈ steps, P s) :
    ∀ s ∈ (together? steps).toList, P s := by
  match steps with
  | [] => exact List.forall_mem_nil _
  | [s] => exact h
  | s :: t :: rest => exact List.forall_mem_singleton.2 (hgroup _ h)

theorem sound_together? (h : ∀ s ∈ steps, s.Sound) : ∀ s ∈ (together? steps).toList, s.Sound :=
  forall_together? (fun _ => sound_parallel Limits.sound_empty) h

theorem limited_together? (h : ∀ s ∈ steps, s.Limited) : ∀ s ∈ (together? steps).toList, s.Limited :=
  forall_together? (fun steps h => ⟨.inside steps {} fun s hs => (h s hs).timed,
    sound_parallel Limits.sound_empty fun s hs => (h s hs).sound⟩) h

theorem Sound.forLeaf {l : Leaf} (h : s.Sound) (hl : Bounded l) : (s.forLeaf l).Limited :=
  h.within hl.attempts hl.timeout

/-- Steps that are run together and then put under the limits of transfers. -/
theorem limited_transfer (h : ∀ s ∈ steps, s.Sound) :
    ∀ s ∈ ((together? steps).map asTransfer).toList, s.Limited := by
  intro s hs
  obtain ⟨t, ht, rfl⟩ := Option.map_eq_some_iff.1 (Option.mem_toList.1 hs)
  exact (sound_together? h t (Option.mem_toList.2 ht)).asTransfer

end Step

/-! ## Jobs -/

section Jobs

variable {c : Config} {m : Manifest} {resources : ResourceSet} {l : Leaf} {j : Job}

/-- A script runs within the limits of its leaf, and what it saved is uploaded within those of
transfers. -/
theorem limited_script {s : Script} (hs : Script.ofLeaf? c m l = some s) (h : Bounded l) :
    ∀ step ∈ ScriptStep.steps m s, step.Limited := by
  obtain ⟨htimeout, hattempts⟩ := Script.limits_ofLeaf? hs
  have hbounded : Bounded s.leaf := ⟨htimeout ▸ h.timeout, hattempts ▸ h.attempts⟩
  rw [ScriptStep.steps]
  refine List.forall_mem_cons.2 ⟨Step.sound_task.forLeaf hbounded, ?_⟩
  split
  · exact List.forall_mem_singleton.2 Step.sound_put.asTransfer
  · exact List.forall_mem_nil _

/-- Whatever a job does for its leaf is limited, and so is what follows in any case. -/
theorem limited_work {steps : List Step} {ensure : Option Step} (hwork : Work c m resources l steps ensure)
    (h : ∀ runner ∈ l :: Script.checksOf l, Bounded runner) :
    ∀ step ∈ steps ++ ensure.toList, step.Limited := by
  obtain ⟨hleaf, hchecks⟩ := List.forall_mem_cons.1 h
  have hstage (r : Resource) (stage : CloudFoundry.Stage) (params : Settings) :
      (CloudFoundry.stageStep l r.name stage params).Limited :=
    Step.sound_put.forLeaf hleaf
  refine List.forall_mem_append.2 ?_
  cases hwork with
  | script s hs => exact ⟨limited_script hs hleaf, List.forall_mem_nil _⟩
  | imageBuild p haction =>
      refine ⟨fun step hstep => ?_, List.forall_mem_nil _⟩
      obtain ⟨t, -, rfl⟩ := List.mem_map.1 hstep
      exact Step.sound_task.forLeaf hleaf
  | rolling d prePromote r haction hr hrolling =>
      exact ⟨List.forall_mem_singleton.2 (hstage r _ _), List.forall_mem_nil _⟩
  | stages d prePromote r scripts haction hr hrolling hscripts =>
      refine ⟨?_, List.forall_mem_singleton.2 (hstage r _ _)⟩
      have hscript : ∀ step ∈ scripts.flatMap (ScriptStep.steps m), step.Limited := by
        intro step hstep
        obtain ⟨s, hs, hstep⟩ := List.mem_flatMap.1 hstep
        obtain ⟨check, hcheck, hs⟩ := exists_of_mem_right hscripts hs
        rw [← Script.checksOf_deployCf haction] at hcheck
        exact limited_script hs (hchecks check hcheck) step hstep
      rw [stageSteps, List.forall_mem_append, List.forall_mem_append]
      refine ⟨⟨List.forall_mem_singleton.2 (hstage r _ _), Step.limited_together? hscript⟩, ?_⟩
      exact List.forall_mem_cons.2 ⟨hstage r _ _, List.forall_mem_singleton.2 (hstage r _ _)⟩
  | katee d haction =>
      exact ⟨List.forall_mem_singleton.2 (Step.sound_task.forLeaf hleaf), List.forall_mem_nil _⟩
  | update u haction =>
      refine ⟨fun step hstep => ?_, List.forall_mem_nil _⟩
      obtain ⟨s, hs, rfl⟩ := List.mem_map.1 hstep
      refine Step.Sound.forLeaf ?_ hleaf
      rcases List.mem_append.1 hs with hs | hs
      · rcases List.mem_pair.1 hs with rfl | rfl
        · exact Step.sound_task
        · exact Step.sound_put
      · split at hs
        · obtain rfl := List.mem_singleton.1 hs
          exact Step.sound_put
        · exact absurd hs List.not_mem_nil

/-- What a job fetches and restores before it does anything else is limited. -/
theorem limited_initialPlan (passed : List String) :
    ∀ step ∈ initialPlan c m resources l passed, step.Limited := by
  rw [initialPlan_eq]
  refine List.forall_mem_append.2 ⟨Step.limited_transfer fun s hs => ?_, ?_⟩
  · obtain ⟨g, -, rfl⟩ := List.mem_map.1 hs
    exact Step.sound_get
  · split
    · exact List.forall_mem_singleton.2 Step.sound_task.asTransfer
    · exact List.forall_mem_nil _

theorem sound_messages (text status : String) (channels : List String) :
    ∀ s ∈ channels.map (messageStep text status), s.Sound := by
  intro s hs
  obtain ⟨channel, -, rfl⟩ := List.mem_map.1 hs
  exact Step.sound_put

theorem limited_onSuccess : ∀ step ∈ (onSuccess l).toList, step.Limited := by
  rw [onSuccess]
  split
  · exact Step.limited_transfer (sound_messages _ _ _)
  · exact List.forall_mem_nil _

theorem limited_onFailure : ∀ step ∈ (onFailure l).toList, step.Limited := by
  rw [onFailure]
  refine Step.limited_transfer (List.forall_mem_append.2 ⟨?_, ?_⟩)
  · split
    · exact List.forall_mem_singleton.2 Step.sound_put
    · exact List.forall_mem_nil _
  · split
    · exact sound_messages _ _ _
    · exact List.forall_mem_nil _

theorem limited_of_consists {passed : List String} {steps : List Step}
    (hj : Consists c m resources l passed j steps)
    (h : ∀ runner ∈ l :: Script.checksOf l, Bounded runner) :
    ∀ step ∈ j.plan ++ j.hooks, step.Limited := by
  obtain ⟨hsteps, hensure⟩ := List.forall_mem_append.1 (limited_work hj.work h)
  rw [Job.hooks, hj.plan, hj.onSuccess, hj.onFailure]
  simp only [List.forall_mem_append]
  exact ⟨⟨limited_initialPlan passed, hsteps⟩, ⟨limited_onSuccess, limited_onFailure⟩, hensure⟩

end Jobs

/-- In the pipeline of a manifest without lint errors, its defaults filled in, everything that a job
fetches, pushes or runs in its plan or behind it is covered by a timeout, every timeout can be read, and
whatever may be tried again is tried between two and six times. -/
theorem limited_of_accepted (c : Config) (s : Surroundings) (m : Manifest)
    (h : Lint.hasErrors (Lint.run c s m) = false) :
    ∃ p, render c m.withDefaults = .ok p
      ∧ ∀ j ∈ p.jobs, ∀ step ∈ j.plan ++ j.hooks, step.Limited := by
  have hrenderable := (Lint.renderable_of_accepted h).withDefaults
  obtain ⟨js, hrender, hjobs⟩ := render_eq_ok c hrenderable
  refine ⟨_, hrender, fun j hj => ?_⟩
  obtain ⟨e, he, hrealises⟩ := exists_of_mem_right hjobs hj
  obtain ⟨steps, hconsists⟩ := consists_of_renderable hrenderable he hrealises
  exact limited_of_consists hconsists (Lint.bounded_of_accepted h he)

/-- A pipeline that calls for most kinds of steps, and for as many attempts as there can be. -/
def retriedManifest : Manifest :=
  { Lint.sampleManifest with
    tasks := Lint.sampleManifest.tasks ++
      [.leaf
        { attributes := { name := "load", retries := 5, timeout := "1.5h", restoreArtifacts := true }
          action := .run { script := "./load", docker := { image := "alpine" } } }] }

theorem retriedManifest_limited :
    Lint.hasErrors (Lint.run {} Lint.sampleSurroundings retriedManifest) = false
      ∧ ∃ p, render {} retriedManifest.withDefaults = .ok p
        ∧ ∀ j ∈ p.jobs, ∀ step ∈ j.plan ++ j.hooks, step.Limited := by
  have haccepted : Lint.hasErrors (Lint.run {} Lint.sampleSurroundings retriedManifest) = false := by
    decide +kernel
  exact ⟨haccepted, limited_of_accepted {} _ _ haccepted⟩

end PipelineCompiler.Concourse

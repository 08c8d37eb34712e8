import PipelineCompiler.Proofs.Concourse.Jobs

/-!
# Plans

A plan begins with what is fetched and restored and goes on with what its leaf is for. `Work` lists what
that can be, with one constructor for each way in which the steps of a job are made, so that a property
of all jobs is proved once for the beginning and once for every constructor. Whether a step finds what it
needs depends on the steps before it: `Throughout` says this of every step of a list, and is taken apart
where lists are put together.
-/

namespace PipelineCompiler.Concourse

/-! ## Steps and what stands before them -/

namespace Step

/-- Every step of the list has a property, given the steps before it. -/
def Throughout (P : List Step → Step → Prop) (steps : List Step) : Prop :=
  ∀ before s after, steps = before ++ s :: after → P before s

variable {P : List Step → Step → Prop} {xs ys : List Step} {s : Step}

theorem throughout_nil : Throughout P [] := by
  intro before s after h
  simp at h

theorem throughout_append :
    Throughout P (xs ++ ys) ↔ Throughout P xs ∧ Throughout (fun before => P (xs ++ before)) ys := by
  constructor
  · intro h
    constructor
    · rintro before s after rfl
      exact h before s (after ++ ys) (by simp)
    · rintro before s after rfl
      exact h (xs ++ before) s after (by simp)
  · rintro ⟨hx, hy⟩ before s after h
    rcases List.append_eq_append_iff.1 h with ⟨rest, rfl, hys⟩ | ⟨rest, hxs, hrest⟩
    · exact hy rest s after hys
    · cases rest with
      | nil =>
          rw [List.append_nil] at hxs
          subst hxs
          have hlast : P (xs ++ []) s := hy [] s after hrest.symm
          rwa [List.append_nil] at hlast
      | cons s' rest =>
          obtain ⟨rfl, -⟩ := List.cons.inj hrest
          exact hx before s rest hxs

theorem throughout_singleton : Throughout P [s] ↔ P [] s := by
  constructor
  · intro h
    exact h [] s [] rfl
  · intro h before s' after hsplit
    rcases List.singleton_eq_append_iff.1 hsplit with ⟨rfl, hsplit⟩ | ⟨-, hsplit⟩
    · obtain ⟨rfl, -⟩ := List.cons.inj hsplit
      exact h
    · simp at hsplit

theorem throughout_cons :
    Throughout P (s :: ys) ↔ P [] s ∧ Throughout (fun before => P (s :: before)) ys := by
  rw [← List.singleton_append, throughout_append, throughout_singleton]
  rfl

/-- A step has a property whatever stands before it. -/
theorem throughout_of_forall (h : ∀ before, ∀ s ∈ xs, P before s) : Throughout P xs := by
  rintro before s after rfl
  exact h before s (List.mem_append_right _ List.mem_cons_self)

/-! ## Directories that containers leave -/

/-- What there is in a list of steps is in one of them. -/
theorem mem_collect {α : Type} {f : Step → Option α} {a : α} :
    a ∈ collect f xs ↔ ∃ s ∈ xs, a ∈ collect f [s] := by
  rw [collect_eq_flatMap, List.mem_flatMap]

/-- What there is in steps made for the items of a list was made for one of them. -/
theorem mem_collect_flatMap {α β : Type} {f : Step → Option α} {g : β → List Step} {bs : List β} {a : α} :
    a ∈ collect f (bs.flatMap g) ↔ ∃ b ∈ bs, a ∈ collect f (g b) := by
  rw [mem_collect]
  constructor
  · rintro ⟨s, hs, ha⟩
    obtain ⟨b, hb, hs⟩ := List.mem_flatMap.1 hs
    exact ⟨b, hb, mem_collect.2 ⟨s, hs, ha⟩⟩
  · rintro ⟨b, hb, ha⟩
    obtain ⟨s, hs, ha⟩ := mem_collect.1 ha
    exact ⟨s, List.mem_flatMap.2 ⟨b, hb, hs⟩, ha⟩

/-- Some container of the steps shares the directory with the steps after it. -/
def Outputs (steps : List Step) (dir : String) : Prop :=
  ∃ t ∈ collect task? steps, dir ∈ t.container.outputs

theorem outputs_append {dir : String} :
    Outputs (xs ++ ys) dir ↔ Outputs xs dir ∨ Outputs ys dir := by
  simp only [Outputs, collect_append, List.mem_append, or_and_right, exists_or]

theorem outputs_flatMap {α : Type} {f : α → List Step} {as : List α} {dir : String} :
    Outputs (as.flatMap f) dir ↔ ∃ a ∈ as, Outputs (f a) dir := by
  constructor
  · rintro ⟨t, ht, hdir⟩
    obtain ⟨a, ha, ht⟩ := mem_collect_flatMap.1 ht
    exact ⟨a, ha, t, ht, hdir⟩
  · rintro ⟨a, ha, t, ht, hdir⟩
    exact ⟨t, mem_collect_flatMap.2 ⟨a, ha, ht⟩, hdir⟩

/-- A container under limits. -/
theorem collect_task?_forLeaf (t : TaskStep) (limits : Limits) (l : Leaf) :
    collect task? [(Step.task t limits).forLeaf l] = [t] :=
  rfl

/-- Steps that only push run no containers. -/
theorem collect_task?_of_puts (h : ∀ s ∈ xs, ∃ q limits, s = .put q limits) : collect task? xs = [] := by
  rw [collect_eq_flatMap, List.flatMap_eq_nil_iff]
  intro s hs
  obtain ⟨q, limits, rfl⟩ := h s hs
  rfl

end Step

/-! ## What a leaf is for -/

section Work

variable (c : Config) (m : Manifest) (resources : ResourceSet) (l : Leaf)

/-- A stage of a deployment that is told no more than every stage is. -/
def shortStage (d : DeployCf) (r : Resource) (stage : CloudFoundry.Stage) : Step :=
  CloudFoundry.stageStep l r.name stage (CloudFoundry.params m l d stage)

/-- A stage of a deployment that pushes an application. -/
def longStage (d : DeployCf) (r : Resource) (stage : CloudFoundry.Stage) : Step :=
  CloudFoundry.stageStep l r.name stage (CloudFoundry.pushParams m l d stage)

/-- The steps of a deployment, with its checks running at the same time. -/
def stageSteps (d : DeployCf) (r : Resource) (checks : List Step) : List Step :=
  [longStage m l d r .push] ++ (Step.together? checks).toList
    ++ [shortStage m l d r .check, shortStage m l d r .promote]

/-- The steps that a job works through for its leaf, and the one that follows them whatever happens. -/
inductive Work : List Step → Option Step → Prop
  | script (s : Script) (hs : Script.ofLeaf? c m l = some s) : Work (ScriptStep.steps m s) none
  | imageBuild (p : DockerPush) (haction : l.action = .dockerPush p) :
      Work (ImageBuild.steps c m l p) none
  | rolling (d : DeployCf) (prePromote : List Task) (r : Resource)
      (haction : l.action = .deployCf d prePromote) (hr : resources.deploy? d = some r)
      (hrolling : d.rolling = true) : Work [longStage m l d r .rolling] none
  | stages (d : DeployCf) (prePromote : List Task) (r : Resource) (scripts : List Script)
      (haction : l.action = .deployCf d prePromote) (hr : resources.deploy? d = some r)
      (hrolling : d.rolling = false)
      (hscripts : List.Forall₂ (fun check s => Script.ofLeaf? c m check = some s)
        (Task.flatten prePromote) scripts) :
      Work (stageSteps m l d r (scripts.flatMap (ScriptStep.steps m)))
        (some (shortStage m l d r .cleanup))
  | katee (d : DeployKatee) (haction : l.action = .deployKatee d) : Work [kateeStep c m l d] none
  | update (u : Update) (haction : l.action = .update u) : Work (updateSteps c m l u) none

end Work

variable {c : Config} {m : Manifest} {resources : ResourceSet} {l : Leaf}

/-- The checks of a candidate are the scripts of the leaves that check it. -/
theorem checks_eq_ok_iff {prePromote : List Task} {scripts : List Script} :
    CloudFoundry.checks c m prePromote = .ok scripts
      ↔ List.Forall₂ (fun check s => Script.ofLeaf? c m check = some s) (Task.flatten prePromote)
          scripts := by
  rw [CloudFoundry.checks, mapM_eq_ok]
  constructor
  · intro h
    refine h.imp fun check s hs => ?_
    split at hs
    · next script hscript => rw [hscript, Except.ok.inj hs]
    · simp at hs
  · intro h
    refine h.imp fun check s hs => ?_
    rw [hs]

/-- A deployment is a single step, or goes through its stages with the checks among them. -/
theorem work_of_deployment {d : DeployCf} {prePromote : List Task} {r : Resource} {steps : List Step}
    {ensure : Option Step} (haction : l.action = .deployCf d prePromote)
    (hr : resources.deploy? d = some r)
    (h : CloudFoundry.steps c m l d prePromote r.name = .ok (steps, ensure)) :
    Work c m resources l steps ensure := by
  rw [CloudFoundry.steps] at h
  split at h
  · next hrolling =>
      obtain ⟨rfl, rfl⟩ := Prod.mk.inj (Except.ok.inj h)
      exact .rolling d prePromote r haction hr hrolling
  · next hrolling =>
      obtain ⟨scripts, hscripts, h⟩ := bind_eq_ok.1 h
      obtain ⟨rfl, rfl⟩ := Prod.mk.inj (Except.ok.inj h)
      exact .stages d prePromote r scripts haction hr (Bool.not_eq_true _ ▸ hrolling)
        (checks_eq_ok_iff.1 hscripts)

/-- What the job of a leaf does is one of the kinds of work. -/
theorem work_of_body {steps : List Step} {ensure : Option Step} {declared : ResourceSet}
    (hserves : resources.Serves l) (h : body c m resources l = .ok (steps, ensure, declared)) :
    Work c m resources l steps ensure := by
  by_cases hscript : l.action.isScript = true
  · obtain ⟨s, hs⟩ := Script.exists_ofLeaf? c m hscript
    rw [body_of_isScript hscript hs] at h
    obtain ⟨rfl, hrest⟩ := Prod.mk.inj (Except.ok.inj h)
    obtain ⟨rfl, -⟩ := Prod.mk.inj hrest
    exact .script s hs
  rw [body] at h
  cases haction : l.action with
  | dockerPush p =>
      simp only [haction, Except.ok.injEq, Prod.mk.injEq] at h
      obtain ⟨rfl, rfl, -⟩ := h
      exact .imageBuild p haction
  | deployCf d prePromote =>
      obtain ⟨r, hr⟩ := Option.isSome_iff_exists.1 (hserves d prePromote haction)
      simp only [haction, ResourceSet.addDeploy_of_deploy? hr] at h
      obtain ⟨⟨steps', ensure'⟩, hsteps, h⟩ := bind_eq_ok.1 h
      obtain ⟨rfl, hrest⟩ := Prod.mk.inj (Except.ok.inj h)
      obtain ⟨rfl, -⟩ := Prod.mk.inj hrest
      exact work_of_deployment haction hr hsteps
  | deployKatee d =>
      simp only [haction, Except.ok.injEq, Prod.mk.injEq] at h
      obtain ⟨rfl, rfl, -⟩ := h
      exact .katee d haction
  | update u =>
      simp only [haction, Except.ok.injEq, Prod.mk.injEq] at h
      obtain ⟨rfl, rfl, -⟩ := h
      exact .update u haction
  | _ => simp [haction, Action.isScript] at hscript

/-- The job of an update updates. -/
theorem Work.eq_updateSteps {steps : List Step} {ensure : Option Step}
    (h : Work c m resources l steps ensure) (hupdate : l.isUpdate = true) :
    ∃ u, steps = updateSteps c m l u := by
  cases h with
  | update u haction => exact ⟨u, rfl⟩
  | script s hs =>
      have hordinary := Script.isUpdate_of_isScript (Script.isScript_of_ofLeaf? hs)
      exact absurd (hordinary.symm.trans hupdate) Bool.false_ne_true
  | imageBuild p haction => simp [LeafOf.isUpdate, haction] at hupdate
  | rolling d prePromote r haction hr hrolling => simp [LeafOf.isUpdate, haction] at hupdate
  | stages d prePromote r scripts haction hr hrolling hscripts =>
      simp [LeafOf.isUpdate, haction] at hupdate
  | katee d haction => simp [LeafOf.isUpdate, haction] at hupdate

/-- The work for an image is to build it. -/
theorem Work.eq_imageBuild {steps : List Step} {ensure : Option Step} {p : DockerPush}
    (h : Work c m resources l steps ensure) (haction : l.action = .dockerPush p) :
    steps = ImageBuild.steps c m l p := by
  cases h with
  | imageBuild p' haction' =>
      obtain rfl := Action.dockerPush.inj (haction'.symm.trans haction)
      rfl
  | script s hs =>
      have hscript := Script.isScript_of_ofLeaf? hs
      simp [haction, Action.isScript] at hscript
  | rolling d prePromote r haction' hr hrolling => simp [haction'] at haction
  | stages d prePromote r scripts haction' hr hrolling hscripts => simp [haction'] at haction
  | katee d haction' => simp [haction'] at haction
  | update u haction' => simp [haction'] at haction

/-- A script runs one container. -/
theorem exists_scriptTask (m : Manifest) (s : Script) :
    ∃ t, Step.collect Step.task? (ScriptStep.steps m s) = [t]
      ∧ t.container = ScriptStep.container m s := by
  rw [ScriptStep.steps, ← List.singleton_append, Step.collect_append, Step.collect_task?_forLeaf]
  split
  · exact ⟨_, rfl, rfl⟩
  · exact ⟨_, rfl, rfl⟩

/-- The stages of a deployment run no containers other than the checks. -/
theorem tasks_stageSteps (m : Manifest) (l : Leaf) (d : DeployCf) (r : Resource) (checks : List Step) :
    Step.collect Step.task? (stageSteps m l d r checks) = Step.collect Step.task? checks := by
  rw [stageSteps, Step.collect_append, Step.collect_append, Step.collect_together Step.blind_task?]
  exact List.append_nil _

/-- An update runs one container, on the repository alone. -/
theorem exists_updateTask (c : Config) (m : Manifest) (l : Leaf) (u : Update) :
    ∃ t, Step.collect Step.task? (updateSteps c m l u) = [t] ∧ t.container.inputs = [gitDir]
      ∧ t.container.outputs = [] ∧ t.container.command.dir = some (workingDir m.basePath) := by
  obtain ⟨tagRepo⟩ := u
  cases tagRepo with
  | false => exact ⟨_, rfl, rfl, rfl, rfl⟩
  | true => exact ⟨_, rfl, rfl, rfl, rfl⟩

/-- An update pushes to the version, and to the repository if it tags it. -/
theorem puts_updateSteps (c : Config) (m : Manifest) (l : Leaf) (u : Update) :
    (Step.collect Step.put? (updateSteps c m l u)).map Put.resource
      = versionName :: (if u.tagRepo then [gitName] else []) := by
  obtain ⟨tagRepo⟩ := u
  cases tagRepo with
  | false => rfl
  | true => rfl

/-- What the job of a leaf consists of. -/
structure Consists (c : Config) (m : Manifest) (resources : ResourceSet) (l : Leaf)
    (passed : List String) (j : Job) (steps : List Step) : Prop where
  work : Work c m resources l steps j.ensure
  plan : j.plan = initialPlan c m resources l passed ++ steps
  onSuccess : j.onSuccess = onSuccess l
  onFailure : j.onFailure = onFailure l

/-- The plan of a job is its beginning and the work for its leaf. -/
theorem Realises.consists {e : TaskPath × Leaf} {j : Job} (hserves : resources.Serves e.2)
    (hj : Realises c m resources e j) :
    ∃ steps, Consists c m resources e.2 (jobPassed m e) j steps := by
  have hbuilt := hj.built
  rw [job] at hbuilt
  obtain ⟨⟨steps, ensure, declared⟩, hbody, h⟩ := bind_eq_ok.1 hbuilt
  obtain ⟨rfl, -⟩ := Prod.mk.inj (Except.ok.inj h)
  exact ⟨steps, work_of_body hserves hbody, rfl, rfl, rfl⟩

/-- Every leaf of a manifest that can be rendered has a job that consists of the beginning of its plan and
of its work. -/
theorem consists_of_renderable (h : m.Renderable) {e : TaskPath × Leaf} {j : Job}
    (he : e ∈ Task.leaves m.tasks) (hj : Realises c m (ResourceSet.ofManifest c m) e j) :
    ∃ steps, Consists c m (ResourceSet.ofManifest c m) e.2 (jobPassed m e) j steps :=
  hj.consists ((ResourceSet.ofManifest_provides h).targets e.2 (List.mem_map_of_mem he))

end PipelineCompiler.Concourse

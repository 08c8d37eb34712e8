import PipelineCompiler.Proofs.Actions.Jobs

/-!
# Actions that jobs use

Most steps of a job run a command or an image, or use one of a few actions that prepare the runner and
build images. Uploads and messages use actions of their own. `without_body` says that such an action is
not used by what a job does for its leaf, unless it is used to save artifacts.
-/

namespace PipelineCompiler.Actions

/-- The step uses the action, in whatever version. -/
def Step.Uses (s : Step) (action : String) : Prop := s.action?.map bareAction = some action

/-- No step uses the action. -/
def Without (action : String) (steps : List Step) : Prop := ∀ s ∈ steps, ¬ s.Uses action

/-- The actions that prepare the runner and build images. -/
def commonActions : List String :=
  ["actions/checkout", "actions/download-artifact", "docker/setup-buildx-action",
    "docker/login-action", "docker/build-push-action", "aquasecurity/trivy-action",
    "peter-evans/repository-dispatch"]

/-- The action is none of the common ones and no image. -/
structure IsSpecial (action : String) : Prop where
  uncommon : action ∉ commonActions
  noImage : action.toList.head? ≠ some 'd'

section Lists

variable {a : String} {xs ys : List Step} {s : Step}

theorem without_nil : Without a [] := nofun

theorem without_append : Without a (xs ++ ys) ↔ Without a xs ∧ Without a ys :=
  List.forall_mem_append

theorem without_cons : Without a (s :: xs) ↔ ¬ s.Uses a ∧ Without a xs :=
  List.forall_mem_cons

theorem without_singleton : Without a [s] ↔ ¬ s.Uses a :=
  List.forall_mem_singleton

theorem without_ite {p : Prop} [Decidable p] (hx : p → Without a xs) (hy : ¬ p → Without a ys) :
    Without a (if p then xs else ys) := by
  by_cases h : p
  · rw [if_pos h]
    exact hx h
  · rw [if_neg h]
    exact hy h

theorem uses_iff {action : String} (hwork : s.work = .uses action) : s.Uses a ↔ bareAction action = a := by
  rw [Step.Uses, Step.action?, hwork]
  exact Option.some_inj

/-- A step that runs a command uses no action. -/
theorem not_uses_of_run {command : String} {dir : Option String} (hwork : s.work = .run command dir) :
    ¬ s.Uses a := by
  rw [Step.Uses, Step.action?, hwork]
  exact nofun

end Lists

/-- Sending messages uses an action of its own. -/
theorem without_messageSteps {a : String} (h : a ≠ "yukin01/slack-bot-action") (l : Leaf) :
    Without a (messageSteps l) := by
  have hmessage {s : Step} (hwork : s.work = .uses "yukin01/slack-bot-action@v0.0.4") : ¬ s.Uses a := by
    rw [uses_iff hwork]
    rintro rfl
    exact h (by decide)
  rw [messageSteps]
  split
  · exact without_nil
  · refine without_append.2 ⟨fun s hs => ?_, fun s hs => ?_⟩
    · obtain ⟨channel, -, rfl⟩ := List.mem_map.1 hs
      exact hmessage rfl
    · obtain ⟨channel, -, rfl⟩ := List.mem_map.1 hs
      exact hmessage rfl

/-! ## Steps that work for a leaf -/

/-- Running a script uses the image of the script, or no action at all. -/
theorem work_scriptStep (basePath : String) (s : Script) :
    (∃ command dir, (scriptStep basePath s).work = .run command dir)
      ∨ (scriptStep basePath s).work = .uses (imageAction s.run.docker.image) := by
  by_cases hmachine : (s.privileged || s.run.docker.image.isEmpty) = true
  · refine .inl ⟨Script.command s.run.script, if basePath.isEmpty then none else some basePath, ?_⟩
    simp only [scriptStep, if_pos hmachine]
  · refine .inr ?_
    simp only [scriptStep, if_neg hmachine, shellStep, useStep]

/-- A deployment prepares the runner, goes through its stages and runs its checks, and does nothing
else. -/
theorem forall_deploymentSteps {P : Step → Prop} {c : Config} {m : Manifest} {l : Leaf} {d : DeployCf}
    {prePromote : List Task} {checks : List Step}
    (hchecks : List.Forall₂ (fun check step => ∃ s, Script.ofLeaf? c m check = some s
        ∧ step = { scriptStep m.basePath s with name := some check.name })
      (Task.flatten prePromote) checks)
    (hprepare : ∀ step ∈ prepareSteps m.basePath l, P step)
    (hstage : ∀ stage, P (CloudFoundry.stageStep c m l d stage))
    (hcheck : ∀ (s : Script) (name : String), P { scriptStep m.basePath s with name := some name }) :
    ∀ step ∈ deploymentSteps c m l d checks, P step := by
  have hsteps : ∀ step ∈ checks, P step := by
    intro step hstep
    obtain ⟨check, -, s, -, rfl⟩ := exists_of_mem_right hchecks hstep
    exact hcheck s check.name
  simp only [deploymentSteps, List.forall_mem_append, List.forall_mem_cons]
  have hnone : ∀ step ∈ [], P step := List.forall_mem_nil P
  exact ⟨⟨⟨hprepare, hstage _, hnone⟩, hsteps⟩, hstage _, hstage _, hstage _, hnone⟩

/-! ## Steps without special actions -/

section Special

variable {a : String} (ha : IsSpecial a) {s : Step} {basePath : String}
include ha

theorem not_uses_of_common {action : String} (hwork : s.work = .uses action)
    (h : bareAction action ∈ commonActions) : ¬ s.Uses a := by
  rw [uses_iff hwork]
  rintro rfl
  exact ha.uncommon h

/-- An image that is run is no special action. -/
theorem not_uses_of_image {image : String} (hwork : s.work = .uses (imageAction image)) :
    ¬ s.Uses a := by
  rw [uses_iff hwork]
  rintro rfl
  refine ha.noImage ?_
  simp [bareAction, imageAction, String.toList_append]

theorem without_prepareSteps (l : Leaf) : Without a (prepareSteps basePath l) := by
  have hcheckout : ¬ (useStep "Checkout code" "actions/checkout@v2").Uses a :=
    not_uses_of_common ha rfl (by decide)
  refine without_append.2 ⟨without_singleton.2 hcheckout, without_ite (fun _ => ?_) fun _ => without_nil⟩
  exact without_singleton.2 (not_uses_of_common ha rfl (by decide))

theorem not_uses_loginStep (image username password : String) :
    ¬ (loginStep image username password).Uses a :=
  not_uses_of_common ha rfl (by decide)

/-- Running a script uses no special action. -/
theorem not_uses_scriptStep (basePath : String) (s : Script) : ¬ (scriptStep basePath s).Uses a := by
  rcases work_scriptStep basePath s with ⟨command, dir, hwork⟩ | hwork
  · exact not_uses_of_run hwork
  · exact not_uses_of_image ha hwork

/-- Of the steps of a script only those that save artifacts use special actions. -/
theorem without_scriptSteps {s : Script} (hsave : Without a (saveSteps basePath s.attributes)) :
    Without a (scriptSteps basePath s) := by
  have hlogin : Without a (if s.privileged then [] else loginSteps s.run.docker) := by
    refine without_ite (fun _ => without_nil) fun _ => without_ite (fun _ => without_nil) fun _ => ?_
    exact without_singleton.2 (not_uses_loginStep ha _ _ _)
  simp only [scriptSteps, without_append, without_singleton]
  exact ⟨⟨⟨without_prepareSteps ha s.leaf, hlogin⟩, not_uses_scriptStep ha basePath s⟩, hsave⟩

theorem without_imageBuild (l : Leaf) (p : DockerPush) : Without a (ImageBuild.steps basePath l p) := by
  simp only [ImageBuild.steps, without_append, without_cons]
  refine ⟨without_prepareSteps ha l, ?_, not_uses_loginStep ha _ _ _, ?_, ?_, ?_, ?_, without_nil⟩
  all_goals exact not_uses_of_common ha rfl (by decide)

theorem without_kateeSteps (c : Config) (m : Manifest) (l : Leaf) (d : DeployKatee) :
    Without a (kateeSteps c m l d) := by
  simp only [kateeSteps, without_append, without_cons]
  exact ⟨without_prepareSteps ha l, not_uses_of_image ha rfl, not_uses_of_image ha rfl, without_nil⟩

theorem without_updateSteps (c : Config) (m : Manifest) (l : Leaf) (u : Update) :
    Without a (updateSteps c m l u) := by
  simp only [updateSteps, without_append, without_cons]
  refine ⟨⟨without_prepareSteps ha l, not_uses_of_image ha rfl, without_nil⟩, ?_⟩
  refine without_ite (fun _ => ?_) fun _ => without_nil
  exact without_singleton.2 (not_uses_of_run rfl)

/-- The checks of a candidate are run and nothing else. -/
theorem without_deploymentSteps {c : Config} {m : Manifest} {l : Leaf} {d : DeployCf}
    {prePromote : List Task} {checks : List Step}
    (hchecks : List.Forall₂ (fun check step => ∃ s, Script.ofLeaf? c m check = some s
        ∧ step = { scriptStep m.basePath s with name := some check.name })
      (Task.flatten prePromote) checks) : Without a (deploymentSteps c m l d checks) := by
  refine forall_deploymentSteps hchecks (without_prepareSteps ha l) (fun stage => ?_) fun s name => ?_
  · exact not_uses_of_image ha rfl
  · exact not_uses_scriptStep ha m.basePath s

/-- What a job does for its leaf uses no special action but to save artifacts. -/
theorem without_body {c : Config} {m : Manifest} {l : Leaf} {steps : List Step}
    (hbody : Body c m l steps)
    (hsave : ∀ s, Script.ofLeaf? c m l = some s → Without a (saveSteps m.basePath s.attributes)) :
    Without a steps := by
  cases hbody with
  | script s hs => exact without_scriptSteps ha (hsave s hs)
  | imageBuild p haction => exact without_imageBuild ha l p
  | deployment d prePromote checks haction hchecks => exact without_deploymentSteps ha hchecks
  | katee d haction => exact without_kateeSteps ha c m l d
  | update u haction => exact without_updateSteps ha c m l u

end Special

end PipelineCompiler.Actions

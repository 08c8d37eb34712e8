import PipelineCompiler.Proofs.Actions.Steps
import PipelineCompiler.Proofs.Lint.Accepted

/-!
# Logins to registries

A script that is given a user for its image runs in it behind a login to the registry of the image. The
steps of a script bring that login along, but the checks of a candidate are run without the steps around
them, so that nothing in a deployment logs in. `logins_of_accepted` says that the jobs in which a script
lacks its login are those of the deployments with such a check.
-/

namespace PipelineCompiler.Actions

/-- The action that logs in to a registry. -/
def loginAction : String := "docker/login-action"

/-- The step logs in to the registry of an image, as the user that is given for it. -/
structure Step.LogsInto (step : Step) (d : Docker) : Prop where
  login : step.Uses loginAction
  username : step.input? "username" = some d.username
  registry : step.input? "registry" = registryHost? d.image

/-- Every script that runs for a leaf and is given a user for its image is run, and wherever it runs in
that image a login stands before it. -/
def Job.LogsIn (c : Config) (m : Manifest) (j : Job) (l : Leaf) : Prop :=
  ∀ runner ∈ Script.runners l, ∀ s, Script.ofLeaf? c m runner = some s → s.run.docker.username ≠ "" →
    (∃ step ∈ j.steps, step.Runs m.basePath s)
      ∧ ∀ before step after, j.steps = before ++ step :: after → step.Runs m.basePath s →
        step.action? = some (imageAction s.run.docker.image) →
        ∃ login ∈ before, login.LogsInto s.run.docker

/-- The leaf is given a user for the image that it runs in. -/
def isPrivate (l : Leaf) : Bool :=
  match l.action with
  | .run r => !r.docker.image.isEmpty && !r.docker.username.isEmpty
  | _ => false

/-- No check of a candidate is given a user for the image that it runs in. -/
def checksArePublic (l : Leaf) : Bool := !(Script.checksOf l).any isPrivate

/-! ## Steps that log in -/

section Steps

variable {step : Step} {d : Docker} {basePath : String}

theorem loginStep_logsInto (d : Docker) : (loginStep d.image d.username d.password).LogsInto d := by
  refine ⟨(uses_iff rfl).2 (by decide), ?_, ?_⟩
  · rw [loginStep]
    cases registryHost? d.image with
    | none => rfl
    | some host => rfl
  · rw [loginStep]
    cases registryHost? d.image with
    | none => rfl
    | some host => rfl

/-- An image that is run is no other action. -/
theorem imageAction_ne {image action : String} (h : ¬ "docker://".toList <+: action.toList) :
    imageAction image ≠ action := by
  rintro rfl
  refine h ?_
  rw [imageAction, String.toList_append]
  exact List.prefix_append _ _

theorem not_login_of_image {image : String} (hwork : step.work = .uses (imageAction image)) :
    ¬ step.Uses loginAction := by
  rw [uses_iff hwork]
  intro h
  have hchars := congrArg String.toList h
  simp [bareAction, imageAction, loginAction, String.toList_append] at hchars

theorem not_login_prepareSteps (l : Leaf) : Without loginAction (prepareSteps basePath l) := by
  have hprepare {s : Step} {action : String} (hwork : s.work = .uses action)
      (h : bareAction action ≠ loginAction) : ¬ s.Uses loginAction :=
    fun huses => h ((uses_iff hwork).1 huses)
  refine without_append.2 ⟨without_singleton.2 (hprepare rfl (by decide)), without_ite (fun _ => ?_)
    fun _ => without_nil⟩
  exact without_singleton.2 (hprepare rfl (by decide))

theorem not_login_scriptStep (s : Script) : ¬ (scriptStep basePath s).Uses loginAction := by
  rcases work_scriptStep basePath s with ⟨command, dir, hwork⟩ | hwork
  · exact not_uses_of_run hwork
  · exact not_login_of_image hwork

/-- A script runs in its image if it has one and does not need the daemon that runs containers. -/
theorem action?_scriptStep (s : Script) :
    (scriptStep basePath s).action? = some (imageAction s.run.docker.image)
      ↔ s.privileged = false ∧ s.run.docker.image ≠ "" := by
  by_cases hmachine : (s.privileged || s.run.docker.image.isEmpty) = true
  · have hnone : (scriptStep basePath s).action? = none := by
      simp only [scriptStep, if_pos hmachine, Step.action?]
    rw [hnone]
    refine iff_of_false (Option.some_ne_none _).symm ?_
    rintro ⟨hordinary, himage⟩
    simp [hordinary, himage] at hmachine
  · have hsome : (scriptStep basePath s).action? = some (imageAction s.run.docker.image) := by
      simp only [scriptStep, if_neg hmachine, shellStep, useStep, Step.action?]
    refine iff_of_true hsome ?_
    simpa using hmachine

/-- A step that runs a script uses the action that the script uses. -/
theorem action?_of_runs {s : Script} (h : step.Runs basePath s) :
    step.action? = (scriptStep basePath s).action? := by
  obtain ⟨name, rfl⟩ := h
  rfl

/-- Preparing the runner runs no image. -/
theorem action?_prepareSteps {l : Leaf} (h : step ∈ prepareSteps basePath l) (image : String) :
    step.action? ≠ some (imageAction image) := by
  rw [prepareSteps, List.mem_append, List.mem_singleton, List.mem_ite_nil_right,
    List.mem_singleton] at h
  rcases h with rfl | ⟨-, rfl⟩
  · exact fun h => imageAction_ne (by decide) (Option.some.inj h).symm
  · exact fun h => imageAction_ne (by decide) (Option.some.inj h).symm

end Steps

/-! ## Jobs that log in -/

/-- What stands between some items and one that is none of them stands before it. -/
theorem mem_of_append_eq {α : Type} {xs zs before after : List α} {y x : α}
    (h : xs ++ y :: zs = before ++ x :: after) (hx : x ∉ xs) (hne : x ≠ y) : y ∈ before := by
  rcases List.append_eq_append_iff.1 h with ⟨rest, rfl, hrest⟩ | ⟨rest, rfl, hrest⟩
  · cases rest with
    | nil => exact absurd (List.cons.inj hrest).1.symm hne
    | cons z rest =>
        obtain ⟨rfl, -⟩ := List.cons.inj hrest
        exact List.mem_append_right _ List.mem_cons_self
  · cases rest with
    | nil => exact absurd (List.cons.inj hrest).1 hne
    | cons z rest =>
        obtain ⟨rfl, -⟩ := List.cons.inj hrest
        exact absurd (List.mem_append_right _ List.mem_cons_self) hx

section Jobs

variable {c : Config} {m : Manifest} {l : Leaf} {j : Job} {s : Script}

/-- A script logs in to the registry of the image that it runs in. -/
theorem login_scriptSteps {basePath : String} {rest before after : List Step} {step : Step}
    (hsplit : scriptSteps basePath s ++ rest = before ++ step :: after) (hruns : step.Runs basePath s)
    (hstep : step.action? = some (imageAction s.run.docker.image))
    (huser : s.run.docker.username ≠ "") : ∃ login ∈ before, login.LogsInto s.run.docker := by
  obtain ⟨hordinary, himage⟩ := (action?_scriptStep s).1 ((action?_of_runs hruns).symm.trans hstep)
  -- the script has an image and a user, so that its steps include a login
  have hlogin : (if s.privileged then [] else loginSteps s.run.docker)
      = [loginStep s.run.docker.image s.run.docker.username s.run.docker.password] := by
    simp [hordinary, loginSteps, himage, huser]
  simp only [scriptSteps, hlogin, List.append_assoc, List.singleton_append] at hsplit
  refine ⟨_, mem_of_append_eq hsplit (fun hmem => action?_prepareSteps hmem _ hstep) ?_,
    loginStep_logsInto s.run.docker⟩
  rintro rfl
  exact imageAction_ne (by decide) (Option.some.inj hstep).symm

/-- Nothing in the job of a deployment logs in. -/
theorem without_login_of_deployment {d : DeployCf} {prePromote : List Task} {id : String}
    {needs : List String} (haction : l.action = .deployCf d prePromote)
    (h : job c m id l needs = .ok j) : Without loginAction j.steps := by
  obtain ⟨steps, hbody, hj⟩ := body_of_job h
  rw [hj, without_append]
  refine ⟨?_, without_messageSteps (by decide) l⟩
  cases hbody with
  | deployment d' prePromote' checks haction' hchecks =>
      refine forall_deploymentSteps hchecks (not_login_prepareSteps l) (fun stage => ?_) fun s name => ?_
      · exact not_login_of_image rfl
      · exact not_login_scriptStep s
  | script s hs =>
      have hscript := Script.isScript_of_ofLeaf? hs
      rw [haction] at hscript
      exact absurd hscript Bool.false_ne_true
  | imageBuild p haction' | katee d' haction' | update u haction' =>
      simp [haction] at haction'

/-- The script of a check is run in an image as some user just if the check is private. -/
theorem isPrivate_iff (hcheck : (∃ r, l.action = .run r) ∨ ∃ t, l.action = .consumerTest t)
    (hs : Script.ofLeaf? c m l = some s) :
    isPrivate l = true
      ↔ (s.privileged = false ∧ s.run.docker.image ≠ "") ∧ s.run.docker.username ≠ "" := by
  rw [Script.ofLeaf?] at hs
  rcases hcheck with ⟨r, haction⟩ | ⟨t, haction⟩
  · rw [haction] at hs
    obtain rfl := Option.some.inj hs
    simp [isPrivate, haction]
  · rw [haction] at hs
    obtain rfl := Option.some.inj hs
    simp [isPrivate, haction, Script.withVars]

/-- The scripts of a deployment have their logins just if none needs one. -/
theorem logsIn_iff_of_deployment {d : DeployCf} {prePromote : List Task} {id : String}
    {needs : List String} (hadmits : m.Admits l) (haction : l.action = .deployCf d prePromote)
    (h : job c m id l needs = .ok j) : j.LogsIn c m l ↔ checksArePublic l = true := by
  rw [Manifest.Admits, haction] at hadmits
  have hcheck : ∀ check ∈ Task.flatten prePromote,
      (∃ r, check.action = .run r) ∨ ∃ t, check.action = .consumerTest t :=
    fun check hl => Script.action_of_isCheck hadmits hl
  rw [checksArePublic, Bool.not_eq_true', ← Bool.not_eq_true, List.any_eq_true,
    Script.checksOf_deployCf haction, Job.LogsIn, Script.runners_deployCf haction]
  constructor
  -- a check that needs a login runs in its image, but there is no login in the whole job
  · rintro hlogs ⟨check, hl, hprivate⟩
    obtain ⟨s, hs⟩ := Script.exists_ofLeaf? c m (Script.isScript_of_isCheck hadmits hl)
    obtain ⟨himage, huser⟩ := (isPrivate_iff (hcheck check hl) hs).1 hprivate
    obtain ⟨⟨step, hstep, hruns⟩, hbefore⟩ := hlogs check hl s hs huser
    obtain ⟨before, after, hsplit⟩ := List.append_of_mem hstep
    obtain ⟨login, hlogin, hlogsInto⟩ := hbefore before step after hsplit hruns
      ((action?_of_runs hruns).trans ((action?_scriptStep s).2 himage))
    refine without_login_of_deployment haction h login ?_ hlogsInto.login
    rw [hsplit]
    exact List.mem_append_left _ hlogin
  · intro hpublic check hl s hs huser
    have hrunner : check ∈ Script.runners l := by rwa [Script.runners_deployCf haction]
    refine ⟨exists_runs_of_job h hrunner hs, fun before step after _ hruns hstep => absurd ?_ hpublic⟩
    have himage := (action?_scriptStep s).1 ((action?_of_runs hruns).symm.trans hstep)
    exact ⟨check, hl, (isPrivate_iff (hcheck check hl) hs).2 ⟨himage, huser⟩⟩

/-- The script of a leaf has its login. -/
theorem logsIn_of_isScript {id : String} {needs : List String} (h : job c m id l needs = .ok j)
    (hscript : l.action.isScript = true) : j.LogsIn c m l := by
  obtain ⟨s, hs, hj⟩ := exists_scriptSteps h hscript
  intro runner hrunner s' hs' huser
  refine ⟨exists_runs_of_job h hrunner hs', fun before step after hsplit hruns hstep => ?_⟩
  rw [Script.runners_of_isScript hscript, List.mem_singleton] at hrunner
  subst hrunner
  obtain rfl := Option.some.inj (hs.symm.trans hs')
  exact login_scriptSteps (hj.symm.trans hsplit) hruns hstep huser

/-- The job of a leaf logs in for its scripts just if the checks of its candidate need no login. -/
theorem logsIn_iff_of_job {id : String} {needs : List String} (hadmits : m.Admits l)
    (h : job c m id l needs = .ok j) : j.LogsIn c m l ↔ checksArePublic l = true := by
  cases haction : l.action with
  | deployCf d prePromote => exact logsIn_iff_of_deployment hadmits haction h
  | _ =>
      have hchecks : Script.checksOf l = [] := by rw [Script.checksOf, haction]
      refine iff_of_true ?_ (by rw [checksArePublic, hchecks]; rfl)
      by_cases hscript : l.action.isScript = true
      · exact logsIn_of_isScript h hscript
      · intro runner hrunner
        rw [Script.runners, if_neg hscript, hchecks] at hrunner
        exact absurd hrunner List.not_mem_nil

end Jobs

/-! ## The workflow of an accepted manifest -/

/-- In the workflow of a manifest without lint errors, its defaults filled in, the jobs in which every
script that runs in an image as some user stands behind its login are those of the leaves whose checks
need no login. -/
theorem logins_of_accepted (c : Config) (s : Surroundings) (m : Manifest)
    (h : Lint.hasErrors (Lint.run c s m) = false) :
    ∃ w, render c m.withDefaults = .ok w
      ∧ List.Forall₂ (fun e j => j.LogsIn c m.withDefaults e.2 ↔ checksArePublic e.2 = true)
        (Task.leaves m.withDefaults.tasks) w.jobs := by
  have hrenderable := (Lint.renderable_of_accepted h).withDefaults
  obtain ⟨w, hrender, hjobs⟩ := render_eq_ok c hrenderable
  refine ⟨w, hrender, forall₂_imp_mem hjobs fun e he j _ hj => ?_⟩
  exact logsIn_iff_of_job (hrenderable.leaves e.2 (List.mem_map_of_mem he)) hj

/-- A script in an image of a private registry. -/
def privateScript (name : String) : Task :=
  .leaf
    { attributes := { name }
      action := .run
        { script := "./" ++ name
          docker :=
            { image := "registry.example.com/acme/tool"
              username := "reader"
              password := "((registry.password))" } } }

/-- A workflow that runs a private image, and deploys what a script checks. -/
def privateWorkflow (check : Task) : Manifest where
  team := "acme"
  pipeline := "app"
  platform := .actions
  triggers := [.git { uri := "https://github.com/acme/app" }]
  tasks :=
    [privateScript "test",
      .leaf
        { attributes := { name := "deploy" }
          action := .deployCf { api := "api", org := "acme", space := "live" } [check] }]

theorem publicCheck_logins :
    Lint.hasErrors
        (Lint.run {} Lint.sampleSurroundings (privateWorkflow (Lint.sampleScript "smoke"))) = false
      ∧ ∃ w, render {} (privateWorkflow (Lint.sampleScript "smoke")).withDefaults = .ok w
        ∧ List.Forall₂
          (fun e j => j.LogsIn {} (privateWorkflow (Lint.sampleScript "smoke")).withDefaults e.2
            ↔ checksArePublic e.2 = true)
          (Task.leaves (privateWorkflow (Lint.sampleScript "smoke")).withDefaults.tasks) w.jobs := by
  have haccepted : Lint.hasErrors
      (Lint.run {} Lint.sampleSurroundings (privateWorkflow (Lint.sampleScript "smoke"))) = false := by
    decide +kernel
  exact ⟨haccepted, logins_of_accepted {} _ _ haccepted⟩

/-- A check in an image of a private registry is run without a login. -/
theorem privateCheck_without_login :
    Lint.hasErrors
        (Lint.run {} Lint.sampleSurroundings (privateWorkflow (privateScript "smoke"))) = false
      ∧ ∃ w, render {} (privateWorkflow (privateScript "smoke")).withDefaults = .ok w
        ∧ ∃ e ∈ Task.leaves (privateWorkflow (privateScript "smoke")).withDefaults.tasks, ∃ j ∈ w.jobs,
          j.id = leafId (privateWorkflow (privateScript "smoke")).withDefaults e
            ∧ ¬ j.LogsIn {} (privateWorkflow (privateScript "smoke")).withDefaults e.2 := by
  have haccepted : Lint.hasErrors
      (Lint.run {} Lint.sampleSurroundings (privateWorkflow (privateScript "smoke"))) = false := by
    decide +kernel
  have hprivate : ∃ e ∈ Task.leaves (privateWorkflow (privateScript "smoke")).withDefaults.tasks,
      checksArePublic e.2 = false := by
    decide +kernel
  have hrenderable := (Lint.renderable_of_accepted haccepted).withDefaults
  obtain ⟨w, hrender, hjobs⟩ := render_eq_ok {} hrenderable
  obtain ⟨e, he, hprivate⟩ := hprivate
  obtain ⟨j, hj, hjob⟩ := exists_of_mem_left hjobs he
  refine ⟨haccepted, w, hrender, e, he, j, hj, (id_needs_of_job hjob).1, fun hlogs => ?_⟩
  have hpublic := (logsIn_iff_of_job (hrenderable.leaves e.2 (List.mem_map_of_mem he)) hjob).1 hlogs
  exact absurd (hprivate.symm.trans hpublic) Bool.false_ne_true

end PipelineCompiler.Actions

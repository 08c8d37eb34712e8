import PipelineCompiler.Proofs.Actions.Sources
import PipelineCompiler.Proofs.Lint.Accepted

/-!
# Secrets in workflows

A reference that a manifest has only where secrets are read is in no environment and no input of its
workflow, whatever it does with the secret. The names of users and the domains for tests are not among
these places: `leaks_of_accepted` says that they get into the workflow as they are, and that no reference
gets there in another way, unless it is a part of a text. So a user whose name is a secret cannot log in
(`rawLogin_leaks`).
-/

namespace PipelineCompiler.Actions

open Secret

/-! ## Credentials that are handed on as they stand -/

theorem username_mem_loginStep (image username password : String) :
    username ∈ (loginStep image username password).texts := by
  simp [loginStep, useStep, Step.texts, Settings.ofTexts, Setting.strings]

/-- A domain for tests is told to the first stage of a deployment. -/
theorem testDomain_mem_stageStep (c : Config) (m : Manifest) (l : Leaf) {d : DeployCf}
    (h : d.testDomain.isEmpty = false) :
    d.testDomain ∈ (CloudFoundry.stageStep c m l d .push).texts := by
  refine List.mem_append_left _ ?_
  show d.testDomain ∈ (CloudFoundry.stageEnv m l d .push).map Prod.snd
  rw [CloudFoundry.stageEnv, if_neg (by simp [h])]
  exact List.mem_map_of_mem (f := Prod.snd) (mem_put_self _ _ _)

/-- Every credential that is handed on as it stands is in some step. -/
theorem raw_mem_body {c : Config} {m : Manifest} {l : Leaf} {steps : List Step} (hbody : Body c m l steps)
    {u : String} (hu : u ∈ (bodySources c m l).raw) : ∃ s ∈ steps, u ∈ s.texts := by
  cases hbody with
  | script s hs =>
      rw [bodySources_of_script hs] at hu
      simp only [scriptSources, Sources.raw_append, runSources, List.nil_append, List.append_nil] at hu
      split at hu
      · exact absurd hu List.not_mem_nil
      -- the script logs in under the same condition under which its login is a source
      · next hlogin =>
          simp only [Bool.or_eq_true, not_or, Bool.not_eq_true] at hlogin
          obtain ⟨⟨hprivileged, himage⟩, husername⟩ := hlogin
          obtain rfl := List.mem_singleton.1 hu
          refine ⟨loginStep s.run.docker.image s.run.docker.username s.run.docker.password, ?_,
            username_mem_loginStep _ _ _⟩
          simp [scriptSteps, loginSteps, hprivileged, himage, husername]
  | imageBuild p haction =>
      simp only [bodySources, haction, imageSources, Sources.raw_append, List.append_nil] at hu
      obtain rfl := List.mem_singleton.1 hu
      refine ⟨loginStep p.image p.username p.password, ?_, username_mem_loginStep _ _ _⟩
      simp [ImageBuild.steps]
  | deployment d prePromote checks haction hchecks =>
      simp only [bodySources, haction, deploymentSources, Sources.raw_append, List.mem_append] at hu
      -- the steps for the checks hand on no credentials
      rcases hu with hu | hu
      · cases hblank : d.testDomain.isEmpty with
        | true => simp [stageSources, hblank] at hu
        | false =>
            simp only [stageSources, hblank, Bool.false_eq_true, if_false, List.mem_singleton] at hu
            subst hu
            refine ⟨CloudFoundry.stageStep c m l d .push, ?_, testDomain_mem_stageStep c m l hblank⟩
            simp [deploymentSteps]
      · obtain ⟨part, hpart, hu⟩ := List.mem_flatMap.1 hu
        obtain ⟨s, -, rfl⟩ := List.mem_map.1 hpart
        exact absurd hu List.not_mem_nil
  | katee d haction => simp [bodySources, haction, kateeSources] at hu
  | update u' haction => simp [bodySources, haction, Script.ofLeaf?] at hu

/-! ## Workflows -/

theorem env_of_render {c : Config} {m : Manifest} {w : Workflow} (h : render c m = .ok w) :
    w.env = if m.tasks.isEmpty then [] else globalEnv := by
  obtain ⟨-, -, h⟩ := bind_eq_ok.1 h
  obtain ⟨js, -, h⟩ := bind_eq_ok.1 h
  rw [← Except.ok.inj h]

theorem free_globalEnv {r : String} (hr : isReference r = true) : EnvFree r globalEnv := by
  intro e he
  have hconst : ∀ e ∈ globalEnv, '(' ∉ e.2.toList := by decide +kernel
  exact free_of_not_mem hr (hconst e he)

section Render

variable {r : String} (hr : isReference r = true) {c : Config} {m : Manifest}
include hr

/-- Where the other texts are free, a reference is kept only by the credentials that are handed on. -/
theorem Sources.isFree_of_others {s : Sources} (h : ∀ t ∈ s.others, Free r t)
    (hraw : ∀ u ∈ s.raw, Free r u) : s.IsFree r where
  plain t ht := h t (List.mem_append_left _ ht)
  read v hv := by
    cases href : isReference v with
    | true => exact free_readSecret_of_isReference hr href
    | false =>
        have hother : v ∈ s.others := List.mem_append_right _ (List.mem_filter.2 ⟨hv, by simp [href]⟩)
        exact free_readSecret hr (h v hother)
  raw := hraw

/-- A reference that neither other texts nor credentials that are handed on hold is nowhere in the
workflow. -/
theorem free_of_render {w : Workflow} (hw : render c m = .ok w)
    (hjobs : List.Forall₂ (fun e j => job c m (leafId m e) e.2 (leafNeeds m e) = .ok j)
      (Task.leaves m.tasks) w.jobs)
    (h : ∀ t ∈ (sources c m).others, Free r t) (hraw : ∀ u ∈ (sources c m).raw, Free r u) :
    ∀ t ∈ w.texts, Free r t := by
  have hfree : (sources c m).IsFree r := Sources.isFree_of_others hr h hraw
  obtain ⟨hbase, hleaves⟩ := isFree_append.1 hfree
  have hm : Free r m.basePath := hbase.plain _ List.mem_cons_self
  intro t ht
  rcases List.mem_append.1 ht with ht | ht
  · obtain ⟨e, he, rfl⟩ := List.mem_map.1 ht
    rw [env_of_render hw] at he
    split at he
    · exact absurd he List.not_mem_nil
    · exact free_globalEnv hr e he
  · obtain ⟨j, hj, ht⟩ := List.mem_flatMap.1 ht
    obtain ⟨e, he, hjob⟩ := exists_of_mem_right hjobs hj
    refine free_job hr hm hjob (hleaves.of_mem ?_) t ht
    exact List.mem_map_of_mem (f := fun l => bodySources c m l ++ messageSources l)
      (List.mem_map_of_mem (f := Prod.snd) he)

omit hr in
/-- Every credential that is handed on is in the workflow. -/
theorem raw_mem_of_render {w : Workflow}
    (hjobs : List.Forall₂ (fun e j => job c m (leafId m e) e.2 (leafNeeds m e) = .ok j)
      (Task.leaves m.tasks) w.jobs) : ∀ u ∈ (sources c m).raw, u ∈ w.texts := by
  intro u hu
  rw [sources, Sources.raw_append, List.nil_append] at hu
  obtain ⟨part, hpart, hu⟩ := List.mem_flatMap.1 hu
  obtain ⟨l, hl, rfl⟩ := List.mem_map.1 hpart
  obtain ⟨e, he, rfl⟩ := List.mem_map.1 hl
  obtain ⟨j, hj, hjob⟩ := exists_of_mem_left hjobs he
  obtain ⟨steps, hbody, hsteps⟩ := body_of_job hjob
  have hmessages : (messageSources e.2).raw = [] := by
    unfold messageSources
    split <;> rfl
  rw [Sources.raw_append, hmessages, List.append_nil] at hu
  obtain ⟨step, hstep, hu⟩ := raw_mem_body hbody hu
  have hstep' : step ∈ j.steps := hsteps ▸ List.mem_append_left _ hstep
  exact List.mem_append_right _ (List.mem_flatMap.2 ⟨j, hj,
    List.mem_append_right _ (List.mem_flatMap.2 ⟨step, hstep', hu⟩)⟩)

end Render

/-! ## Accepted manifests -/

/-- Into the environments and the inputs of the workflow of a manifest without lint errors, its defaults
filled in, get all credentials that are handed on as they stand, and no reference but one that such a
credential or one of the other texts holds. -/
theorem leaks_of_accepted (c : Config) (s : Surroundings) (m : Manifest)
    (h : Lint.hasErrors (Lint.run c s m) = false) :
    ∃ w, render c m.withDefaults = .ok w
      ∧ (∀ u ∈ (sources c m.withDefaults).raw, u ∈ w.texts)
      ∧ ∀ r, isReference r = true → (∀ t ∈ (sources c m.withDefaults).others, Free r t) →
        (∀ u ∈ (sources c m.withDefaults).raw, Free r u) → ∀ t ∈ w.texts, Free r t := by
  obtain ⟨w, hw, hjobs⟩ := render_eq_ok c (Lint.renderable_of_accepted h).withDefaults
  exact ⟨w, hw, raw_mem_of_render hjobs, fun r hr => free_of_render hr hw hjobs⟩

/-- A workflow that pushes an image under the name of a user, and deploys under a domain for tests. -/
def secretManifest (username testDomain : String) : Manifest where
  team := "acme"
  pipeline := "app"
  platform := .actions
  triggers := [.git { uri := "https://github.com/acme/app" }]
  tasks :=
    [.leaf
      { attributes := { name := "push" }
        action := .dockerPush { image := "acme/app", username, password := "((registry.password))" } },
    .leaf
      { attributes := { name := "deploy", vars := Vars.ofList [("TOKEN", "((app.token))")] }
        action := .deployCf { api := "((cf.api))", org := "acme", space := "live", testDomain } [] }]

/-- Nothing but the secrets themselves is handed on where the names of users and domains are plain. -/
theorem secretManifest_free :
    Lint.hasErrors (Lint.run {} Lint.sampleSurroundings (secretManifest "robot" "example.com")) = false
      ∧ ∃ w, render {} (secretManifest "robot" "example.com").withDefaults = .ok w
        ∧ ∀ r ∈ ["((registry.password))", "((app.token))", "((cf.api))"], ∀ t ∈ w.texts, Free r t := by
  have haccepted : Lint.hasErrors
      (Lint.run {} Lint.sampleSurroundings (secretManifest "robot" "example.com")) = false := by
    decide +kernel
  obtain ⟨w, hw, -, hfree⟩ := leaks_of_accepted {} _ _ haccepted
  refine ⟨haccepted, w, hw, fun r hr => ?_⟩
  have href : ∀ r ∈ ["((registry.password))", "((app.token))", "((cf.api))"], isReference r = true := by
    decide +kernel
  have hothers : ∀ r ∈ ["((registry.password))", "((app.token))", "((cf.api))"],
      ∀ t ∈ (sources {} (secretManifest "robot" "example.com").withDefaults).others, Free r t := by
    decide +kernel
  have hraw : ∀ r ∈ ["((registry.password))", "((app.token))", "((cf.api))"],
      ∀ u ∈ (sources {} (secretManifest "robot" "example.com").withDefaults).raw, Free r u := by
    decide +kernel
  exact hfree r (href r hr) (hothers r hr) (hraw r hr)

/-- The name of a user and a domain that are references are handed on as such. -/
theorem rawLogin_leaks :
    Lint.hasErrors (Lint.run {} Lint.sampleSurroundings
        (secretManifest "((registry.user))" "((cf.domain))")) = false
      ∧ isReference "((registry.user))" = true ∧ isReference "((cf.domain))" = true
      ∧ ∃ w, render {} (secretManifest "((registry.user))" "((cf.domain))").withDefaults = .ok w
        ∧ "((registry.user))" ∈ w.texts ∧ "((cf.domain))" ∈ w.texts := by
  have haccepted : Lint.hasErrors (Lint.run {} Lint.sampleSurroundings
      (secretManifest "((registry.user))" "((cf.domain))")) = false := by
    decide +kernel
  obtain ⟨w, hw, hjobs⟩ := render_eq_ok {} (Lint.renderable_of_accepted haccepted).withDefaults
  have hraw := raw_mem_of_render hjobs
  exact ⟨haccepted, by decide, by decide, w, hw, hraw _ (by decide +kernel), hraw _ (by decide +kernel)⟩

end PipelineCompiler.Actions

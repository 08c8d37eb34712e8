import PipelineCompiler.Proofs.Concourse.Inputs
import PipelineCompiler.Proofs.Concourse.Uploads
import PipelineCompiler.Proofs.Script.Lowering
import PipelineCompiler.Proofs.Text.Identifier

/-!
# Names of task steps

A task step is called by a fixed name, or by the identifier of the display name of a leaf: of the leaf that
runs, or of one that checks a candidate. So all names of task steps are made of identifier characters.

A display name is never blank, since leaves without a name of their own have one for what they are. Its
identifier is empty all the same if the author's name holds no character of identifiers, and no rule looks
at the characters of a name. `taskNames_of_accepted` says which accepted manifests have empty names.
-/

namespace PipelineCompiler

/-- The type tag of an action has an identifier, which is the tag itself. -/
theorem hasIdentifier_kind {τ : Type} (action : Action τ) :
    Text.hasIdentifier action.kind = true := by
  cases action <;> rw [Action.kind] <;> decide

/-- Display names that stand in for a missing one have identifiers. -/
theorem hasIdentifier_name {l : Leaf} :
    Text.hasIdentifier l.name = true ↔
      l.attributes.name = "" ∨ Text.hasIdentifier l.attributes.name = true := by
  by_cases hown : l.attributes.name = ""
  · refine iff_of_true ?_ (.inl hown)
    rw [LeafOf.name, orElse, if_pos (by simp [hown])]
    split
    · next r _ =>
        have hstart : 'r' ∈ Text.lowerChars ("run " ++ Text.replaceFirst "./" "" r.script).toList := by
          rw [String.toList_append]
          exact List.mem_cons_self
        exact List.any_eq_true.2 ⟨'r', hstart, by decide⟩
    · exact hasIdentifier_kind _
  · rw [Script.name_eq_own hown]
    exact (or_iff_right hown).symm

namespace Concourse

/-! ## Names of steps -/

/-- The names of the task steps among steps and inside of them. -/
def Step.taskNames (steps : List Step) : List String :=
  (Step.collect Step.task? steps).map TaskStep.name

/-- The names of the task steps of a job. -/
def Job.taskNames (j : Job) : List String := Step.taskNames (j.plan ++ j.hooks)

/-- The names of task steps that no leaf lends its name to. -/
def fixedTaskNames : List String :=
  ["get-artifact", "copying-git-repo-and-artifacts-to-a-temporary-build-dir", "create-tag-list", "build",
    "trivy", "publish-final-image", "update-pipeline"]

/-- The leaves that lend their names to task steps of the job of a leaf: a deployment to Katee lends its
own, and otherwise those that run as scripts do. -/
def namesakes (l : Leaf) : List Leaf :=
  match l.action with
  | .deployKatee _ => [l]
  | _ => Script.runners l

theorem Step.taskNames_append (xs ys : List Step) :
    Step.taskNames (xs ++ ys) = Step.taskNames xs ++ Step.taskNames ys := by
  rw [Step.taskNames, Step.collect_append, List.map_append]
  rfl

section Work

variable {c : Config} {m : Manifest} {resources : ResourceSet} {l : Leaf} {steps : List Step}
  {ensure : Option Step}

/-- A script runs in a task step that is called by the name of its leaf. -/
theorem taskNames_script {s : Script} (hs : Script.ofLeaf? c m l = some s) :
    Step.taskNames (ScriptStep.steps m s) = [Text.identifier l.name] := by
  rw [← Script.name_ofLeaf? hs, Step.taskNames, ScriptStep.steps, ← List.singleton_append,
    Step.collect_append, Step.collect_task?_forLeaf]
  split
  · rfl
  · rfl

/-- The task steps of the checks are called by the names of the checks. -/
theorem taskNames_checks {checks : List Leaf} {scripts : List Script}
    (h : List.Forall₂ (fun check s => Script.ofLeaf? c m check = some s) checks scripts) :
    Step.taskNames (scripts.flatMap (ScriptStep.steps m))
      = checks.map fun check => Text.identifier check.name := by
  induction h with
  | nil => rfl
  | cons hs _ ih =>
      rw [List.flatMap_cons, Step.taskNames_append, taskNames_script hs, ih]
      rfl

theorem taskNames_imageBuild (p : DockerPush) :
    Step.taskNames (ImageBuild.steps c m l p) ⊆ fixedTaskNames := by
  intro name hname
  obtain ⟨t, ht, rfl⟩ := List.mem_map.1 hname
  obtain ⟨step, hstep, ht⟩ := Step.mem_collect.1 ht
  obtain ⟨t', ht', rfl⟩ := List.mem_map.1 hstep
  rw [Step.collect_task?_forLeaf, List.mem_singleton] at ht
  subst ht
  rcases List.mem_append.1 ht' with ht | ht
  · obtain ⟨-, ht⟩ := List.mem_ite_nil_right.1 ht
    rw [List.mem_singleton.1 ht]
    simp [ImageBuild.copyStep, fixedTaskNames]
  · simp only [List.mem_cons, List.not_mem_nil, or_false] at ht
    rcases ht with rfl | rfl | rfl | rfl
    · simp [ImageBuild.tagsStep, fixedTaskNames]
    · simp [ImageBuild.buildStep, fixedTaskNames]
    · simp [ImageBuild.scanStep, fixedTaskNames]
    · simp [ImageBuild.publishStep, fixedTaskNames]

theorem taskNames_update (u : Update) :
    Step.taskNames (updateSteps c m l u) = ["update-pipeline"] := by
  obtain ⟨tagRepo⟩ := u
  cases tagRepo with
  | false => rfl
  | true => rfl

theorem taskNames_katee (d : DeployKatee) :
    Step.taskNames [kateeStep c m l d] = [Text.identifier l.name] := by
  rw [Step.taskNames, kateeStep, Step.collect_task?_forLeaf]
  rfl

/-! ## Names of a job -/

theorem namesakes_of_isScript (h : l.action.isScript = true) : namesakes l = [l] := by
  rw [← Script.runners_of_isScript h, namesakes]
  split
  · next haction => simp [haction, Action.isScript] at h
  · rfl

theorem namesakes_deployCf {d : DeployCf} {prePromote : List Task}
    (h : l.action = .deployCf d prePromote) : namesakes l = Task.flatten prePromote := by
  rw [← Script.runners_deployCf h, namesakes, h]

/-- The task steps that work for a leaf are called by fixed names, or by those of its namesakes. -/
theorem mem_taskNames_work (h : Work c m resources l steps ensure) {name : String}
    (hname : name ∈ Step.taskNames steps) :
    name ∈ fixedTaskNames ∨ ∃ namesake ∈ namesakes l, name = Text.identifier namesake.name := by
  cases h with
  | script s hs =>
      rw [taskNames_script hs, List.mem_singleton] at hname
      have hself := namesakes_of_isScript (Script.isScript_of_ofLeaf? hs)
      exact .inr ⟨l, hself ▸ List.mem_singleton_self l, hname⟩
  | imageBuild p haction => exact .inl (taskNames_imageBuild p hname)
  | rolling d prePromote r haction hr hrolling => exact absurd hname List.not_mem_nil
  | stages d prePromote r scripts haction hr hrolling hscripts =>
      rw [Step.taskNames, tasks_stageSteps, ← Step.taskNames, taskNames_checks hscripts] at hname
      obtain ⟨check, hcheck, rfl⟩ := List.mem_map.1 hname
      exact .inr ⟨check, by rwa [namesakes_deployCf haction], rfl⟩
  | katee d haction =>
      rw [taskNames_katee, List.mem_singleton] at hname
      exact .inr ⟨l, by rw [namesakes, haction]; exact List.mem_singleton_self l, hname⟩
  | update u haction =>
      rw [taskNames_update, List.mem_singleton] at hname
      exact .inl (by simp [hname, fixedTaskNames])

/-- Every namesake of a leaf lends its name to a task step, if a rolling deployment has no checks. -/
theorem identifier_mem_taskNames_work (h : Work c m resources l steps ensure)
    (hunchecked : RollsUnchecked l) {namesake : Leaf} (hmem : namesake ∈ namesakes l) :
    Text.identifier namesake.name ∈ Step.taskNames steps := by
  cases h with
  | script s hs =>
      rw [namesakes_of_isScript (Script.isScript_of_ofLeaf? hs), List.mem_singleton] at hmem
      rw [taskNames_script hs, hmem]
      exact List.mem_singleton_self _
  | rolling d prePromote r haction hr hrolling =>
      obtain rfl := hunchecked d prePromote haction hrolling
      rw [namesakes_deployCf haction] at hmem
      exact absurd hmem List.not_mem_nil
  | stages d prePromote r scripts haction hr hrolling hscripts =>
      rw [namesakes_deployCf haction] at hmem
      rw [Step.taskNames, tasks_stageSteps, ← Step.taskNames, taskNames_checks hscripts]
      exact List.mem_map_of_mem hmem
  | katee d haction =>
      rw [namesakes, haction, List.mem_singleton] at hmem
      rw [taskNames_katee, hmem]
      exact List.mem_singleton_self _
  | imageBuild p haction | update u haction =>
      rw [namesakes, haction, Script.runners, Script.checksOf, haction] at hmem
      exact absurd hmem List.not_mem_nil

/-- The task steps of a job restore artifacts, or work for the leaf. -/
theorem taskNames_of_consists {passed : List String} {j : Job}
    (h : Consists c m resources l passed j steps) :
    j.taskNames = (if l.readsArtifacts then ["get-artifact"] else []) ++ Step.taskNames steps := by
  have hhooks : Step.taskNames j.hooks = [] := by rw [Step.taskNames, h.tasks_hooks, List.map_nil]
  have hfetches : Step.taskNames (fetchSteps m resources l passed) = [] := by
    rw [Step.taskNames, tasks_fetchSteps, List.map_nil]
  rw [Job.taskNames, Step.taskNames_append, hhooks, List.append_nil, h.plan, initialPlan_eq,
    Step.taskNames_append, Step.taskNames_append, hfetches, List.nil_append]
  split
  · rfl
  · rfl

/-- The task steps of a job are called by fixed names, or by those of the namesakes of its leaf. -/
theorem mem_taskNames {passed : List String} {j : Job} (h : Consists c m resources l passed j steps)
    {name : String} (hname : name ∈ j.taskNames) :
    name ∈ fixedTaskNames ∨ ∃ namesake ∈ namesakes l, name = Text.identifier namesake.name := by
  rw [taskNames_of_consists h, List.mem_append] at hname
  rcases hname with hname | hname
  · obtain ⟨-, hname⟩ := List.mem_ite_nil_right.1 hname
    exact .inl (by simp [List.mem_singleton.1 hname, fixedTaskNames])
  · exact mem_taskNames_work h.work hname

/-- A job has no empty name among its task steps just if every namesake of its leaf with a name of its
own has a character of identifiers in it. -/
theorem taskNames_ne_empty_iff {passed : List String} {j : Job}
    (h : Consists c m resources l passed j steps) (hunchecked : RollsUnchecked l) :
    (∀ name ∈ j.taskNames, name ≠ "") ↔
      ∀ namesake ∈ namesakes l,
        namesake.attributes.name = "" ∨ Text.hasIdentifier namesake.attributes.name = true := by
  simp only [← hasIdentifier_name]
  constructor
  · intro hnames namesake hmem
    refine Bool.eq_true_of_not_eq_false fun hnone => ?_
    refine hnames (Text.identifier namesake.name) ?_ (Text.identifier_eq_empty.2 hnone)
    rw [taskNames_of_consists h]
    exact List.mem_append_right _ (identifier_mem_taskNames_work h.work hunchecked hmem)
  · rintro hnamesakes name hname rfl
    rcases mem_taskNames h hname with hfixed | ⟨namesake, hmem, hempty⟩
    · exact absurd hfixed (by decide)
    · have hnone := Text.identifier_eq_empty.1 hempty.symm
      exact Bool.false_ne_true (hnone.symm.trans (hnamesakes namesake hmem))

/-- Names of task steps are made of identifier characters. -/
theorem isIdentifierChar_of_mem_taskNames {passed : List String} {j : Job}
    (h : Consists c m resources l passed j steps) {name : String} (hname : name ∈ j.taskNames) :
    ∀ ch ∈ name.toList, Text.isIdentifierChar ch = true := by
  rcases mem_taskNames h hname with hfixed | ⟨namesake, -, rfl⟩
  · have hall : (fixedTaskNames.all fun name => name.toList.all Text.isIdentifierChar) = true := by
      decide
    exact List.all_eq_true.1 (List.all_eq_true.1 hall name hfixed)
  · exact fun _ => Text.isIdentifierChar_of_mem_identifier

end Work

/-! ## Accepted manifests -/

/-- In the pipeline of a manifest without lint errors, its defaults filled in, all names of task steps, those
of checks included, are made of small ASCII letters, digits, dashes and dots. A job has no empty name among
them just if no leaf that lends its name to a task step has an own name without any such character. The
identifier of an identifier is that identifier. -/
theorem taskNames_of_accepted (c : Config) (s : Surroundings) (m : Manifest)
    (h : Lint.hasErrors (Lint.run c s m) = false) :
    ∃ p, render c m.withDefaults = .ok p
      ∧ (∀ j ∈ p.jobs, ∀ name ∈ j.taskNames, ∀ ch ∈ name.toList, Text.isIdentifierChar ch = true)
      ∧ List.Forall₂
        (fun e j => (∀ name ∈ j.taskNames, name ≠ "") ↔
          ∀ namesake ∈ namesakes e.2,
            namesake.attributes.name = "" ∨ Text.hasIdentifier namesake.attributes.name = true)
        (Task.leaves m.withDefaults.tasks) p.jobs
      ∧ ∀ text, Text.identifier (Text.identifier text) = Text.identifier text := by
  have hrenderable := (Lint.renderable_of_accepted h).withDefaults
  obtain ⟨js, hp, hjobs⟩ := render_eq_ok c hrenderable
  refine ⟨_, hp, fun j hj name hname => ?chars, forall₂_imp_mem hjobs fun e he j _ hj => ?empty,
    Text.identifier_identifier⟩
  case chars =>
    obtain ⟨e, he, hrealises⟩ := exists_of_mem_right hjobs hj
    obtain ⟨steps, hconsists⟩ := consists_of_renderable hrenderable he hrealises
    exact isIdentifierChar_of_mem_taskNames hconsists hname
  case empty =>
    obtain ⟨steps, hconsists⟩ := consists_of_renderable hrenderable he hj
    exact taskNames_ne_empty_iff hconsists
      (rollsUnchecked_of_clean (Lint.tasksFindings_clean h) (List.mem_map_of_mem he))

/-- The names of task steps in the sample, whose deployment is checked, are not empty. -/
theorem sample_taskNames :
    Lint.hasErrors (Lint.run {} Lint.sampleSurroundings Lint.sampleManifest) = false
      ∧ ∃ p, render {} Lint.sampleManifest.withDefaults = .ok p
        ∧ ∀ j ∈ p.jobs, ∀ name ∈ j.taskNames,
          name ≠ "" ∧ ∀ ch ∈ name.toList, Text.isIdentifierChar ch = true := by
  have hnamesakes : ∀ e ∈ Task.leaves Lint.sampleManifest.withDefaults.tasks,
      ∀ namesake ∈ namesakes e.2,
        namesake.attributes.name = "" ∨ Text.hasIdentifier namesake.attributes.name = true := by
    decide +kernel
  obtain ⟨p, hp, hchars, hempty, -⟩ :=
    taskNames_of_accepted {} Lint.sampleSurroundings Lint.sampleManifest Lint.sample_accepted
  refine ⟨Lint.sample_accepted, p, hp, fun j hj name hname => ⟨?_, hchars j hj name hname⟩⟩
  obtain ⟨e, he, hiff⟩ := exists_of_mem_right hempty hj
  exact hiff.2 (hnamesakes e he) name hname

/-- A pipeline whose only task has the name. -/
def namedPipeline (name : String) : Manifest :=
  { Lint.pipelineOn "app" "main" with
    tasks :=
      [.leaf
        { attributes := { name }
          action := .run { script := "./build", docker := { image := "alpine" } } }] }

/-- A name without any character of identifiers is accepted, and leaves its task step without a name. -/
theorem taskName_lost :
    Lint.hasErrors (Lint.run {} Lint.sampleSurroundings (namedPipeline "!!!")) = false
      ∧ ∃ p, render {} (namedPipeline "!!!").withDefaults = .ok p ∧ ∃ j ∈ p.jobs, "" ∈ j.taskNames := by
  have haccepted :
      Lint.hasErrors (Lint.run {} Lint.sampleSurroundings (namedPipeline "!!!")) = false := by
    decide +kernel
  have hrenderable := (Lint.renderable_of_accepted haccepted).withDefaults
  obtain ⟨js, hp, hjobs⟩ := render_eq_ok {} hrenderable
  obtain ⟨e, he, namesake, hmem, hnone⟩ : ∃ e ∈ Task.leaves (namedPipeline "!!!").withDefaults.tasks,
      ∃ namesake ∈ namesakes e.2,
        ¬(namesake.attributes.name = "" ∨ Text.hasIdentifier namesake.attributes.name = true) := by
    decide +kernel
  obtain ⟨j, hj, hrealises⟩ := exists_of_mem_left hjobs he
  obtain ⟨steps, hconsists⟩ := consists_of_renderable hrenderable he hrealises
  have hunchecked :=
    rollsUnchecked_of_clean (Lint.tasksFindings_clean haccepted) (List.mem_map_of_mem he)
  refine ⟨haccepted, _, hp, j, hj, ?_⟩
  by_contra hall
  have hnames : ∀ name ∈ j.taskNames, name ≠ "" := fun name hname hempty => hall (hempty ▸ hname)
  exact hnone ((taskNames_ne_empty_iff hconsists hunchecked).1 hnames namesake hmem)

end Concourse

end PipelineCompiler

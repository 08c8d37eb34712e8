import PipelineCompiler.Proofs.Concourse.Container
import PipelineCompiler.Proofs.Providers

/-!
# Where artifacts are copied to

A script copies the artifacts that it names into a folder from which they are uploaded. Below that folder an
artifact keeps its place: the base path is followed first, and then the directory of the artifact. The two
together may climb, and nothing keeps them from leaving the folder. `copies_of_accepted` says for which
artifacts the copy stays inside of it.
-/

namespace PipelineCompiler.Concourse

open PipelineCompiler.Path (join)

/-- What is copied: artifacts, each with the folder that it is copied into. -/
def copiesOf (a : Attributes) : List (String × String) :=
  a.saveArtifacts.map (savedDir, ·) ++ a.saveArtifactsOnFailure.map (savedOnFailureDir, ·)

/-- The commands of the container, which are run in the directory, copy the artifact to the destination. -/
def Container.Copies (k : Container) (dir artifact destination : String) : Prop :=
  ∃ commands, k.command = shell ("\n".intercalate commands) (some dir)
    ∧ ∃ indent, indent ++ ("copyArtifact " ++ artifact ++ " " ++ destination) ∈ commands

/-- A container of the plan that shares the folder copies the artifact to the place. -/
def Job.CopiesTo (j : Job) (folder artifact place : String) : Prop :=
  ∃ t ∈ Step.collect Step.task? j.plan, folder ∈ t.container.outputs
    ∧ ∃ dir destination, t.container.Copies dir artifact destination ∧ place = join [dir, destination]

/-- The copy of the artifact stays inside of the folder: the base path and the directory of the artifact do
not climb together, or they climb out of the folder and come straight back. -/
def KeepsInside (base folder artifact : String) : Prop :=
  Path.Returns folder (Path.resolve [base.toList, (parentDir artifact).toList])

instance (base folder artifact : String) : Decidable (KeepsInside base folder artifact) := by
  unfold KeepsInside
  infer_instance

/-! ## Containers of scripts -/

section Scripts

variable {m : Manifest} {s : Script} {copy : String × String}

theorem mem_copiesOf {a : Attributes} :
    copy ∈ copiesOf a ↔ (copy.1 = savedDir ∧ copy.2 ∈ a.saveArtifacts)
      ∨ (copy.1 = savedOnFailureDir ∧ copy.2 ∈ a.saveArtifactsOnFailure) := by
  obtain ⟨folder, artifact⟩ := copy
  simp [copiesOf, eq_comm, and_comm]

/-- Every copy of a script is made by its container. -/
theorem container_copies (h : copy ∈ copiesOf s.attributes) :
    (ScriptStep.container m s).Copies (workingDir m.basePath) copy.2
      (artifactDestination gitDir m.basePath copy.1 copy.2) := by
  refine ⟨_, rfl, ?_⟩
  rcases mem_copiesOf.1 h with ⟨hfolder, hartifact⟩ | ⟨hfolder, hartifact⟩
  · have hsome : s.attributes.saveArtifacts.isEmpty ≠ true := by
      simpa using List.ne_nil_of_mem hartifact
    refine ⟨"", List.mem_append_right _ ?_⟩
    rw [if_neg hsome, hfolder]
    exact List.mem_append_right _ (List.mem_map.2 ⟨copy.2, hartifact, (String.empty_append ..).symm⟩)
  · have hsome : s.attributes.saveArtifactsOnFailure.isEmpty ≠ true := by
      simpa using List.ne_nil_of_mem hartifact
    refine ⟨"  ", List.mem_append_left _ (List.mem_append_left _ (List.mem_append_right _ ?_))⟩
    rw [if_neg hsome, hfolder]
    exact List.mem_cons_of_mem _ (List.mem_map.2 ⟨copy.2, hartifact, rfl⟩)

/-- The folder of a copy is shared with the steps after the container. -/
theorem container_shares (h : copy ∈ copiesOf s.attributes) :
    copy.1 ∈ (ScriptStep.container m s).outputs := by
  obtain ⟨hsaves, honFailure, -⟩ := Script.artifacts_of_isScript (l := s.leaf) rfl
  rcases mem_copiesOf.1 h with ⟨hfolder, hartifact⟩ | ⟨hfolder, hartifact⟩
  · have hsome : s.leaf.savesArtifacts = true := by
      rw [hsaves, Bool.not_eq_true', List.isEmpty_eq_false_iff]
      exact List.ne_nil_of_mem hartifact
    rw [hfolder, ScriptStep.container, if_pos hsome]
    exact List.mem_append_left _ (List.mem_singleton_self _)
  · have hsome : s.leaf.savesArtifactsOnFailure = true := by
      rw [honFailure, Bool.not_eq_true', List.isEmpty_eq_false_iff]
      exact List.ne_nil_of_mem hartifact
    rw [hfolder, ScriptStep.container, if_pos hsome]
    exact List.mem_append_right _ (List.mem_singleton_self _)

/-- The script of a leaf copies what the leaf names. -/
theorem copiesOf_ofLeaf? {c : Config} {l : Leaf} (hs : Script.ofLeaf? c m l = some s) :
    copiesOf s.attributes = copiesOf l.attributes := by
  obtain ⟨name, vars, hattributes⟩ := Script.attributes_ofLeaf? hs
  rw [hattributes]
  rfl

end Scripts

/-! ## Copies of a job -/

theorem isName_folder {a : Attributes} {copy : String × String} (h : copy ∈ copiesOf a) :
    Path.IsName copy.1 := by
  rcases mem_copiesOf.1 h with ⟨hfolder, -⟩ | ⟨hfolder, -⟩
  · rw [hfolder]
    decide
  · rw [hfolder]
    decide

/-- From the working directory, the destination of a copy is below its folder where the artifact is below
the directory of the manifest. -/
theorem join_destination {base : String} (hbase : Path.Descends base.toList) (folder artifact : String) :
    join [workingDir base, artifactDestination gitDir base folder artifact]
      = join [folder, base, parentDir artifact] :=
  (Path.join_append_join [] [gitDir, base] _).trans
    (join_artifactDestination (by decide) hbase folder artifact)

section Jobs

variable {c : Config} {m : Manifest} {resources : ResourceSet} {l : Leaf} {passed : List String} {j : Job}
  {steps : List Step}

/-- The job of a leaf makes every copy that a script of it names, and it stays inside of its folder just if
`KeepsInside` says so. -/
theorem exists_copiesTo (h : Consists c m resources l passed j steps) (hadmits : m.Admits l)
    (hunchecked : RollsUnchecked l) (hbase : Path.Descends m.basePath.toList) {runner : Leaf}
    (hrunner : runner ∈ Script.runners l) {copy : String × String}
    (hcopy : copy ∈ copiesOf runner.attributes) :
    ∃ place, j.CopiesTo copy.1 copy.2 place
      ∧ (Path.Inside copy.1 place ↔ KeepsInside m.basePath copy.1 copy.2) := by
  obtain ⟨s, hs⟩ := Script.exists_ofLeaf? c m (Script.isScript_of_mem_runners hadmits hrunner)
  rw [← copiesOf_ofLeaf? hs] at hcopy
  obtain ⟨env, t, ht, hcontainer, -⟩ := exists_runs_of_consists h hunchecked hrunner hs
  refine ⟨_, ⟨t, ht, hcontainer ▸ container_shares hcopy, _, _, hcontainer ▸ container_copies hcopy, rfl⟩, ?_⟩
  rw [join_destination hbase, Path.inside_join_cons_iff (isName_folder hcopy)]
  rfl

end Jobs

/-! ## The pipeline of an accepted manifest -/

/-- The job makes every copy that what runs for its leaf names, and those stay inside of their folders that
`KeepsInside` describes. -/
def Job.CopiesAll (m : Manifest) (j : Job) (l : Leaf) : Prop :=
  ∀ runner ∈ Script.runners l, ∀ copy ∈ copiesOf runner.attributes,
    ∃ place, j.CopiesTo copy.1 copy.2 place
      ∧ (Path.Inside copy.1 place ↔ KeepsInside m.basePath copy.1 copy.2)

theorem copiesAll_of_realises {c : Config} {m : Manifest} {files : FileProbe}
    (h : m.withDefaults.Renderable) (hclean : (Lint.tasksFindings m files).Clean)
    (hbase : Path.Descends m.basePath.toList) {e : TaskPath × Leaf} {j : Job}
    (he : e ∈ Task.leaves m.withDefaults.tasks)
    (hj : Realises c m.withDefaults (ResourceSet.ofManifest c m.withDefaults) e j) :
    j.CopiesAll m e.2 := by
  have hl : e.2 ∈ Task.flatten m.withDefaults.tasks := List.mem_map_of_mem he
  have hsame : m.withDefaults.basePath = m.basePath := by
    rw [Manifest.withDefaults_eq]
    rfl
  obtain ⟨steps, hconsists⟩ := consists_of_renderable h he hj
  intro runner hrunner copy hcopy
  have hplace := exists_copiesTo hconsists (h.leaves e.2 hl) (rollsUnchecked_of_clean hclean hl)
    (hsame ▸ hbase) hrunner hcopy
  rwa [hsame] at hplace

/-- In the pipeline of a manifest without lint errors, its defaults filled in, the copy of an artifact that
a script names stays inside of the folder that is uploaded just if the base path and the directory of the
artifact do not climb out of it. -/
theorem copies_of_accepted (c : Config) (s : Surroundings) (m : Manifest)
    (h : Lint.hasErrors (Lint.run c s m) = false) (hbase : Path.Descends m.basePath.toList) :
    ∃ p, render c m.withDefaults = .ok p
      ∧ List.Forall₂ (fun e j => j.CopiesAll m e.2) (Task.leaves m.withDefaults.tasks) p.jobs := by
  have hrenderable := (Lint.renderable_of_accepted h).withDefaults
  obtain ⟨js, hrender, hjobs⟩ := render_eq_ok c hrenderable
  refine ⟨_, hrender, forall₂_imp_mem hjobs fun e he j _ hj => ?_⟩
  exact copiesAll_of_realises hrenderable (Lint.tasksFindings_clean h) hbase he hj

/-- A manifest at a path of its repository, with a script that saves an artifact, and a log if it fails. -/
def artifactAt (base artifact : String) : Manifest where
  team := "acme"
  pipeline := "app"
  triggers :=
    [.git { uri := "git@github.com:acme/app", privateKey := "((deploy.key))", basePath := base }]
  tasks :=
    [.leaf
        { attributes :=
            { name := "build", saveArtifacts := [artifact], saveArtifactsOnFailure := ["build.log"] }
          action := .run { script := "./build", docker := { image := "alpine" } } }]

/-- An artifact beside the manifest is copied inside of the folder if its directory has a place there. -/
theorem nestedArtifact_kept :
    Lint.hasErrors (Lint.run {} Lint.sampleSurroundings (artifactAt "apps/web" "../lib/app.jar")) = false
      ∧ Path.Descends (artifactAt "apps/web" "../lib/app.jar").basePath.toList
      ∧ KeepsInside "apps/web" savedDir "../lib/app.jar"
      ∧ ∃ p, render {} (artifactAt "apps/web" "../lib/app.jar").withDefaults = .ok p
        ∧ List.Forall₂ (fun e j => j.CopiesAll (artifactAt "apps/web" "../lib/app.jar") e.2)
          (Task.leaves (artifactAt "apps/web" "../lib/app.jar").withDefaults.tasks) p.jobs := by
  have haccepted : Lint.hasErrors
      (Lint.run {} Lint.sampleSurroundings (artifactAt "apps/web" "../lib/app.jar")) = false := by
    decide +kernel
  have hbase : Path.Descends (artifactAt "apps/web" "../lib/app.jar").basePath.toList := by decide
  have hkept : KeepsInside "apps/web" savedDir "../lib/app.jar" := by decide +kernel
  exact ⟨haccepted, hbase, hkept, copies_of_accepted {} _ _ haccepted hbase⟩

/-- At the root of the repository it is copied beside the folder, and what is uploaded lacks it. -/
theorem rootArtifact_astray :
    Lint.hasErrors (Lint.run {} Lint.sampleSurroundings (artifactAt "" "../lib/app.jar")) = false
      ∧ Path.Descends (artifactAt "" "../lib/app.jar").basePath.toList
      ∧ ∃ p, render {} (artifactAt "" "../lib/app.jar").withDefaults = .ok p ∧ p.jobs.length = 1
        ∧ ∀ j ∈ p.jobs, ∃ place, j.CopiesTo savedDir "../lib/app.jar" place
          ∧ ¬ Path.Inside savedDir place := by
  have haccepted : Lint.hasErrors
      (Lint.run {} Lint.sampleSurroundings (artifactAt "" "../lib/app.jar")) = false := by
    decide +kernel
  have hbase : Path.Descends (artifactAt "" "../lib/app.jar").basePath.toList := by decide
  have hcopied : ∀ e ∈ Task.leaves (artifactAt "" "../lib/app.jar").withDefaults.tasks,
      ∃ runner ∈ Script.runners e.2, (savedDir, "../lib/app.jar") ∈ copiesOf runner.attributes := by
    decide +kernel
  have hastray : ¬ KeepsInside "" savedDir "../lib/app.jar" := by decide +kernel
  have hrenderable := (Lint.renderable_of_accepted haccepted).withDefaults
  obtain ⟨js, hrender, hjobs⟩ := render_eq_ok {} hrenderable
  refine ⟨haccepted, hbase, _, hrender, hjobs.length_eq.symm.trans (by decide), fun j hj => ?_⟩
  obtain ⟨e, he, hrealises⟩ := exists_of_mem_right hjobs hj
  obtain ⟨runner, hrunner, hcopy⟩ := hcopied e he
  have hall := copiesAll_of_realises hrenderable (Lint.tasksFindings_clean haccepted) hbase he hrealises
  obtain ⟨place, hcopies, hinside⟩ := hall runner hrunner _ hcopy
  exact ⟨place, hcopies, fun hin => hastray (hinside.1 hin)⟩

end PipelineCompiler.Concourse

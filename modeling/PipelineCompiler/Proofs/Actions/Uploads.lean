import PipelineCompiler.Proofs.Actions.Steps
import PipelineCompiler.Proofs.Lint.Accepted
import PipelineCompiler.Proofs.Task.Artifacts

/-!
# What jobs of a workflow upload

A leaf and the checks of its candidate may name artifacts to save, after a success or a failure. Only
the steps of a script end with uploads. The other jobs have none, whatever their leaves and the checks
name: `keepsArtifacts` says which leaves lose nothing by it, and `keeps_iff_of_job` that all others do.
-/

namespace PipelineCompiler.Actions

/-! ## Uploads -/

/-- When artifacts are saved. -/
inductive Outcome where
  | success
  | failure
deriving DecidableEq, Repr

namespace Outcome

/-- The artifacts to save. -/
def artifacts : Outcome → Attributes → List String
  | .success => Attributes.saveArtifacts
  | .failure => Attributes.saveArtifactsOnFailure

/-- The name that they are saved under. -/
def name : Outcome → String
  | .success => savedName
  | .failure => savedOnFailureName

/-- The condition of a step that saves them. -/
def condition? : Outcome → Option String
  | .success => none
  | .failure => some onFailureCondition

/-- The leaf counts as saving artifacts. -/
def saves : Outcome → Leaf → Bool
  | .success => LeafOf.savesArtifacts
  | .failure => LeafOf.savesArtifactsOnFailure

theorem forall_iff {P : Outcome → Prop} : (∀ o, P o) ↔ P .success ∧ P .failure := by
  constructor
  · exact fun h => ⟨h .success, h .failure⟩
  · rintro ⟨hsuccess, hfailure⟩ (_ | _)
    · exact hsuccess
    · exact hfailure

end Outcome

/-- The action that uploads artifacts. -/
def uploadAction : String := "actions/upload-artifact"

/-- The step uploads artifacts, in whatever version. -/
def Step.IsUpload (s : Step) : Prop := s.action?.map bareAction = some uploadAction

/-- The step uploads the file after the outcome. -/
structure Step.Uploads (s : Step) (o : Outcome) (path : String) : Prop where
  upload : s.IsUpload
  name : s.input? "name" = some o.name
  path : ∃ paths, s.input? "path" = some ("\n".intercalate paths) ∧ path ∈ paths
  condition : s.condition = o.condition?

/-- The leaf and the leaves that check its candidate. -/
def savers (l : Leaf) : List Leaf :=
  match l.action with
  | .deployCf _ prePromote => l :: Task.flatten prePromote
  | _ => [l]

/-- The job uploads every artifact that its leaf, or a check of its candidate, is to save. -/
def Job.Keeps (basePath : String) (j : Job) (l : Leaf) : Prop :=
  ∀ (o : Outcome), ∀ saver ∈ savers l, ∀ path ∈ o.artifacts saver.attributes,
    ∃ s ∈ j.steps, s.Uploads o (repoPath basePath path)

/-- The leaf runs as a script or saves nothing. -/
def keepsArtifacts (l : Leaf) : Bool :=
  l.action.isScript || !(l.savesArtifacts || l.savesArtifactsOnFailure)

/-! ## What there is to save -/

section Savers

variable {m : Manifest} {l : Leaf} {o : Outcome}

/-- A leaf that runs as a script saves the artifacts that it names. -/
theorem saves_of_isScript (h : l.action.isScript = true) :
    o.saves l = true ↔ o.artifacts l.attributes ≠ [] := by
  obtain ⟨hsaves, honFailure, -⟩ := Script.artifacts_of_isScript h
  cases o with
  | success => simp [Outcome.saves, Outcome.artifacts, hsaves]
  | failure => simp [Outcome.saves, Outcome.artifacts, honFailure]

/-- A deployment saves the artifacts that it names, and what its checks save. -/
theorem saves_deployCf {d : DeployCf} {prePromote : List Task}
    (haction : l.action = .deployCf d prePromote) :
    o.saves l = true
      ↔ o.artifacts l.attributes ≠ [] ∨ ∃ check ∈ Task.flatten prePromote, o.saves check = true := by
  obtain ⟨attributes, action⟩ := l
  obtain rfl : action = .deployCf d prePromote := haction
  cases o with
  | success =>
      simp [Outcome.saves, Outcome.artifacts, LeafOf.savesArtifacts, Action.savesArtifacts,
        Task.anySavesArtifacts_iff]
  | failure =>
      simp [Outcome.saves, Outcome.artifacts, LeafOf.savesArtifactsOnFailure,
        Action.savesArtifactsOnFailure, Task.anySavesArtifactsOnFailure_iff]

/-- Only a deployment has checks that may save artifacts for it. -/
theorem savers_of_isScript (h : l.action.isScript = true) : savers l = [l] := by
  rw [savers]
  cases haction : l.action with
  | deployCf d prePromote =>
      rw [haction] at h
      exact absurd h Bool.false_ne_true
  | _ => rfl

/-- A leaf saves artifacts just if it, or a check of its candidate, names some. -/
theorem saves_iff_exists_saver (hadmits : m.Admits l) :
    o.saves l = true ↔ ∃ saver ∈ savers l, o.artifacts saver.attributes ≠ [] := by
  rw [savers]
  rw [Manifest.Admits] at hadmits
  cases haction : l.action with
  | deployCf d prePromote =>
      rw [haction] at hadmits
      have hcheck : ∀ check ∈ Task.flatten prePromote,
          (o.saves check = true ↔ o.artifacts check.attributes ≠ []) :=
        fun check hl => saves_of_isScript (Script.isScript_of_isCheck hadmits hl)
      rw [saves_deployCf haction]
      simp only [List.exists_mem_cons_iff]
      exact or_congr_right (exists_congr fun check => and_congr_right (hcheck check))
  | _ =>
      obtain ⟨attributes, action⟩ := l
      obtain rfl := haction
      cases o <;>
        simp [Outcome.saves, Outcome.artifacts, LeafOf.savesArtifacts, Action.savesArtifacts,
          LeafOf.savesArtifactsOnFailure, Action.savesArtifactsOnFailure]

end Savers

/-! ## Uploads of a script -/

section Scripts

variable {o : Outcome}

/-- The steps that save what a leaf names upload all of it. -/
theorem exists_upload (basePath : String) {a : Attributes} {path : String} (h : path ∈ o.artifacts a) :
    ∃ s ∈ saveSteps basePath a, s.Uploads o (repoPath basePath path) := by
  have hpaths : repoPath basePath path ∈ (o.artifacts a).map (repoPath basePath) :=
    List.mem_map_of_mem h
  have hne : ¬ (o.artifacts a).isEmpty = true := by
    rw [List.isEmpty_iff]
    exact List.ne_nil_of_mem h
  cases o with
  | success =>
      have hmem : uploadStep basePath "Package artifacts" savedName a.saveArtifacts
          ∈ saveSteps basePath a := by
        rw [saveSteps]
        exact List.mem_append_left _ (List.mem_ite_nil_left.2 ⟨hne, List.mem_singleton.2 rfl⟩)
      exact ⟨_, hmem, (uses_iff rfl).2 (by decide), rfl, ⟨_, rfl, hpaths⟩, rfl⟩
  | failure =>
      have hmem : { uploadStep basePath "Package artifacts (failure)" savedOnFailureName
            a.saveArtifactsOnFailure with condition := some onFailureCondition }
          ∈ saveSteps basePath a := by
        rw [saveSteps]
        exact List.mem_append_right _ (List.mem_ite_nil_left.2 ⟨hne, List.mem_singleton.2 rfl⟩)
      exact ⟨_, hmem, (uses_iff rfl).2 (by decide), rfl, ⟨_, rfl, hpaths⟩, rfl⟩

/-- The script of a leaf names the artifacts that the leaf names. -/
theorem artifacts_ofLeaf? {c : Config} {m : Manifest} {l : Leaf} {s : Script}
    (hs : Script.ofLeaf? c m l = some s) : o.artifacts s.attributes = o.artifacts l.attributes := by
  obtain ⟨name, vars, hattributes⟩ := Script.attributes_ofLeaf? hs
  rw [hattributes]
  cases o with
  | success => rfl
  | failure => rfl

end Scripts

/-! ## Steps without uploads -/

/-- No step uploads artifacts. -/
def Silent (steps : List Step) : Prop := ∀ s ∈ steps, ¬ s.IsUpload

theorem silent_iff_without {steps : List Step} : Silent steps ↔ Without uploadAction steps := Iff.rfl

theorem isSpecial_uploadAction : IsSpecial uploadAction := ⟨by decide, by decide⟩

theorem silent_messageSteps (l : Leaf) : Silent (messageSteps l) :=
  without_messageSteps (by decide) l

/-! ## Jobs -/

section Jobs

variable {c : Config} {m : Manifest} {l : Leaf} {id : String} {needs : List String} {j : Job}

/-- The job of a leaf uploads nothing if the leaf names no artifacts, or does not run as a script. -/
theorem silent_of_job (h : job c m id l needs = .ok j)
    (hnone : l.action.isScript = true → ∀ o : Outcome, o.artifacts l.attributes = []) :
    Silent j.steps := by
  obtain ⟨steps, hbody, hj⟩ := body_of_job h
  rw [hj, silent_iff_without, without_append]
  refine ⟨without_body isSpecial_uploadAction hbody fun s hs => ?_, silent_messageSteps l⟩
  have hartifacts (o : Outcome) : o.artifacts s.attributes = [] :=
    (artifacts_ofLeaf? hs).trans (hnone (Script.isScript_of_ofLeaf? hs) o)
  have hsaved : s.attributes.saveArtifacts = [] := hartifacts .success
  have hsavedOnFailure : s.attributes.saveArtifactsOnFailure = [] := hartifacts .failure
  rw [saveSteps, hsaved, hsavedOnFailure]
  exact without_nil

/-- The job of a leaf that does not run as a script uploads nothing. -/
theorem silent_of_not_isScript (h : job c m id l needs = .ok j) (hscript : l.action.isScript = false) :
    Silent j.steps :=
  silent_of_job h fun hscript' => absurd (hscript.symm.trans hscript') Bool.false_ne_true

/-- The job of a leaf that saves nothing uploads nothing. -/
theorem silent_of_saves_nothing (h : job c m id l needs = .ok j)
    (hnone : ∀ o : Outcome, o.saves l = false) : Silent j.steps := by
  refine silent_of_job h fun hscript o => ?_
  by_contra hne
  exact absurd ((hnone o).symm.trans ((saves_of_isScript hscript).2 hne)) Bool.false_ne_true

/-- The job of a leaf that runs as a script uploads all that the leaf names. -/
theorem keeps_of_isScript (h : job c m id l needs = .ok j) (hscript : l.action.isScript = true) :
    j.Keeps m.basePath l := by
  obtain ⟨s, hs, hj⟩ := exists_scriptSteps h hscript
  intro o saver hsaver path hpath
  rw [savers_of_isScript hscript, List.mem_singleton] at hsaver
  rw [hsaver, ← artifacts_ofLeaf? hs] at hpath
  obtain ⟨step, hstep, huploads⟩ := exists_upload m.basePath hpath
  refine ⟨step, ?_, huploads⟩
  rw [hj, scriptSteps]
  exact List.mem_append_left _ (List.mem_append_right _ hstep)

/-- A job uploads what there is to save just if its leaf runs as a script or there is nothing. -/
theorem keeps_iff_of_job (hadmits : m.Admits l) (h : job c m id l needs = .ok j) :
    j.Keeps m.basePath l ↔ keepsArtifacts l = true := by
  by_cases hscript : l.action.isScript = true
  · have hkeeps : keepsArtifacts l = true := by rw [keepsArtifacts, hscript, Bool.true_or]
    exact iff_of_true (keeps_of_isScript h hscript) hkeeps
  rw [Bool.not_eq_true] at hscript
  have hnothing : keepsArtifacts l = true ↔ ∀ o : Outcome, o.saves l = false := by
    rw [keepsArtifacts, hscript, Bool.false_or, Bool.not_eq_true', Bool.or_eq_false_iff,
      Outcome.forall_iff]
    rfl
  rw [hnothing]
  constructor
  · intro hkeeps o
    by_contra hsaves
    rw [Bool.not_eq_false] at hsaves
    obtain ⟨saver, hsaver, hne⟩ := (saves_iff_exists_saver hadmits).1 hsaves
    obtain ⟨path, hpath⟩ := List.exists_mem_of_ne_nil _ hne
    obtain ⟨s, hs, huploads⟩ := hkeeps o saver hsaver path hpath
    exact silent_of_not_isScript h hscript s hs huploads.upload
  · intro hnone o saver hsaver path hpath
    have hsaves : o.saves l = true :=
      (saves_iff_exists_saver hadmits).2 ⟨saver, hsaver, List.ne_nil_of_mem hpath⟩
    exact absurd ((hnone o).symm.trans hsaves) Bool.false_ne_true

end Jobs

/-! ## The workflow of an accepted manifest -/

/-- In the workflow of a manifest without lint errors, its defaults filled in, the jobs that upload every
artifact which their leaf or a check of its candidate names are those of the leaves that run as scripts
or save nothing. -/
theorem keeps_of_accepted (c : Config) (s : Surroundings) (m : Manifest)
    (h : Lint.hasErrors (Lint.run c s m) = false) :
    ∃ w, render c m.withDefaults = .ok w
      ∧ List.Forall₂ (fun e j => j.Keeps m.withDefaults.basePath e.2 ↔ keepsArtifacts e.2 = true)
        (Task.leaves m.withDefaults.tasks) w.jobs := by
  have hrenderable := (Lint.renderable_of_accepted h).withDefaults
  obtain ⟨w, hrender, hjobs⟩ := render_eq_ok c hrenderable
  refine ⟨w, hrender, forall₂_imp_mem hjobs fun e he j _ hj => ?_⟩
  exact keeps_iff_of_job (hrenderable.leaves e.2 (List.mem_map_of_mem he)) hj

/-- The manifest of a workflow with tests, an image build and a deployment that is checked. -/
def sampleWorkflow : Manifest where
  team := "acme"
  pipeline := "app"
  platform := .actions
  triggers := [.git { uri := "https://github.com/acme/app" }]
  tasks :=
    [Lint.sampleScript "test",
      .leaf
        { attributes := { name := "image" }
          action := .dockerPush { image := "acme/app" } },
      .leaf
        { attributes := { name := "deploy", restoreArtifacts := true }
          action := .deployCf { api := "api", org := "acme", space := "live" }
            [Lint.sampleScript "smoke"] }]

theorem sampleWorkflow_keeps :
    Lint.hasErrors (Lint.run {} Lint.sampleSurroundings sampleWorkflow) = false
      ∧ ∃ w, render {} sampleWorkflow.withDefaults = .ok w
        ∧ List.Forall₂
          (fun e j => j.Keeps sampleWorkflow.withDefaults.basePath e.2 ↔ keepsArtifacts e.2 = true)
          (Task.leaves sampleWorkflow.withDefaults.tasks) w.jobs := by
  have haccepted : Lint.hasErrors (Lint.run {} Lint.sampleSurroundings sampleWorkflow) = false := by
    decide +kernel
  exact ⟨haccepted, keeps_of_accepted {} _ _ haccepted⟩

/-- An image build that is to save artifacts, whatever its outcome, and a script that restores them. -/
def droppedWorkflow : Manifest where
  team := "acme"
  pipeline := "app"
  platform := .actions
  triggers := [.git { uri := "https://github.com/acme/app" }]
  tasks :=
    [.leaf
        { attributes := { name := "image", saveArtifacts := ["out"], saveArtifactsOnFailure := ["log"] }
          action := .dockerPush { image := "acme/app" } },
      .leaf
        { attributes := { name := "use", restoreArtifacts := true }
          action := .run { script := "./use", docker := { image := "alpine" } } }]

/-- There is something to save and something to restore, but no job uploads anything. -/
theorem droppedWorkflow_dropped :
    Lint.hasErrors (Lint.run {} Lint.sampleSurroundings droppedWorkflow) = false
      ∧ (∃ e ∈ Task.leaves droppedWorkflow.withDefaults.tasks, ∀ o : Outcome, o.saves e.2 = true)
      ∧ (∃ e ∈ Task.leaves droppedWorkflow.withDefaults.tasks, e.2.readsArtifacts = true)
      ∧ ∃ w, render {} droppedWorkflow.withDefaults = .ok w ∧ w.jobs.length = 2
        ∧ ∀ j ∈ w.jobs, Silent j.steps := by
  have haccepted : Lint.hasErrors (Lint.run {} Lint.sampleSurroundings droppedWorkflow) = false := by
    decide +kernel
  have hleaves : ∀ e ∈ Task.leaves droppedWorkflow.withDefaults.tasks,
      e.2.action.isScript = false
        ∨ (e.2.savesArtifacts = false ∧ e.2.savesArtifactsOnFailure = false) := by
    decide +kernel
  have hsaves : ∃ e ∈ Task.leaves droppedWorkflow.withDefaults.tasks,
      e.2.savesArtifacts = true ∧ e.2.savesArtifactsOnFailure = true := by
    decide +kernel
  have hreads : ∃ e ∈ Task.leaves droppedWorkflow.withDefaults.tasks, e.2.readsArtifacts = true := by
    decide +kernel
  have hrenderable := (Lint.renderable_of_accepted haccepted).withDefaults
  obtain ⟨w, hrender, hjobs⟩ := render_eq_ok {} hrenderable
  obtain ⟨e, he, hsaves⟩ := hsaves
  refine ⟨haccepted, ⟨e, he, Outcome.forall_iff.2 hsaves⟩, hreads, w, hrender,
    hjobs.length_eq.symm.trans (by decide), fun j hj => ?_⟩
  obtain ⟨e, he, hjob⟩ := exists_of_mem_right hjobs hj
  rcases hleaves e he with hscript | hnone
  · exact silent_of_not_isScript hjob hscript
  · exact silent_of_saves_nothing hjob (Outcome.forall_iff.2 hnone)

end PipelineCompiler.Actions

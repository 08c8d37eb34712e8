import PipelineCompiler.Proofs.Actions.Messages
import PipelineCompiler.Proofs.Concourse.Messages

/-!
# Messages of both build servers

Both build servers send the messages of the manifest as it was written: the jobs of the two stand in the
order of the leaves, and each sends what `Manifest.messages` has for its leaf, with the text of its own
build server where nobody gave one.
-/

namespace PipelineCompiler

/-- For a manifest without lint errors, its defaults filled in, both build servers have a job for each of
its leaves, the inserted update included, that tells the channels of the leaf how it ended, and nobody
else. -/
theorem messages_of_accepted (c : Config) (s : Surroundings) (m : Manifest)
    (h : Lint.hasErrors (Lint.run c s m) = false) :
    ∃ p w, Concourse.render c m.withDefaults = .ok p ∧ Actions.render c m.withDefaults = .ok w
      ∧ List.Forall₂ (fun e j => Concourse.Job.Tells m e.2 j) (Task.leaves m.withUpdateTask.tasks) p.jobs
      ∧ List.Forall₂ (fun e j => Actions.Job.Tells m e.2 j) (Task.leaves m.withUpdateTask.tasks) w.jobs := by
  have hrenderable := (Lint.renderable_of_accepted h).withDefaults
  obtain ⟨p, hp, hpipeline⟩ := Concourse.tells_of_renderable c hrenderable
  obtain ⟨w, hw, hworkflow⟩ := Actions.tells_of_renderable c hrenderable
  exact ⟨p, w, hp, hw, hpipeline, hworkflow⟩

/-- A manifest with a channel, one leaf that is told about with the text of the pipeline, and one whose
author names channels and a text. -/
def toldManifest : Manifest where
  team := "acme"
  pipeline := "app"
  slackChannel := "#acme"
  slackFailureMessage := "broken"
  featureToggles := [updatePipelineToggle]
  triggers := [.git { uri := "git@github.com:acme/app", privateKey := "((deploy.key))" }]
  tasks :=
    [Lint.sampleScript "test",
      .leaf
        { attributes :=
            { name := "lint"
              notifications := some { onFailure := ["#a", "#b"], onFailureMessage := "untidy" } }
          action := .run { script := "./lint", docker := { image := "alpine" } } }]

theorem toldManifest_tells :
    Lint.hasErrors (Lint.run {} Lint.sampleSurroundings toldManifest) = false
      ∧ ∃ p w, Concourse.render {} toldManifest.withDefaults = .ok p
        ∧ Actions.render {} toldManifest.withDefaults = .ok w
        ∧ List.Forall₂ (fun e j => Concourse.Job.Tells toldManifest e.2 j)
          (Task.leaves toldManifest.withUpdateTask.tasks) p.jobs
        ∧ List.Forall₂ (fun e j => Actions.Job.Tells toldManifest e.2 j)
          (Task.leaves toldManifest.withUpdateTask.tasks) w.jobs := by
  have haccepted : Lint.hasErrors (Lint.run {} Lint.sampleSurroundings toldManifest) = false := by
    decide +kernel
  exact ⟨haccepted, messages_of_accepted {} _ _ haccepted⟩

end PipelineCompiler

import PipelineCompiler.Task.Tree

/-!
# Artifacts

Which leaves restore artifacts and which save them. A deployment to Cloud Foundry counts what the
tasks that check its candidate do, and it restores artifacts as well when it is handed a path into
them.
-/

namespace PipelineCompiler

/-- The path leads into restored artifacts. -/
def inArtifacts (path : String) : Bool := Text.startsWith path artifactsPrefix

mutual

/-- The leaf needs artifacts restored before it runs. -/
def LeafOf.readsArtifacts : LeafOf Task → Bool
  | ⟨attributes, action⟩ => attributes.restoreArtifacts || Action.readsArtifacts action

/-- The action reads artifacts whatever the attributes of its leaf say. -/
def Action.readsArtifacts : Action Task → Bool
  | .deployCf deploy prePromote =>
    inArtifacts deploy.manifest || inArtifacts deploy.deployArtifact
      || Task.anyReadsArtifacts prePromote
  | .run _ | .dockerPush _ | .dockerCompose _ | .deployMlZip _ | .deployMlModules _
  | .consumerTest _ | .deployKatee _ | .update _ => false

/-- The task or one below it restores artifacts. -/
def Task.readsArtifacts : Task → Bool
  | .leaf l => LeafOf.readsArtifacts l
  | .sequence tasks => Task.anyReadsArtifacts tasks
  | .parallel tasks => Task.anyReadsArtifacts tasks

/-- Some task restores artifacts. -/
def Task.anyReadsArtifacts : List Task → Bool
  | [] => false
  | t :: rest => Task.readsArtifacts t || Task.anyReadsArtifacts rest

end

mutual

/-- The leaf saves artifacts when it succeeds. -/
def LeafOf.savesArtifacts : LeafOf Task → Bool
  | ⟨attributes, action⟩ => !attributes.saveArtifacts.isEmpty || Action.savesArtifacts action

/-- The action saves artifacts on success whatever the attributes of its leaf say. -/
def Action.savesArtifacts : Action Task → Bool
  | .deployCf _ prePromote => Task.anySavesArtifacts prePromote
  | .run _ | .dockerPush _ | .dockerCompose _ | .deployMlZip _ | .deployMlModules _
  | .consumerTest _ | .deployKatee _ | .update _ => false

/-- The task or one below it saves artifacts on success. -/
def Task.savesArtifacts : Task → Bool
  | .leaf l => LeafOf.savesArtifacts l
  | .sequence tasks => Task.anySavesArtifacts tasks
  | .parallel tasks => Task.anySavesArtifacts tasks

/-- Some task saves artifacts on success. -/
def Task.anySavesArtifacts : List Task → Bool
  | [] => false
  | t :: rest => Task.savesArtifacts t || Task.anySavesArtifacts rest

end

mutual

/-- The leaf saves artifacts when it fails. -/
def LeafOf.savesArtifactsOnFailure : LeafOf Task → Bool
  | ⟨attributes, action⟩ =>
    !attributes.saveArtifactsOnFailure.isEmpty || Action.savesArtifactsOnFailure action

/-- The action saves artifacts on failure whatever the attributes of its leaf say. -/
def Action.savesArtifactsOnFailure : Action Task → Bool
  | .deployCf _ prePromote => Task.anySavesArtifactsOnFailure prePromote
  | .run _ | .dockerPush _ | .dockerCompose _ | .deployMlZip _ | .deployMlModules _
  | .consumerTest _ | .deployKatee _ | .update _ => false

/-- The task or one below it saves artifacts on failure. -/
def Task.savesArtifactsOnFailure : Task → Bool
  | .leaf l => LeafOf.savesArtifactsOnFailure l
  | .sequence tasks => Task.anySavesArtifactsOnFailure tasks
  | .parallel tasks => Task.anySavesArtifactsOnFailure tasks

/-- Some task saves artifacts on failure. -/
def Task.anySavesArtifactsOnFailure : List Task → Bool
  | [] => false
  | t :: rest => Task.savesArtifactsOnFailure t || Task.anySavesArtifactsOnFailure rest

end

end PipelineCompiler

import PipelineCompiler.Lint.LeafRules

/-!
# Rules for the task tree

Parallel groups stand in the list of the pipeline, sequences stand in parallel groups, and sequences
hold leaves only. Artifacts are saved before they are restored, and the update comes first.
-/

namespace PipelineCompiler.Lint

/-! ## Shape -/

/-- The task is a parallel group. -/
def isParallel : Task → Bool
  | .parallel _ => true
  | _ => false

/-- A parallel group has tasks, none of which is a parallel group, and at most one of them saves
artifacts. -/
def parallelFindings (tasks : List Task) : Findings :=
  let size : Findings :=
    match tasks with
    | [] => .ofErrors [.missing "tasks"]
    | [_] => .ofWarnings [.invalid "tasks" "a parallel with a single task runs it just like a plain task"]
    | _ => {}
  let nested : Findings :=
    .concat (tasks.zipIdx.map fun (t, j) =>
      if isParallel t then
        (Findings.ofErrors [.invalid "type" "a parallel cannot contain another parallel"]).under
          (taskPosition [j])
      else {})
  let saves : Findings :=
    if 1 < (tasks.filter Task.savesArtifacts).length then
      .ofWarnings [.invalid "save_artifacts"
        "more than one task in the parallel saves artifacts, they will overwrite each other"]
    else {}
  let savesOnFailure : Findings :=
    if 1 < (tasks.filter Task.savesArtifactsOnFailure).length then
      .ofWarnings [.invalid "save_artifacts_on_failure"
        "more than one task in the parallel saves artifacts on failure, they will overwrite each other"]
    else {}
  size ++ nested ++ saves ++ savesOnFailure

/-- A sequence stands in a parallel group and has tasks, all of which are leaves. -/
def sequenceFindings (tasks : List Task) (inParallel : Bool) : Findings :=
  let place : Findings :=
    if inParallel then {}
    else .ofErrors [.invalid "type" "a sequence can only be used directly inside a parallel"]
  let size : Findings := if tasks.isEmpty then .ofErrors [.missing "tasks"] else {}
  let nested : Findings :=
    .concat (tasks.zipIdx.map fun (t, j) =>
      if t.leaf?.isSome then {}
      else
        (Findings.ofErrors [.invalid "tasks"
          s!"a sequence can only contain plain tasks, found '{t.kind}'"]).under (taskPosition [j]))
  place ++ size ++ nested

/-! ## The tree -/

/-- The rules for a leaf at a position; any other task has none here. -/
def leafFindingsAt (m : Manifest) (files : FileProbe) (path : TaskPath) : Task → Findings
  | .leaf l => (leafFindings m files l).under (taskPosition path)
  | _ => {}

/-- The rules for a sequence at a position and for its leaves. -/
def sequenceFindingsAt (m : Manifest) (files : FileProbe) (path : TaskPath) (tasks : List Task)
    (inParallel : Bool) : Findings :=
  (sequenceFindings tasks inParallel).under (taskPosition path)
    ++ .concat (tasks.zipIdx.map fun (t, j) => leafFindingsAt m files (path ++ [j]) t)

/-- The rules for a task of a parallel group. The group reports on parallel groups inside of it. -/
def branchFindingsAt (m : Manifest) (files : FileProbe) (path : TaskPath) : Task → Findings
  | .leaf l => leafFindingsAt m files path (.leaf l)
  | .sequence tasks => sequenceFindingsAt m files path tasks true
  | .parallel _ => {}

/-- The rules for a task of the pipeline. -/
def taskFindingsAt (m : Manifest) (files : FileProbe) (i : Nat) : Task → Findings
  | .leaf l => leafFindingsAt m files [i] (.leaf l)
  | .sequence tasks => sequenceFindingsAt m files [i] tasks false
  | .parallel tasks =>
    (parallelFindings tasks).under (taskPosition [i])
      ++ .concat (tasks.zipIdx.map fun (t, j) => branchFindingsAt m files [i, j] t)

/-! ## Order -/

/-- Artifacts are restored only where an earlier leaf saved some. -/
def restoreFault : Fault := .invalid "restore_artifacts" "no previous task saves artifacts"

/-- The image that a leaf pushes starts this pipeline again. -/
def loopFindings (m : Manifest) (l : Leaf) : Findings :=
  match l.action with
  | .dockerPush p =>
    let pushed := Image.untagged p.image
    let watched := m.triggers.filterMap Trigger.docker?
    if watched.any fun d => Image.untagged d.image = pushed then
      .ofWarnings [.invalid "image" s!"pushing '{pushed}' triggers this pipeline again, which loops"]
    else {}
  | _ => {}

/-- The rules that depend on where a leaf stands, given whether an earlier leaf saved artifacts. -/
def orderFindingsAt (m : Manifest) (saved : Bool) (path : TaskPath) (l : Leaf) : Findings :=
  let restore : Findings := if l.readsArtifacts && !saved then .ofErrors [restoreFault] else {}
  let first : Findings :=
    if l.isUpdate && path ≠ [0] then
      .ofErrors [.invalid "type" "the update task must be the first task"]
    else {}
  (restore ++ first ++ loopFindings m l).under (taskPosition path)

/-- The rules that depend on order, for leaves in the order in which they run. -/
def orderFindings (m : Manifest) : (saved : Bool) → List (TaskPath × Leaf) → Findings
  | _, [] => {}
  | saved, (path, l) :: rest =>
    orderFindingsAt m saved path l ++ orderFindings m (saved || l.savesArtifacts) rest

/-- The rules for all tasks of a pipeline; there is at least one. -/
def tasksFindings (m : Manifest) (files : FileProbe) : Findings :=
  if m.tasks.isEmpty then .ofErrors [.missing "tasks"]
  else
    .concat (m.tasks.zipIdx.map fun (t, i) => taskFindingsAt m files i t)
      ++ orderFindings m false (Task.leaves m.tasks)

/-- The report on tasks. -/
def tasksReport (c : Config) (m : Manifest) (s : Surroundings) : Report :=
  { linter := "Tasks"
    docsUrl := docsUrl c "manifest/#tasks"
    findings := tasksFindings m s.files }

end PipelineCompiler.Lint

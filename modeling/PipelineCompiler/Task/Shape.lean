import PipelineCompiler.Task.Tree

/-!
# Shape of the task tree

Pipelines are built from trees of three levels at most: a parallel group stands in the list of the
pipeline, a sequence stands in a parallel group, and a sequence holds leaves.
-/

namespace PipelineCompiler

/-- A group that stands where it must not, by position. -/
inductive ShapeFault where
  | sequenceOutsideParallel (i : Nat)
  | parallelInParallel (i j : Nat)
  | groupInSequence (i j k : Nat)
deriving DecidableEq, Repr

/-- The sentence for a misplaced group. -/
def ShapeFault.text : ShapeFault → String
  | .sequenceOutsideParallel i => s!"tasks[{i}]: sequence outside of a parallel"
  | .parallelInParallel i j => s!"tasks[{i}].tasks[{j}]: parallel inside a parallel"
  | .groupInSequence i j k => s!"tasks[{i}].tasks[{j}].tasks[{k}]: composite inside a sequence"

namespace Task

/-- The first fault at a child of a parallel group. -/
def childFault? (i j : Nat) : Task → Option ShapeFault
  | .leaf _ => none
  | .parallel _ => some (.parallelInParallel i j)
  | .sequence tasks => (tasks.findIdx? fun t => t.leaf?.isNone).map fun k => .groupInSequence i j k

/-- The first fault at a task of the pipeline's list. -/
def topFault? (i : Nat) : Task → Option ShapeFault
  | .leaf _ => none
  | .sequence _ => some (.sequenceOutsideParallel i)
  | .parallel tasks => tasks.zipIdx.findSome? fun (t, j) => childFault? i j t

/-- The first misplaced group of a tree. -/
def shapeFault? (tasks : List Task) : Option ShapeFault :=
  tasks.zipIdx.findSome? fun (t, i) => topFault? i t

end Task

/-! ## Refused manifests -/

/-- Why no pipeline can be built. A manifest without lint errors gives no cause for any of them. -/
inductive RenderError where
  | shape (fault : ShapeFault)
  /-- A leaf that has no job of its own kind does not run as a script either. -/
  | script (kind : String)
  /-- A check of a candidate is of a kind that does not run as a script. -/
  | check (kind : String)
deriving DecidableEq, Repr

/-- The sentence for a refusal. -/
def RenderError.message (e : RenderError) : String :=
  "invalid manifest for rendering: " ++
    match e with
    | .shape fault => fault.text
    | .script kind => s!"{kind} cannot be lowered to a script"
    | .check kind => s!"pre_promote: {kind} cannot run before promotion"

/-- Refuse a tree with a misplaced group. -/
def Task.checkShape (tasks : List Task) : Except RenderError Unit :=
  match Task.shapeFault? tasks with
  | some fault => .error (.shape fault)
  | none => .ok ()

end PipelineCompiler

import PipelineCompiler.Task

/-!
# The task tree

The leaves of a list of tasks in the order in which they run, with their positions, and the task at
a position. Tasks that check a candidate belong to their deployment and are no nodes of the tree.
-/

namespace PipelineCompiler

namespace Task

/-- The type tag of a task. -/
def kind : Task → String
  | .leaf l => l.kind
  | .sequence _ => "sequence"
  | .parallel _ => "parallel"

/-- The tasks of a group; a leaf has none. -/
def children : Task → List Task
  | .leaf _ => []
  | .sequence tasks => tasks
  | .parallel tasks => tasks

/-- The leaf, if the task is one. -/
def leaf? : Task → Option Leaf
  | .leaf l => some l
  | _ => none

mutual

/-- The leaves of a task at a position, with their own positions. -/
def leavesAt (path : TaskPath) : Task → List (TaskPath × Leaf)
  | .leaf l => [(path, l)]
  | .sequence tasks => leavesFrom path 0 tasks
  | .parallel tasks => leavesFrom path 0 tasks

/-- The leaves of tasks that stand below a position from an index on. -/
def leavesFrom (path : TaskPath) (i : Nat) : List Task → List (TaskPath × Leaf)
  | [] => []
  | t :: rest => t.leavesAt (path ++ [i]) ++ leavesFrom path (i + 1) rest

end

/-- The leaves of a list in the order in which they run, with their positions. -/
def leaves (tasks : List Task) : List (TaskPath × Leaf) := leavesFrom [] 0 tasks

/-- The leaves of a list in the order in which they run. -/
def flatten (tasks : List Task) : List Leaf := (leaves tasks).map Prod.snd

/-- The task at a position. -/
def at? (tasks : List Task) : TaskPath → Option Task
  | [] => none
  | [i] => tasks[i]?
  | i :: rest => tasks[i]?.bind fun t => at? t.children rest

/-- The leaf at a position. -/
def leafAt? (tasks : List Task) (path : TaskPath) : Option Leaf := (at? tasks path).bind leaf?

/-- Some leaf of the tree raises the version of the pipeline. -/
def hasUpdate (tasks : List Task) : Bool := (flatten tasks).any LeafOf.isUpdate

mutual

/-- The task or one below it sends notifications; checks of a candidate do not count. -/
def usesNotifications : Task → Bool
  | .leaf l => l.usesNotifications
  | .sequence tasks => anyUsesNotifications tasks
  | .parallel tasks => anyUsesNotifications tasks

/-- Some task sends notifications. -/
def anyUsesNotifications : List Task → Bool
  | [] => false
  | t :: rest => t.usesNotifications || anyUsesNotifications rest

end

end Task

end PipelineCompiler

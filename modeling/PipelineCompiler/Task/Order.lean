import PipelineCompiler.Task.Tree

/-!
# Order of tasks

In the list of a pipeline and in a sequence each task waits for the one before it, and the first task
waits for what the group waits for. Every task of a parallel group waits for what the group waits for.
A sequence has passed when its last task has, and a parallel group when every task of it has.
-/

namespace PipelineCompiler

namespace Task

mutual

/-- The leaves that have to pass for a task at a position to have passed. -/
def exits (path : TaskPath) : Task → List TaskPath
  | .leaf _ => [path]
  | .sequence tasks => exitsOfLast path 0 tasks
  | .parallel tasks => exitsOfAll path 0 tasks

/-- The exits of the last task of a list that stands below a position from an index on. -/
def exitsOfLast (path : TaskPath) (i : Nat) : List Task → List TaskPath
  | [] => []
  | [t] => t.exits (path ++ [i])
  | _ :: t :: rest => exitsOfLast path (i + 1) (t :: rest)

/-- The exits of all tasks of a list that stands below a position from an index on. -/
def exitsOfAll (path : TaskPath) (i : Nat) : List Task → List TaskPath
  | [] => []
  | t :: rest => t.exits (path ++ [i]) ++ exitsOfAll path (i + 1) rest

end

/-- What the task at index `i` of a list waits for, given what the list waits for. -/
def entryOf (tasks : List Task) (place : TaskPath) (entry : List TaskPath) (isParallel : Bool)
    (i : Nat) : List TaskPath :=
  if isParallel || i == 0 then entry
  else
    match tasks[i - 1]? with
    | some previous => previous.exits (place ++ [i - 1])
    | none => []

/-- Follow a path into a list that stands at `place` and waits for `entry`. -/
def passedFrom (tasks : List Task) (place : TaskPath) (entry : List TaskPath) (isParallel : Bool) :
    TaskPath → List TaskPath
  | [] => entry
  | i :: rest =>
    match tasks[i]? with
    | none => []
    | some task =>
      let own := entryOf tasks place entry isParallel i
      if rest.isEmpty then own
      else
        match task with
        | .leaf _ => own
        | .sequence inner => passedFrom inner (place ++ [i]) own false rest
        | .parallel inner => passedFrom inner (place ++ [i]) own true rest

/-- Positions of the leaves that have to pass before the task at a position runs. -/
def passedPaths (tasks : List Task) (path : TaskPath) : List TaskPath :=
  passedFrom tasks [] [] false path

/-- Names of the leaves that have to pass before the task at a position runs. -/
def passedNames (tasks : List Task) (nameOf : TaskPath → Leaf → String) (path : TaskPath) :
    List String :=
  (passedPaths tasks path).filterMap fun p => (leafAt? tasks p).map (nameOf p)

/-- Display names of the leaves that the task at an index of the pipeline waits for. -/
def previousNames (tasks : List Task) (i : Nat) : List String :=
  passedNames tasks (fun _ l => l.name) [i]

end Task

end PipelineCompiler

import PipelineCompiler.Task.Order

/-!
# Names of jobs

Every job of a pipeline has a name of its own. A name that is taken gets the least number appended
that makes it free. Jobs are named in the order in which their leaves run, ahead of everything else,
so that a job can refer to the jobs it waits for by position.
-/

namespace PipelineCompiler

/-- The first of `candidate`, `candidate-1`, `candidate-2`, … that is not used. -/
def uniqueName (candidate : String) (used : List String) : String :=
  if used.contains candidate then
    -- one of more numbered names than there are used names is free
    (((List.range (used.length + 1)).map fun i => candidate ++ "-" ++ toString (i + 1)).find?
      fun name => !used.contains name).getD candidate
  else candidate

/-- The names handed out so far, the latest first. -/
structure NameRegistry where
  used : List String := []
deriving DecidableEq, Repr, Inhabited

namespace NameRegistry

/-- Hand out a name that is not used yet. -/
def claim (r : NameRegistry) (candidate : String) : String × NameRegistry :=
  let name := uniqueName candidate r.used
  (name, ⟨if r.used.contains name then r.used else name :: r.used⟩)

/-- The name was handed out. -/
def contains (r : NameRegistry) (name : String) : Bool := r.used.contains name

/-- Number of names handed out. -/
def size (r : NameRegistry) : Nat := r.used.length

/-- Hand out one name for each candidate of a list. -/
def claimAll (r : NameRegistry) : List String → List String × NameRegistry
  | [] => ([], r)
  | candidate :: rest =>
    let (name, r) := r.claim candidate
    let (names, r) := r.claimAll rest
    (name :: names, r)

end NameRegistry

/-- The job of every leaf: its position and its name, in the order in which the leaves run. -/
structure JobIndex where
  jobs : List (TaskPath × String) := []
deriving DecidableEq, Repr, Inhabited

namespace JobIndex

/-- Name the job of every leaf. -/
def ofTasks (tasks : List Task) (nameOf : Leaf → String) : JobIndex :=
  let leaves := Task.leaves tasks
  let names := (({} : NameRegistry).claimAll (leaves.map fun e => nameOf e.2)).1
  ⟨(leaves.map Prod.fst).zip names⟩

/-- Name of the job at a position. -/
def name? (index : JobIndex) (path : TaskPath) : Option String :=
  (index.jobs.find? fun job => job.1 = path).map Prod.snd

/-- Names of the jobs that have to pass before the leaf at a position runs. -/
def passed (index : JobIndex) (tasks : List Task) (path : TaskPath) : List String :=
  Task.passedNames tasks (fun p l => (index.name? p).getD l.name) path

end JobIndex

end PipelineCompiler

/-!
# Lists without repetition
-/

namespace PipelineCompiler

/-- The items of a list without repetition, each where it stands first. -/
def distinct [DecidableEq α] (items : List α) : List α :=
  items.foldl (fun seen a => if a ∈ seen then seen else seen ++ [a]) []

end PipelineCompiler

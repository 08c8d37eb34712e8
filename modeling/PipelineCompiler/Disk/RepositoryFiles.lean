import PipelineCompiler.Disk
import PipelineCompiler.Text.Cut

/-!
# Files of a repository

The branch that is checked out stands in the file `HEAD`, the commits of branches in a file for each or in
one list, and the address of the origin in the file `config`.
-/

namespace PipelineCompiler

namespace Repository

/-- The branch that a head refers to. -/
def branchOfHead? (head : String) : Option String :=
  Text.dropStart? (Text.trim head) "ref: refs/heads/"

/-- A list of references has a commit for a branch. -/
def listsBranch (references branch : String) : Bool :=
  ((Text.splitWhen (· == '\n') references.toList).map String.ofList).any fun line =>
    Text.endsWith (Text.trimEnd line) (" refs/heads/" ++ branch)

/-- The address among the lines of a section, up to the next section. -/
def addressIn? : List String → Option String
  | [] => none
  | line :: rest =>
    if Text.startsWith line "[" then none
    else
      match Text.splitFirst? '=' line with
      | some (key, value) => if Text.trim key = "url" then some (Text.trim value) else addressIn? rest
      | none => addressIn? rest

/-- The address of the origin in the text of a configuration. -/
def originOfConfig? (config : String) : Option String :=
  let lines := (Text.splitWhen (· == '\n') config.toList).map fun l => Text.trim (String.ofList l)
  addressIn? ((lines.dropWhile (· ≠ "[remote \"origin\"]")).drop 1)

end Repository

end PipelineCompiler

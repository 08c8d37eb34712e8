import PipelineCompiler.Text.Blank

/-!
# Paths

Paths are resolved by their text alone. A normal form is a run of `..` followed by ordinary segments;
the empty path stands for the directory it is taken from.
-/

namespace PipelineCompiler.Path

/-- One step of a path. -/
abbrev Segment := List Char

/-- The segment that stays where it is. -/
def here : Segment := ['.']

/-- The segment that leads to the parent directory. -/
def up : Segment := ['.', '.']

/-- A segment that leads into a directory or file. -/
def IsOrdinary (s : Segment) : Prop := s ≠ [] ∧ s ≠ here ∧ s ≠ up

instance (s : Segment) : Decidable (IsOrdinary s) := by unfold IsOrdinary; infer_instance

/-- The segments of a path, blank ones included. -/
def segments (path : List Char) : List Segment := Text.splitWhen (· == '/') path

/-- Follow one more segment. The place reached is held with its last segment first. -/
def follow (place : List Segment) (s : Segment) : List Segment :=
  if s = [] ∨ s = here then place
  else if s = up then
    match place with
    | last :: rest => if last = up then s :: place else rest
    | [] => [s]
  else s :: place

/-- Follow paths one after the other. -/
def resolve (paths : List (List Char)) : List Segment :=
  ((paths.flatMap segments).foldl follow []).reverse

/-- The text of a list of segments. -/
def text (place : List Segment) : List Char := ['/'].intercalate place

/-- Follow paths one after the other and write the normal form of the place reached. -/
def join (paths : List String) : String :=
  String.ofList (text (resolve (paths.map String.toList)))

/-- The normal form of a path. -/
def normalize (path : String) : String :=
  String.ofList (text ((segments path.toList).foldl follow []).reverse)

/-- A path seen from a directory, as it is written. An absolute path is seen from anywhere. -/
def under (dir path : String) : String :=
  if path.toList.head? = some '/' then path
  else if dir.isEmpty || dir.toList.getLast? = some '/' then dir ++ path
  else dir ++ "/" ++ path

/-- Number of segments of the normal form. -/
def depth (path : String) : Nat := (resolve [path.toList]).length

/-- The path that climbs a number of directories. -/
def climb (levels : Nat) : String :=
  String.ofList (text (List.replicate levels up))

end PipelineCompiler.Path

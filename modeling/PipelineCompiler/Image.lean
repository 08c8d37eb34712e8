import PipelineCompiler.Text.Cut

/-!
# Image references

A container image is named by a repository and a tag. A colon before the last slash belongs to the host
of a registry, so a tag is looked for after that slash only.
-/

namespace PipelineCompiler.Image

/-- What stands up to and with the last slash, and what follows it. -/
def splitName (image : List Char) : List Char × List Char :=
  match Text.cutLast '/' image with
  | none => ([], image)
  | some (place, name) => (place ++ ['/'], name)

/-- Repository and tag, cut at the last colon of the name; without one the tag is `latest`. -/
def split (image : String) : String × String :=
  let (place, name) := splitName image.toList
  match Text.cutLast ':' name with
  | none => (image, "latest")
  | some (bare, tag) => (String.ofList (place ++ bare), String.ofList tag)

/-- The reference up to the first colon of its name. -/
def untagged (image : String) : String :=
  let (place, name) := splitName image.toList
  match Text.cutFirst ':' name with
  | none => image
  | some (bare, _) => String.ofList (place ++ bare)

end PipelineCompiler.Image

import PipelineCompiler.Manifest

/-!
# Projects

Where a manifest sits in its working copy.
-/

namespace PipelineCompiler

/-- The place of a manifest in its working copy. -/
structure Project where
  /-- Directory of the manifest, from the root of the working copy. -/
  basePath : String := ""
  /-- Name of the root directory. -/
  rootName : String := ""
  /-- Address of the origin, if it has one. -/
  gitUri : Option String := none
deriving DecidableEq, Repr, Inhabited

/-- Tell the git trigger where the manifest is, and the address unless the author gave one. -/
def Project.applyTo (p : Project) (m : Manifest) : Manifest :=
  let place (g : GitTrigger) : GitTrigger :=
    { g with
      basePath := p.basePath
      uri := if g.uri.isEmpty then p.gitUri.getD g.uri else g.uri }
  { m with triggers := Trigger.mapFirstGit place m.triggers }

end PipelineCompiler

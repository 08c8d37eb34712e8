import PipelineCompiler.Actions.Rendering
import PipelineCompiler.Actions.Writing
import PipelineCompiler.Concourse.Rendering
import PipelineCompiler.Concourse.Writing
import PipelineCompiler.Lint.Standard
import PipelineCompiler.Manifest.Defaults
import PipelineCompiler.Yaml.Writing

/-!
# Compilation

A manifest is linted as it was written. Without an error its defaults are filled in and its pipeline is
written for the build server that it names.
-/

namespace PipelineCompiler

/-- What can be said about a build server. -/
def Platform.description : Platform → String
  | .concourse => "Concourse pipeline configuration"
  | .actions => "GitHub Actions workflow"

/-- Extension of the files that pipelines are written to. -/
def fileExtension : String := "yml"

namespace Manifest

/-- The pipeline of a manifest whose defaults are filled in, as a value. -/
def pipeline? (c : Config) (m : Manifest) : Except RenderError Value :=
  match m.platform with
  | .concourse => (Concourse.render c m).map Concourse.Pipeline.toValue
  | .actions => (Actions.render c m).map Actions.Workflow.toValue

/-- The document with the pipeline of a manifest whose defaults are filled in. -/
def document? (c : Config) (m : Manifest) : Except RenderError String :=
  (m.pipeline? c).map fun v => Config.header c.version ++ "\n" ++ Yaml.render v

end Manifest

/-- What comes of a manifest: the reports of the linters, and a document unless one found an error. -/
structure Compilation where
  reports : List Lint.Report
  document : Option String
deriving Repr

/-- Lint a manifest, and write its pipeline if no linter found an error. -/
def compile (c : Config) (s : Surroundings) (m : Manifest) : Except RenderError Compilation := do
  let reports := Lint.run c s m
  if Lint.hasErrors reports then return ⟨reports, none⟩
  else
    let document ← m.withDefaults.document? c
    return ⟨reports, some document⟩

end PipelineCompiler

import PipelineCompiler.Lint.Report
import PipelineCompiler.Manifest
import PipelineCompiler.Config

/-!
# Rules for the manifest itself

A team, a pipeline and toggles that exist.
-/

namespace PipelineCompiler.Lint

/-- Where a section of the documentation stands. -/
def docsUrl (c : Config) (section_ : String) : String :=
  "https://" ++ Text.trimEnds c.docHost "/" ++ "/" ++ section_

/-- The manifest names its team, in lower case, and its pipeline, without blanks. -/
def manifestFindings (m : Manifest) : Findings :=
  let team :=
    if m.team.isEmpty then Findings.ofErrors [.missing "team"]
    else if Text.lower m.team ≠ m.team then
      Findings.ofWarnings [.invalid "team" "team should be lower case"]
    else {}
  let pipeline :=
    if m.pipeline.isEmpty then Findings.ofErrors [.missing "pipeline"]
    else if m.pipeline.toList.any Text.isBlank then
      Findings.ofErrors [.invalid "pipeline" "pipeline name must not contain spaces"]
    else {}
  team ++ pipeline

/-- The report on the manifest itself. -/
def manifestReport (c : Config) (m : Manifest) : Report :=
  { linter := "Manifest", docsUrl := docsUrl c "manifest/", findings := manifestFindings m }

/-- Every toggle exists. -/
def toggleFindings (m : Manifest) : Findings :=
  let available := ", ".intercalate availableToggles
  .ofErrors <| m.unknownToggles.map fun toggle =>
    .invalid "feature_toggles"
      s!"'{toggle}' is not a valid feature toggle, available toggles are {available}"

/-- The report on feature toggles. -/
def togglesReport (c : Config) (m : Manifest) : Report :=
  { linter := "Feature Toggles"
    docsUrl := docsUrl c "manifest/#feature_toggles"
    findings := toggleFindings m }

end PipelineCompiler.Lint

import PipelineCompiler.Lint.Report
import PipelineCompiler.Value

/-!
# Reports as values

The document form of the reports of all linters. Like the text of a report it shows a finding that
stands twice only once; other than the text it shows linters that found nothing.
-/

namespace PipelineCompiler.Lint

/-- What a reader is shown of a finding. -/
structure Shown where
  message : String
  /-- Link to the section of the documentation that explains the finding. -/
  docs : Option String
deriving DecidableEq, Repr

/-- What a reader is shown of a finding. -/
def Finding.shown (docHost : String) (f : Finding) : Shown :=
  ⟨f.text, f.fault.docId?.map (docLink docHost)⟩

/-- The document form of a finding. -/
def Shown.toValue (s : Shown) : Value :=
  .record <|
    ("message", .str s.message)
      :: (match s.docs with
        | some link => [("docs", .str link)]
        | none => [])

/-- What a reader is shown of a list of findings. -/
def shownFindings (docHost : String) (fs : List Finding) : List Shown :=
  (distinct fs).map (Finding.shown docHost)

/-- The document form of a report. -/
def Report.toValue (docHost : String) (r : Report) : Value :=
  .record
    [("linter", .str r.linter), ("docs_url", .str r.docsUrl),
      ("errors", .seq ((shownFindings docHost r.findings.errors).map Shown.toValue)),
      ("warnings", .seq ((shownFindings docHost r.findings.warnings).map Shown.toValue))]

/-- The document form of the reports of all linters. -/
def reportsValue (docHost : String) (rs : List Report) : Value :=
  .seq (rs.map (Report.toValue docHost))

end PipelineCompiler.Lint

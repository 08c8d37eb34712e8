import PipelineCompiler.Distinct
import PipelineCompiler.Lint.Finding

/-!
# Reports

The findings of every linter, as text for a reader. A finding that stands twice is shown once, where it
stands first.
-/

namespace PipelineCompiler.Lint

/-- What one linter found. -/
structure Report where
  linter : String
  /-- Where the rules are explained; blank if nowhere. -/
  docsUrl : String := ""
  findings : Findings := {}
deriving DecidableEq, Repr, Inhabited

namespace Report

/-- Some error was found. -/
def hasErrors (r : Report) : Bool := !r.findings.errors.isEmpty

/-- Some warning was found. -/
def hasWarnings (r : Report) : Bool := !r.findings.warnings.isEmpty

/-- The lines for one finding. -/
def findingLines (docHost : String) (f : Finding) : List String :=
  ("\t\t* " ++ f.text)
    :: (match f.fault.docId? with
      | some docId => ["\t\t  [see: " ++ docLink docHost docId ++ "]"]
      | none => [])

/-- The lines for a list of findings under a heading; an empty list has none. -/
def sectionLines (docHost heading : String) (fs : List Finding) : List String :=
  if fs.isEmpty then []
  else ("\t" ++ heading ++ ":") :: (distinct fs).flatMap (findingLines docHost)

/-- Text of lines that each end in a break. -/
def ofLines (lines : List String) : String := String.join (lines.map fun l => l ++ "\n")

/-- The text of a report. -/
def render (r : Report) (docHost : String) : String :=
  ofLines <|
    r.linter ::
      if r.findings.isEmpty then ["\tNo errors \\o/"]
      else
        sectionLines docHost "Errors" r.findings.errors
          ++ sectionLines docHost "Warnings" r.findings.warnings
          ++ (if r.docsUrl.isEmpty then [] else ["\tDocs: " ++ r.docsUrl])

end Report

/-! ## All linters -/

/-- Some linter found an error. -/
def hasErrors (rs : List Report) : Bool := rs.any Report.hasErrors

/-- Some linter found a warning. -/
def hasWarnings (rs : List Report) : Bool := rs.any Report.hasWarnings

/-- The texts of the linters that found something, with a blank line between two of them. -/
def render (rs : List Report) (docHost : String) : String :=
  "\n".intercalate ((rs.filter fun r => !r.findings.isEmpty).map fun r => r.render docHost)

end PipelineCompiler.Lint

import PipelineCompiler.Compilation
import PipelineCompiler.Json
import PipelineCompiler.Lint.Writing

/-!
# Commands

What the commands do with a manifest that has been read, and what a caller gets to see of it.
-/

namespace PipelineCompiler

/-- What is done with a manifest. -/
inductive Command where
  /-- Report what the linters find, as text or as JSON. -/
  | lint (json : Bool)
  /-- Write the pipeline, unless a linter finds an error. -/
  | render
deriving DecidableEq, Repr, Inhabited

/-- What is written where, and the status a process ends with. -/
structure Output where
  stdout : String := ""
  stderr : String := ""
  exitCode : Nat := 0
deriving DecidableEq, Repr, Inhabited

/-- Status of a manifest with lint errors. -/
def lintExitCode : Nat := 1

/-- The status that reports lead to. -/
def exitCodeOf (reports : List Lint.Report) : Nat :=
  if Lint.hasErrors reports then lintExitCode else 0

/-- An answer in JSON: the word for its outcome and what it is about. -/
def envelope (ok : Bool) (content : Value) : String :=
  Json.render <|
    if ok then .record [("status", .str "ok"), ("data", content)]
    else .record [("status", .str "error"), ("error", content)]

/-- Show reports as text; without any finding there is a word instead. -/
def showReports (c : Config) (reports : List Lint.Report) : Output :=
  let text := Lint.render reports c.docHost
  { stdout := if text.isEmpty then "ok\n" else text, exitCode := exitCodeOf reports }

/-- Show reports as JSON. -/
def showReportsAsJson (c : Config) (reports : List Lint.Report) : Output :=
  { stdout :=
      envelope (!Lint.hasErrors reports) (Lint.reportsValue c.docHost reports) ++ "\n"
    exitCode := exitCodeOf reports }

/-- Show what came of a manifest: the document, and the reports beside it. -/
def showCompilation (c : Config) (compilation : Compilation) : Output :=
  let report := Lint.render compilation.reports c.docHost
  match compilation.document with
  | some document => { stdout := document, stderr := report }
  | none => { stderr := report, exitCode := lintExitCode }

/-- Run a command on a manifest. -/
def Command.run (c : Config) (s : Surroundings) (m : Manifest) : Command → Except RenderError Output
  | .lint false => .ok (showReports c (Lint.run c s m))
  | .lint true => .ok (showReportsAsJson c (Lint.run c s m))
  | .render => (compile c s m).map (showCompilation c)

end PipelineCompiler

import PipelineCompiler.Text.Cut
import PipelineCompiler.Text.LowerCase

/-!
# Findings

What a rule has against a manifest, and where. Errors and warnings are the same kind of finding; the
list that a finding stands in decides which of the two it is.
-/

namespace PipelineCompiler.Lint

/-- What is wrong. -/
inductive Fault where
  /-- A required field is absent or blank. -/
  | missing (field : String)
  /-- The value of a field is not acceptable. -/
  | invalid (field reason : String)
  /-- A file that is referred to cannot be used. -/
  | file (path reason : String)
  /-- The build server cannot express a feature. -/
  | unsupported (feature backend : String)
  /-- A manifest for Cloud Foundry cannot be used. -/
  | deployManifest (path reason : String)
  /-- Something outside the manifest failed; its message is passed on. -/
  | collaborator (message : String)
deriving DecidableEq, Repr

namespace Fault

/-- The sentence for a fault. -/
def text : Fault → String
  | .missing field => s!"missing field '{field}'"
  | .invalid field reason => s!"invalid value for '{field}': {reason}"
  | .file path reason => s!"file '{path}' {reason}"
  | .unsupported feature backend => s!"'{feature}' is not supported by {backend}"
  | .deployManifest path reason => s!"invalid CF Manifest: '{path}': {reason}"
  | .collaborator message => message

/-- The word for the kind of a fault. -/
def kind : Fault → String
  | .missing _ => "missing"
  | .invalid _ _ => "invalid"
  | .file _ _ => "file"
  | .unsupported _ _ => "unsupported"
  | .deployManifest _ _ => "deploy_manifest"
  | .collaborator _ => "collaborator"

/-- The field, feature or path that a fault is about. -/
def field? : Fault → Option String
  | .missing field => some field
  | .invalid field _ => some field
  | .file path _ => some path
  | .unsupported feature _ => some feature
  | .deployManifest path _ => some path
  | .collaborator _ => none

/-- The section of the documentation that explains a fault. -/
def docId? : Fault → Option String
  | .missing _ => some "Missing field"
  | .invalid _ _ => some "Invalid field"
  | .file _ _ => some "File error"
  | .unsupported _ _ => some "Unsupported feature"
  | .deployManifest _ _ => some "CF Manifest"
  | .collaborator _ => none

/-- The code under which a diagnostic shows a fault. -/
def code : Fault → String
  | .missing _ => "halfpipe::lint::missing_field"
  | .invalid _ _ => "halfpipe::lint::invalid_field"
  | .file _ _ => "halfpipe::lint::file"
  | .unsupported _ _ => "halfpipe::lint::unsupported_feature"
  | .deployManifest _ _ => "halfpipe::lint::deploy_manifest"
  | .collaborator _ => "halfpipe::lint::collaborator"

/-- Advice that a diagnostic adds. -/
def help? : Fault → Option String
  | .missing _ => some "Set the field in the manifest"
  | .file _ _ => some "Paths are relative to the directory containing the manifest"
  | _ => none

/-- The fault is that a given field is missing. -/
def isMissing (field : String) : Fault → Bool
  | .missing f => f = field
  | _ => false

/-- The fault is the value of a given field. -/
def isInvalid (field : String) : Fault → Bool
  | .invalid f _ => f = field
  | _ => false

/-- The fault is the file at a given path. -/
def isFile (path : String) : Fault → Bool
  | .file p _ => p = path
  | _ => false

end Fault

/-- A fault, and where it is if it belongs to a place in the manifest. -/
structure Finding where
  fault : Fault
  position : Option String := none
deriving DecidableEq, Repr

namespace Finding

/-- Put a finding at a place, ahead of the place it has inside of it. -/
def under (f : Finding) (position : String) : Finding :=
  { f with
    position := some <|
      match f.position with
      | some inner => position ++ "." ++ inner
      | none => position }

/-- The line for a finding. -/
def text (f : Finding) : String :=
  match f.position with
  | some position => position ++ " " ++ f.fault.text
  | none => f.fault.text

/-- The code under which a diagnostic shows a finding. -/
def code (f : Finding) : String :=
  if f.position.isSome then "halfpipe::lint::at" else f.fault.code

/-- Advice that a diagnostic adds; a finding with a place carries none. -/
def help? (f : Finding) : Option String :=
  if f.position.isSome then none else f.fault.help?

end Finding

/-! ## Places -/

/-- The place of a task. -/
def taskPosition (path : List Nat) : String :=
  ".".intercalate (path.map fun i => s!"tasks[{i}]")

/-- The place of a trigger. -/
def triggerPosition (i : Nat) : String := s!"triggers[{i}]"

/-- The place of a check inside of its deployment. -/
def prePromotePosition (i : Nat) : String := s!"pre_promote[{i}]"

/-! ## Lists of findings -/

/-- What a rule or a number of rules found. -/
structure Findings where
  errors : List Finding := []
  warnings : List Finding := []
deriving DecidableEq, Repr, Inhabited

namespace Findings

instance : Append Findings where
  append a b := ⟨a.errors ++ b.errors, a.warnings ++ b.warnings⟩

/-- Errors alone. -/
def ofErrors (faults : List Fault) : Findings := { errors := faults.map fun f => { fault := f } }

/-- Warnings alone. -/
def ofWarnings (faults : List Fault) : Findings := { warnings := faults.map fun f => { fault := f } }

/-- What is found one after the other. -/
def concat (fs : List Findings) : Findings :=
  ⟨fs.flatMap errors, fs.flatMap warnings⟩

/-- Put every finding at a place. -/
def under (fs : Findings) (position : String) : Findings :=
  ⟨fs.errors.map fun f => f.under position, fs.warnings.map fun f => f.under position⟩

/-- Nothing was found. -/
def isEmpty (fs : Findings) : Bool := fs.errors.isEmpty && fs.warnings.isEmpty

end Findings

/-! ## Links -/

/-- Name of a section as it stands in a link. -/
def docAnchor (docId : String) : String :=
  Text.replaceChar '.' "" (Text.replaceChar ' ' "-" (Text.lower docId))

/-- Link to the section of the documentation that explains a fault. -/
def docLink (docHost docId : String) : String :=
  Text.trimEnds docHost "/" ++ "/docs/linter-errors#" ++ docAnchor docId

end PipelineCompiler.Lint

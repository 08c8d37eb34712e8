import PipelineCompiler.CommandLine.Reading
import PipelineCompiler.Config.Source
import PipelineCompiler.Project.Discovery

/-!
# Execution

From a command line that has been read to what is printed: the configuration is put together, the manifest
is found and told about its project, and the command is run on it.
-/

namespace PipelineCompiler

/-! ## Failures -/

/-- Why a command line has no output. -/
inductive Failure where
  | unreadableConfig (path : String) (e : ReadError)
  | malformedConfig
  | project (f : ProjectFault)
  | render (e : RenderError)
deriving Repr

namespace Failure

/-- The word for the kind of a failure. -/
def code : Failure → String
  | unreadableConfig .. | malformedConfig => "config"
  | project _ => "manifest"
  | render _ => "render"

/-- The words for a failure. -/
def message : Failure → String
  | unreadableConfig path e =>
    "configuration error: failed to read " ++ path ++ ": " ++ e.message
  | malformedConfig =>
    "configuration error: invalid compiler configuration: " ++ parserAccount
  | project f => f.fullMessage
  | render e => "rendering failed: " ++ e.message

/-- What a user can do about a failure. -/
def help? : Failure → Option String
  | unreadableConfig .. => some "Pass an existing TOML file to --config"
  | malformedConfig =>
    some "Check the keys against `CompilerConfig`; unknown keys are rejected"
  | project f => f.help?
  | render _ =>
    some "This manifest should have been rejected by the linters; please report it"

/-- The status that a process ends with. -/
def exitCode : Failure → Nat
  | unreadableConfig .. | malformedConfig | project _ => 2
  | render _ => 3

/-- The message holds what a parser has to say. -/
def hasParserAccount : Failure → Bool
  | malformedConfig | project (.malformed _) => true
  | _ => false

/-- The failure in JSON. -/
def json (f : Failure) : String :=
  envelope false (.record [("code", .str f.code), ("message", .str f.message)])

end Failure

/-! ## Invocations -/

namespace CommandLine.Invocation

/-- The configuration that an invocation names, with its own settings in place. -/
def configuration (i : Invocation) (d : Disk) (cwd : String) : Except Failure Config := do
  let c ← match i.config with
    | none => pure {}
    | some path =>
      let path := Path.under cwd path
      let text ← (d.files.read path).mapError (.unreadableConfig path)
      match Config.ofText? text with
      | some c => pure c
      | none => throw .malformedConfig
  return { c with
    dockerRegistry := i.dockerRegistry.getD c.dockerRegistry
    docHost := i.docHost.getD c.docHost
    slackWebhook := i.slackWebhook.getD c.slackWebhook }

/-- The path of the manifest that an invocation is about. -/
def manifestPath (i : Invocation) (d : Disk) (cwd : String) : Except ProjectFault String :=
  match i.manifest with
  | some path => .ok (Path.under cwd path)
  | none => d.findManifest cwd

/-- The directory that a path leads into. -/
def parentOf (path : String) : String :=
  match Text.splitLast? '/' path with
  | some (dir, _) => dir
  | none => ""

/-- Run an invocation in a directory. -/
def execute (i : Invocation) (d : Disk) (cwd : String) : Except Failure Output := do
  let c ← i.configuration d cwd
  let path ← (i.manifestPath d cwd).mapError .project
  let m ← (d.loadManifest path).mapError .project
  let m := { m with platform := i.platform.getD m.platform }
  let dir := parentOf path
  let project ← (d.discover dir).mapError .project
  (i.command.run c (d.surroundings dir) (project.applyTo m)).mapError .render

end CommandLine.Invocation

end PipelineCompiler

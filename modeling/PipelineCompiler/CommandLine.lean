import PipelineCompiler.Command

/-!
# Command lines

What a command line can say: options that take a value, flags, and the name of a command. An option may
also be set by a variable of the environment; what the command line says wins.
-/

namespace PipelineCompiler

/-- How much is logged. -/
inductive LogLevel where
  | trace
  | debug
  | info
  | warn
  | error
deriving DecidableEq, Repr, Inhabited

/-- The word for a level. -/
def LogLevel.name : LogLevel → String
  | .trace => "trace"
  | .debug => "debug"
  | .info => "info"
  | .warn => "warn"
  | .error => "error"

/-- The level a word stands for. -/
def LogLevel.ofName? (s : String) : Option LogLevel :=
  [LogLevel.trace, .debug, .info, .warn, .error].find? fun l => l.name = s

/-- The parts of the program whose logs are kept at the same level. -/
def logTargets : List String :=
  ["halfpipe", "halfpipe_core", "halfpipe_lint", "halfpipe_render", "halfpipe_concourse",
    "halfpipe_actions"]

/-- The filter that keeps the logs of a level. -/
def LogLevel.directive (l : LogLevel) : String :=
  ",".intercalate (logTargets.map fun t => t ++ "=" ++ l.name)

/-- How logs are laid out. -/
inductive LogFormat where
  | pretty
  | compact
  | json
deriving DecidableEq, Repr, Inhabited

/-- The word for a layout. -/
def LogFormat.name : LogFormat → String
  | .pretty => "pretty"
  | .compact => "compact"
  | .json => "json"

/-- The layout a word stands for. -/
def LogFormat.ofName? (s : String) : Option LogFormat :=
  [LogFormat.pretty, .compact, .json].find? fun f => f.name = s

namespace CommandLine

/-! ## Options -/

/-- The options that take a value. -/
inductive Opt where
  | manifest
  | config
  | platform
  | dockerRegistry
  | docHost
  | slackWebhook
  | logLevel
  | logFormat
deriving DecidableEq, Repr

namespace Opt

/-- Every option. -/
def all : List Opt :=
  [manifest, config, platform, dockerRegistry, docHost, slackWebhook, logLevel, logFormat]

/-- The name after two dashes. -/
def name : Opt → String
  | manifest => "manifest"
  | config => "config"
  | platform => "platform"
  | dockerRegistry => "docker-registry"
  | docHost => "doc-host"
  | slackWebhook => "slack-webhook"
  | logLevel => "log-level"
  | logFormat => "log-format"

/-- The letter after one dash. -/
def letter? : Opt → Option Char
  | manifest => some 'm'
  | logLevel => some 'L'
  | _ => none

/-- The variable of the environment that sets the option. -/
def variableName : Opt → String
  | manifest => "HALFPIPE_MANIFEST"
  | config => "HALFPIPE_CONFIG"
  | platform => "HALFPIPE_PLATFORM"
  | dockerRegistry => "HALFPIPE_DOCKER_REGISTRY"
  | docHost => "HALFPIPE_DOC_HOST"
  | slackWebhook => "HALFPIPE_SLACK_WEBHOOK"
  | logLevel => "HALFPIPE_LOG_LEVEL"
  | logFormat => "HALFPIPE_LOG_FORMAT"

/-- The option takes the value: paths are not empty, and words are of the option's own list. -/
def accepts (value : String) : Opt → Bool
  | manifest | config => !value.isEmpty
  | platform => (Platform.ofName? value).isSome
  | dockerRegistry | docHost | slackWebhook => true
  | logLevel => (LogLevel.ofName? value).isSome
  | logFormat => (LogFormat.ofName? value).isSome

end Opt

/-- The flags. -/
inductive Flag where
  | help
  | version
  | json
deriving DecidableEq, Repr

namespace Flag

/-- The name after two dashes. -/
def name : Flag → String
  | help => "help"
  | version => "version"
  | json => "json"

/-- The letter after one dash. -/
def letter? : Flag → Option Char
  | help => some 'h'
  | version => some 'V'
  | json => none

end Flag

/-! ## Levels -/

/-- The part of a command line that is read: before the name of a command, or after it. -/
inductive Level where
  | program
  | lint
  | render
deriving DecidableEq, Repr

/-- The flags that a level knows. -/
def Level.flags : Level → List Flag
  | .program => [.help, .version]
  | .lint => [.help, .json]
  | .render => [.help]

/-- The level that a word leads to. -/
def Level.below? : Level → String → Option Level
  | .program, "lint" => some .lint
  | .program, "render" => some .render
  | _, _ => none

/-! ## What comes of a command line -/

/-- Why no command comes of a command line: the user asked for a text, or it cannot be understood. -/
inductive Refusal where
  | helpAsked
  | versionAsked
  | unknownArgument
  | invalidValue
  | invalidSubcommand
  | argumentConflict
  | tooManyValues
deriving DecidableEq, Repr

namespace Refusal

/-- One line for each option, with its name and its variable. -/
def optionLines : List String :=
  Opt.all.map fun o => "  --" ++ o.name ++ " <VALUE>  [env: " ++ o.variableName ++ "]"

/-- How the program is called. -/
def usage : String :=
  "\n".intercalate ("Usage: halfpipe [OPTIONS] [lint [--json] | render | help]" :: "" :: optionLines)

/-- The words for a refusal. -/
def message : Refusal → String
  | helpAsked => usage
  | versionAsked => "halfpipe " ++ ({} : Config).version
  | unknownArgument => "error: unexpected argument"
  | invalidValue => "error: an option lacks a value or cannot take the one it was given"
  | invalidSubcommand => "error: unrecognized subcommand"
  | argumentConflict => "error: an argument was given more than once"
  | tooManyValues => "error: a flag takes no value"

/-- The status that a process ends with: it is no failure to show what was asked for. -/
def exitCode : Refusal → Nat
  | helpAsked | versionAsked => 0
  | _ => 2

end Refusal

/-- What a command line asks for. -/
structure Invocation where
  /-- The command that was named. -/
  named : Option Command := none
  manifest : Option String := none
  config : Option String := none
  platform : Option Platform := none
  dockerRegistry : Option String := none
  docHost : Option String := none
  slackWebhook : Option String := none
  logLevel : LogLevel := .warn
  logFormat : LogFormat := .pretty
deriving DecidableEq, Repr, Inhabited

/-- The command to run: a pipeline is written unless another command was named. -/
def Invocation.command (i : Invocation) : Command := i.named.getD .render

/-- The command's answer is to be JSON. -/
def Invocation.wantsJson (i : Invocation) : Bool := i.named == some (.lint true)

end CommandLine

end PipelineCompiler

import PipelineCompiler.Actions.Workflow
import PipelineCompiler.Duration
import PipelineCompiler.Path
import PipelineCompiler.Secret
import PipelineCompiler.Script

/-!
# On the runner

How jobs are named, where paths lead in the working copy, how commands are handed to a shell, and how a
secret is read. A secret `((map.key))` is kept under `EE_MAP_KEY`.
-/

namespace PipelineCompiler.Actions

/-! ## Names and paths -/

/-- The characters of job ids. -/
def isIdChar (c : Char) : Bool := Text.isLowerAlnum c || c == '_' || c == '-'

/-- Id of a job: its name in lower case, with an underscore for what no id holds. -/
def jobId (name : String) : String :=
  String.ofList ((Text.lowerChars name.toList).map fun c => if isIdChar c then c else '_')

/-- A path of the manifest, from the root of the working copy, which it cannot leave. -/
def repoPath (basePath path : String) : String :=
  let inside := (Path.resolve [basePath.toList, path.toList]).dropWhile (· = Path.up)
  if inside.isEmpty then "." else String.ofList (Path.text inside)

/-- Host of the registry of an image; images without one come from the public registry. A first part
with a dot or a colon, or `localhost`, is a host. -/
def registryHost? (image : String) : Option String := do
  let (first, rest) ← Text.splitFirst? '/' image
  let isHost := first.toList.any (fun c => c == '.' || c == ':') || first = "localhost"
  if rest.isEmpty || !isHost then none else some first

/-- Whole minutes that a job may take; an hour if the time limit cannot be read. -/
def timeoutMinutes (timeout : String) : Nat := (Duration.minutes? timeout).getD 60

/-! ## Commands -/

/-- The arguments that make a shell run a command in a directory. -/
def shellArgs (dir command : String) : String :=
  let command := Text.replaceChar '"' "\\\"" command
  if dir.isEmpty then "-c \"" ++ command ++ "\"" else "-c \"cd " ++ dir ++ "; " ++ command ++ "\""

/-! ## Secrets -/

/-- An expression that is worked out when the job runs. -/
def expression (text : String) : String := "$\x7b\x7b " ++ text ++ " \x7d\x7d"

/-- A character of the name that a secret is kept under. -/
def secretNameChar (c : Char) : Char := if c.isAlphanum then c.toUpper else '_'

/-- The name that a secret is kept under. -/
def secretName (map key : List Char) : String :=
  "EE_" ++ String.ofList ((map ++ '_' :: key).map secretNameChar)

/-- The map and key of a value that is one reference, blanks around it aside. -/
def referenceParts? (value : String) : Option (List Char × List Char) := do
  let inner ← Secret.inner? (Text.trimChars value.toList)
  let (map, key) ← Text.cutFirst '.' inner
  if map.isEmpty || key.isEmpty || inner.any (fun c => c == '(' || c == ')' || c == ' ') then none
  return (map, key)

/-- A value with its secret read, if it is one reference; any other value stays as it is. -/
def readSecret (value : String) : String :=
  match referenceParts? value with
  | some (map, key) => expression ("secrets." ++ secretName map key)
  | none => value

/-- Variables with their secrets read. -/
def secretEnv (vars : Vars) : Env := vars.entries.map fun (name, v) => (name, readSecret v)

/-! ## Values known when a job runs -/

/-- The version of the build. -/
def buildVersion : String := expression "env.BUILD_VERSION"

/-- The revision that is built. -/
def gitRevision : String := expression "env.GIT_REVISION"

/-- The environment of all jobs. -/
def globalEnv : Env :=
  [("ARTIFACTORY_PASSWORD", expression "secrets.EE_ARTIFACTORY_PASSWORD"),
    ("ARTIFACTORY_URL", expression "secrets.EE_ARTIFACTORY_URL"),
    ("ARTIFACTORY_USERNAME", expression "secrets.EE_ARTIFACTORY_USERNAME"),
    ("BUILD_VERSION", "2." ++ expression "github.run_number" ++ ".0"),
    ("GCR_PRIVATE_KEY", expression "secrets.EE_GCR_PRIVATE_KEY"),
    ("GIT_REVISION", expression "github.sha"),
    ("RUNNING_IN_CI", "true")]

/-! ## Steps in general -/

/-- A step that uses an action with inputs. -/
def useStep (name action : String) (inputs : Settings := []) : Step :=
  { work := .uses action, name := some name, inputs }

/-- An image as an action. -/
def imageAction (image : String) : String := "docker://" ++ image

/-- A step that runs a command with the shell of an image, in a directory. -/
def shellStep (name image dir command : String) (shell : String := "/bin/sh") : Step :=
  useStep name (imageAction image)
    (.ofTexts [("entrypoint", shell), ("args", shellArgs dir command)])

end PipelineCompiler.Actions

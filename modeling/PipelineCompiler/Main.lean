import PipelineCompiler.Disk.RepositoryFiles
import PipelineCompiler.Execution
import PipelineCompiler.Manifest.Mentions

/-!
# The program

The files that an invocation may ask for are read first: the configuration, the manifest, the repository
above it, and what the manifest mentions. What is printed is then computed from them. Permissions cannot
be asked for here, so every file counts as executable.
-/

namespace PipelineCompiler.Main

/-- The code of the failure to read a directory as a file. -/
def directoryCode : UInt32 := 21

/-- What stands at a path. The text of a file that holds none is left open. -/
def entryAt? (path : String) : IO (Option FileEntry) := do
  try
    return some (.file (← IO.FS.readFile path) true)
  catch
    | .inappropriateType _ code _ => return if code = directoryCode then some .directory else none
    | .userError _ => return some (.file "\ufffd" true)
    | _ => return none

/-- The content of a file. -/
def textAt? (path : String) : IO (Option String) := do
  match ← entryAt? path with
  | some (.file text _) => return some text
  | _ => return none

/-- Read what stands at a path and on the way there. -/
def loadPath (d : Disk) (path : String) : IO Disk := do
  let segments := Path.segments path.toList
  let mut d := d
  for k in [1:segments.length + 1] do
    let start := Path.text (segments.take k)
    match ← entryAt? (String.ofList start) with
    | some entry => d := { d with files := d.files.put (Path.resolve [start]) entry }
    | none => pure ()
  return d

/-- Read the repository of a working copy, if there is one at a place. -/
def loadRepository (d : Disk) (place : Place) : IO Disk := do
  let path (name : String) : String :=
    Path.under (Disk.placeText (place ++ [Disk.repositoryName])) name
  match ← textAt? (path "HEAD") with
  | none => loadPath d (Disk.placeText (place ++ [Disk.repositoryName]))
  | some head =>
    let branch ← match Repository.branchOfHead? head with
      | none => pure none
      | some branch => do
        let own ← textAt? (path ("refs/heads/" ++ branch))
        let packed := (← textAt? (path "packed-refs")).getD ""
        pure (if own.isSome || Repository.listsBranch packed branch then some branch else none)
    let origin := (← textAt? (path "config")).bind Repository.originOfConfig?
    return d.addRepository place ⟨branch, origin⟩

/-- Read the files that an invocation in a directory may ask for. -/
def loadDisk (i : CommandLine.Invocation) (cwd : String) : IO Disk := do
  let mut d : Disk := {}
  for path in i.config.toList ++ (match i.manifest with
      | some path => [path]
      | none => Manifest.fileNames) do
    d ← loadPath d (Path.under cwd path)
  match i.manifestPath d cwd with
  | .error _ => return d
  | .ok path =>
    let dir := CommandLine.Invocation.parentOf path
    for place in Disk.upward (d.placeOrSegments dir) do
      d ← loadRepository d place
    match d.loadManifest path, d.discover dir with
    | .ok m, .ok project =>
      for mentioned in (project.applyTo m).mentionedPaths do
        d ← loadPath d (Path.under dir mentioned)
      return d
    | _, _ => return d

/-- Run an invocation and answer the status to end with. -/
def run (i : CommandLine.Invocation) : IO Nat := do
  let cwd := toString (← IO.currentDir)
  match i.execute (← loadDisk i cwd) cwd with
  | .ok output =>
    IO.print output.stdout
    IO.eprint output.stderr
    return output.exitCode
  | .error failure =>
    if i.wantsJson then IO.println failure.json
    else
      IO.eprintln failure.message
      for help in failure.help? do
        IO.eprintln ("help: " ++ help)
    return failure.exitCode

/-- The variables of the environment that set options. -/
def environment : IO CommandLine.Environment :=
  CommandLine.Opt.all.filterMapM fun o => do
    return (← IO.getEnv o.variableName).map fun value => (o.variableName, value)

end PipelineCompiler.Main

/-- Read the command line and run it. -/
def main (args : List String) : IO UInt32 := do
  match PipelineCompiler.CommandLine.read (← PipelineCompiler.Main.environment) args with
  | .ok i => return (← PipelineCompiler.Main.run i).toUInt32
  | .error refusal =>
    if refusal.exitCode = 0 then IO.println refusal.message else IO.eprintln refusal.message
    return refusal.exitCode.toUInt32

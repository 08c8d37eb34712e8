import PipelineCompiler.Glob
import PipelineCompiler.Lint.ManifestRules
import PipelineCompiler.Path
import PipelineCompiler.Secret
import PipelineCompiler.Surroundings

/-!
# Rules for triggers

A pipeline has exactly one git trigger, which has to describe the working copy that the manifest lives
in, and at most one timer and one docker trigger.
-/

namespace PipelineCompiler.Lint

/-! ## Git -/

/-- What two addresses of one repository have in common. -/
def repositoryKey (uri : String) : String :=
  let bare := Text.trimStarts (Text.trimStarts (Text.trim uri) "https://") "git@"
  let bare := Text.trimEnds (Text.trimEnds bare "/") ".git"
  Text.lower (Text.replaceFirst ":" "/" bare)

/-- The repository is reached by a way that its key allows, and it is the origin of the working
copy. -/
def uriFindings (g : GitTrigger) (git : GitState) : Findings :=
  let origin : Findings :=
    match git.origin with
    | .error message => .ofErrors [.collaborator message]
    | .ok origin =>
      if repositoryKey origin = repositoryKey g.uri then {}
      else
        .ofWarnings [.invalid "uri"
          s!"'{g.uri}' does not match the origin of this working copy '{origin}'"]
  if g.uri.isEmpty then .ofErrors [.missing "uri"]
  else if Text.startsWith g.uri "git@" then
    (if g.privateKey.isEmpty then Findings.ofErrors [.missing "private_key"] else {}) ++ origin
  else if Text.startsWith g.uri "https://" then
    (if g.privateKey.isEmpty then
      Findings.ofWarnings [.invalid "uri"
        "https uris only work for public repositories, use a git@ uri with a private_key for private ones"]
    else
      Findings.ofErrors [.invalid "uri" "a private_key cannot be used with an https uri"]) ++ origin
  else
    .ofErrors [.invalid "uri"
      s!"'{g.uri}' is not a valid git uri, expected git@<host>:<repo> or https://<host>/<repo>"]

/-- Number of directories that a base path leads down. -/
def baseDepth (basePath : String) : Nat :=
  ((Path.segments basePath.toList).filter fun s => s ≠ [] ∧ s ≠ Path.here).length

/-- The leading components of a pattern that no wildcard stands in. -/
def literalStart (pattern : String) : String :=
  let parts := (Path.segments pattern.toList).takeWhile fun s => !s.any Glob.isMeta
  String.ofList (Path.text (parts.filter fun s => !s.isEmpty))

/-- What is wrong with a watched path, which is relative to the root of the repository. -/
def watchedPathFault? (basePath : String) (files : FileProbe) (watched : String) : Option Fault :=
  match Glob.error? watched with
  | some error => some (.invalid "watched_paths" s!"'{watched}' is not a valid glob: {error.message}")
  | none =>
    let start := literalStart watched
    let climb := String.join (List.replicate (baseDepth basePath) "../")
    if start.isEmpty || files.exists? (climb ++ start) then none
    else some (.file watched FileIssue.notFound.text)

/-- Every watched path is a pattern whose leading components exist. -/
def watchedPathFindings (g : GitTrigger) (files : FileProbe) : Findings :=
  .ofErrors (g.watchedPaths.filterMap (watchedPathFault? g.basePath files))

/-- What is wrong with the branch of a trigger on the current branch. -/
def branchFault? (branch current : String) : Option Fault :=
  if branch.isEmpty then
    if Manifest.defaultBranches.contains current then none
    else
      some (.invalid "branch"
        s!"you are on branch '{current}', set 'branch: {current}' on the git trigger")
  else if branch = current then none
  else some (.invalid "branch" s!"'{branch}' does not match the current branch '{current}'")

/-- The trigger describes the working copy. -/
def gitFindings (g : GitTrigger) (files : FileProbe) (git : GitState) : Findings :=
  let cryptKey : Findings :=
    if g.gitCryptKey.isEmpty || Secret.isReference g.gitCryptKey then {}
    else
      .ofErrors [.invalid "git_crypt_key" "must be a secret reference such as '((gitcrypt.key))'"]
  let branch : Findings :=
    match git.branch with
    | .error message => .ofErrors [.collaborator message]
    | .ok current => .ofErrors (branchFault? g.branch current).toList
  uriFindings g git ++ watchedPathFindings g files ++ cryptKey ++ branch

/-! ## Other triggers -/

/-- A schedule has five fields. -/
def timerFindings (t : TimerTrigger) : Findings :=
  let fields := (Text.words t.cron).length
  if Text.isBlankText t.cron then .ofErrors [.missing "cron"]
  else if fields ≠ 5 then
    .ofErrors [.invalid "cron"
      s!"'{t.cron}' has {fields} fields, expected five: minute hour day-of-month month day-of-week"]
  else {}

/-- An image trigger names its image; a login is complete. -/
def dockerFindings (d : DockerTrigger) : Findings :=
  .ofErrors <|
    (if d.image.isEmpty then [.missing "image"] else [])
      ++ (if !d.username.isEmpty && d.password.isEmpty then [.missing "password"] else [])
      ++ (if !d.password.isEmpty && d.username.isEmpty then [.missing "username"] else [])

/-- The outcomes of a build that can start another pipeline. -/
def validStatuses : List String := ["succeeded", "failed", "errored", "aborted"]

/-- The other pipeline belongs to the same team, and a job of it is named. -/
def pipelineFindings (p : PipelineTrigger) (team : String) : Findings :=
  let statuses := ", ".intercalate validStatuses
  let required := [("concourse_url", p.concourseUrl), ("username", p.username),
    ("password", p.password)]
  .ofErrors <|
    ((required.filter fun f => f.2.isEmpty).map fun f => Fault.missing f.1)
      ++ (if p.team ≠ team then
        [.invalid "team" s!"you can only trigger on pipelines of your own team '{team}'"] else [])
      ++ (if p.pipeline.isEmpty then [.invalid "pipeline" "upstream pipeline must be set"] else [])
      ++ (if p.job.isEmpty then [.invalid "job" "upstream job must be set"] else [])
      ++ (if validStatuses.contains p.status then []
        else
          [.invalid "status" s!"'{p.status}' is not one of {statuses}"])

/-! ## All triggers -/

/-- The rules for one trigger. -/
def triggerFindings (m : Manifest) (s : Surroundings) : Trigger → Findings
  | .git g => gitFindings g s.files s.git
  | .timer t => timerFindings t
  | .docker d => dockerFindings d
  | .pipeline p => pipelineFindings p m.team

/-- What is wrong with the number of triggers of a kind. -/
def triggerCountFault? (m : Manifest) (kind : String) (least : Nat) : Option Fault :=
  let count := (m.triggers.filter fun t => t.kind = kind).length
  if least ≤ count ∧ count ≤ 1 then none
  else
    let expected := if least = 1 then "exactly one" else "at most one"
    some (.invalid "triggers" s!"found {count} {kind} triggers, expected {expected}")

/-- There is one git trigger, at most one timer and one docker trigger, and each follows its rules. -/
def triggersFindings (m : Manifest) (s : Surroundings) : Findings :=
  .ofErrors ([("git", 1), ("timer", 0), ("docker", 0)].filterMap fun (kind, least) =>
      triggerCountFault? m kind least)
    ++ .concat (m.triggers.zipIdx.map fun (t, i) => (triggerFindings m s t).under (triggerPosition i))

/-- The report on triggers. -/
def triggersReport (c : Config) (m : Manifest) (s : Surroundings) : Report :=
  { linter := "Triggers"
    docsUrl := docsUrl c "manifest/#triggers"
    findings := triggersFindings m s }

end PipelineCompiler.Lint

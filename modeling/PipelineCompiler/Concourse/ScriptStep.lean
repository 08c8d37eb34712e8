import PipelineCompiler.Concourse.Resources

/-!
# Running scripts

A script runs in its image with the revision, and the version if there is one, in its environment.
Afterwards the artifacts it names are copied to where the next step uploads them from.
-/

namespace PipelineCompiler.Concourse

/-- A shell function that copies an artifact and fails without it. -/
def copyFunction : String :=
  "\n".intercalate
    ["copyArtifact() \x7b",
      "  ARTIFACT=$1",
      "  ARTIFACT_OUT_PATH=$2",
      "",
      "  if [ -e $ARTIFACT ] ; then",
      "    mkdir -p $ARTIFACT_OUT_PATH",
      "    cp -r $ARTIFACT $ARTIFACT_OUT_PATH",
      "  else",
      "    echo \"ERROR: Artifact '$ARTIFACT' not found. Try fly hijack to check the filesystem.\"",
      "    exit 1",
      "  fi",
      "\x7d",
      ""]

/-- The commands that put the revision, and the version if there is one, into the environment. -/
def exports (m : Manifest) : List String :=
  ["export GIT_REVISION=`cat " ++ revisionPath m.basePath ++ "`"]
    ++ (if m.isVersioned then ["export BUILD_VERSION=`cat " ++ versionPath m.basePath ++ "`"] else [])

namespace ScriptStep

/-- The command that copies an artifact below an output. -/
def copyCommand (m : Manifest) (output artifact : String) : String :=
  "copyArtifact " ++ artifact ++ " " ++ artifactDestination gitDir m.basePath output artifact

/-- The shell script around the command of a script. -/
def shellText (m : Manifest) (s : Script) : String :=
  let saved := s.attributes.saveArtifacts
  let savedOnFailure := s.attributes.saveArtifactsOnFailure
  "\n".intercalate <|
    (if saved.isEmpty && savedOnFailure.isEmpty then [] else [copyFunction])
      ++ exports m
      ++ ["", Script.command s.run.script, "EXIT_STATUS=$?", "if [ $EXIT_STATUS != 0 ] ; then"]
      ++ (if savedOnFailure.isEmpty then []
        else
          "  # Artifacts to copy in case of failure"
            :: savedOnFailure.map fun a => "  " ++ copyCommand m savedOnFailureDir a)
      ++ ["  exit 1", "fi"]
      ++ (if saved.isEmpty then []
        else ["", "# Artifacts to copy from task"] ++ saved.map (copyCommand m savedDir))

/-- The container of a script. -/
def container (m : Manifest) (s : Script) : Container :=
  { image := imageSource s.run.docker
    env := s.attributes.vars.entries
    command := shell (shellText m s) (some (workingDir m.basePath))
    inputs :=
      [gitDir]
        ++ (if s.leaf.readsArtifacts then [restoredDir] else [])
        ++ (if m.isVersioned then [versionName] else [])
    outputs :=
      (if s.leaf.savesArtifacts then [savedDir] else [])
        ++ (if s.leaf.savesArtifactsOnFailure then [savedOnFailureDir] else []) }

/-- Upload what a script saved. -/
def saveStep : Step :=
  Step.asTransfer <|
    .put
      { name := savedName
        params := .ofTexts [("folder", savedDir), ("version_file", revisionFile)] }
      {}

/-- Run a script and upload what it saved. -/
def steps (m : Manifest) (s : Script) : List Step :=
  let task : TaskStep :=
    { name := Text.identifier s.leaf.name, privileged := s.privileged, container := container m s }
  (Step.task task {}).forLeaf s.leaf :: (if s.leaf.savesArtifacts then [saveStep] else [])

end ScriptStep

/-- Download what earlier jobs saved for the revision. -/
def restoreStep (c : Config) (m : Manifest) : Step :=
  Step.asTransfer <|
    .task
      { name := "get-artifact"
        container :=
          { image := installationSource c storeType "stable"
            env :=
              [("BUCKET", m.artifactsBucket c.artifactsBucket), ("FOLDER", artifactsFolder m),
                ("JSON_KEY", m.artifactsJsonKey c.artifactsJsonKey), ("VERSION_FILE", revisionFile)]
            command :=
              { path := "/opt/resource/download", args := ["."], dir := some restoredDir }
            inputs := [gitDir]
            outputs := [restoredDir] } }
      {}

end PipelineCompiler.Concourse

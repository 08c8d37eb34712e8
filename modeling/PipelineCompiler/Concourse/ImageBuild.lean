import PipelineCompiler.Concourse.Resources

/-!
# Building images

An image is built once and pushed under its revision to a repository of its own in the installation's
registry. It is scanned there and then published under every tag.
-/

namespace PipelineCompiler.Concourse

/-- Directory with the working copy and the restored artifacts. -/
def buildDir : String := "docker_build"

/-- Directory with the list of tags. -/
def tagsDir : String := "tagList"

/-- File with the list of tags. -/
def tagsFile : String := "tagList/tagList"

/-- Reference to the logins for all registries. -/
def registryLogins : String := "((halfpipe-gcr.docker_config))"

/-- Command that installs the logins. -/
def installLogins : String := "echo $DOCKER_CONFIG_JSON > ~/.docker/config.json"

/-- An image without a login. -/
def publicImage (image : String) : Settings := imageSource { image }

/-- The image with the build tool. -/
def buildTool (c : Config) : Settings := installationSource c "halfpipe-buildx" "latest"

/-- Lines of a shell script. -/
def lines (ls : List String) : String := "\n".intercalate ls

namespace ImageBuild

/-- Repository that an image is pushed to before it is scanned. -/
def cacheImage (c : Config) (image : String) : String :=
  let repository := (Image.split image).1
  c.registryImage ("cache/" ++ (Text.dropStart? repository c.dockerRegistry).getD repository)

/-- The directory that is built: the manifest's, in the working copy or where artifacts were copied to
it. -/
def rootDir (basePath : String) (a : Attributes) : String :=
  Path.join [if a.restoreArtifacts then buildDir else gitDir, basePath]

/-- What the build tool is told. The variables of the task are arguments of the build. -/
def buildEnv (p : DockerPush) (vars : Vars) (root : String) : Env :=
  [("CONTEXT", Path.join [root, p.buildPath]), ("DOCKERFILE", Path.join [root, p.dockerfilePath]),
    ("DOCKER_CONFIG_JSON", registryLogins)]
    ++ vars.entries.map fun (name, v) => ("BUILD_ARG_" ++ name, v)

/-- The command that builds an image and pushes it under its revision. -/
def buildCommand (c : Config) (p : DockerPush) : String :=
  let cache := cacheImage c p.image
  let layers := cache ++ ":buildcache"
  let tags := ["-t " ++ cache ++ ":$(cat git/.git/ref)"] ++ (if p.useCache then ["-t " ++ layers] else [])
  "docker buildx build -f $DOCKERFILE --platform " ++ ",".intercalate p.platforms ++ " "
    ++ " ".intercalate tags ++ " --push --provenance=false"
    ++ (if p.useCache then
        " --cache-from=type=registry,ref=" ++ layers ++ " --cache-to=type=inline"
      else "")
    ++ " $CONTEXT"

/-- Copy the working copy and the restored artifacts into one directory. -/
def copyStep : TaskStep :=
  { name := "copying-git-repo-and-artifacts-to-a-temporary-build-dir"
    container :=
      { image := publicImage "alpine"
        command := shell <| lines
          ["cp -r " ++ gitDir ++ "/. " ++ buildDir, "cp -r " ++ savedName ++ "/. " ++ buildDir]
        inputs := [gitDir, savedName]
        outputs := [buildDir] } }

/-- Write the list of tags: the revision, the version if there is one, and `latest`. -/
def tagsStep (versioned : Bool) : TaskStep :=
  { name := "create-tag-list"
    container :=
      { image := publicImage "alpine"
        command := shell <| lines
          ["GIT_REF=`[ -f git/.git/ref ] && cat git/.git/ref || true`",
            "VERSION=`[ -f version/version ] && cat version/version || true`",
            "printf \"%s %s latest\" \"$GIT_REF\" \"$VERSION\" > " ++ tagsFile,
            "printf \"Image will be tagged with: %s\\n\" $(cat " ++ tagsFile ++ ")"]
        inputs := [gitDir] ++ (if versioned then [versionName] else [])
        outputs := [tagsDir] } }

/-- Build the image. -/
def buildStep (c : Config) (p : DockerPush) (vars : Vars) (root : String) (reads : Bool) : TaskStep :=
  { name := "build"
    privileged := true
    container :=
      { image := buildTool c
        env := buildEnv p vars root
        command := shell (lines [installLogins, buildCommand c p])
        inputs := [gitDir, tagsDir] ++ (if reads then [buildDir] else []) } }

/-- Scan the image, without failing the job. -/
def scanStep (c : Config) (p : DockerPush) (basePath root : String) (reads : Bool) : TaskStep :=
  { name := "trivy"
    container :=
      { image := publicImage "aquasec/trivy"
        env := [("DOCKER_CONFIG_JSON", registryLogins)]
        command := shell
          (lines
            ["[ -f .trivyignore ] && echo \"Ignoring the following CVE's due to .trivyignore\" || true",
              "[ -f .trivyignore ] && cat .trivyignore; echo || true",
              "trivy image --timeout " ++ toString p.scanTimeout.toNat
                ++ "m --ignore-unfixed --severity CRITICAL --scanners vuln --exit-code 0 "
                ++ cacheImage c p.image ++ ":$(cat " ++ revisionPath basePath ++ ") || true"])
          (some root)
        inputs := [gitDir] ++ (if reads then [buildDir] else []) } }

/-- Publish the image under every tag. -/
def publishStep (c : Config) (p : DockerPush) (vars : Vars) (root : String) : TaskStep :=
  let (repository, tag) := Image.split p.image
  { name := "publish-final-image"
    privileged := true
    container :=
      { image := buildTool c
        env := buildEnv p vars root
        command := shell <| lines
          [installLogins,
            "for tag in $(cat " ++ tagsFile ++ ") " ++ tag ++ "; do docker buildx imagetools create "
              ++ cacheImage c p.image ++ ":$(cat git/.git/ref) --tag " ++ repository ++ ":$tag; done"]
        inputs := [gitDir, tagsDir] } }

/-- The steps of an image build. -/
def steps (c : Config) (m : Manifest) (l : Leaf) (p : DockerPush) : List Step :=
  let a := l.attributes
  let root := rootDir m.basePath a
  let reads := l.readsArtifacts
  let tasks :=
    (if a.restoreArtifacts then [copyStep] else [])
      ++ [tagsStep m.isVersioned, buildStep c p a.vars root reads,
        scanStep c p m.basePath root reads, publishStep c p a.vars root]
  tasks.map fun t => (Step.task t {}).forLeaf l

end ImageBuild

end PipelineCompiler.Concourse

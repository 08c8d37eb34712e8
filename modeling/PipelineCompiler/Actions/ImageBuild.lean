import PipelineCompiler.Actions.ScriptStep

/-!
# Building images

An image is built and scanned on the runner, and built once more from what was kept to be pushed for
every platform. Other workflows are then told about it.
-/

namespace PipelineCompiler.Actions.ImageBuild

/-- The event that tells other workflows about an image. -/
def event (image : String) : String := "docker-push:" ++ image

/-- The tags that an image is published under, one a line. -/
def tags (p : DockerPush) : String :=
  let tag := if p.tag = "gitref" then gitRevision else buildVersion
  p.image ++ ":latest\n" ++ p.image ++ ":" ++ tag ++ "\n"

/-- Arguments of a build: every variable of the task. -/
def buildArgs (vars : Vars) : Settings :=
  if vars.isEmpty then []
  else
    .ofTexts
      [("build-args",
        "\n".intercalate (vars.names.map fun name => name ++ "=" ++ expression ("env." ++ name)))]

/-- The steps of an image build. -/
def steps (basePath : String) (l : Leaf) (p : DockerPush) : List Step :=
  let build := "docker/build-push-action@v2"
  let place : Settings :=
    .ofTexts [("context", repoPath basePath p.buildPath), ("file", repoPath basePath p.dockerfilePath)]
  let candidate := p.image ++ ":" ++ gitRevision
  let layers := "type=registry,ref=" ++ p.image ++ ":buildcache"
  let args := buildArgs l.attributes.vars
  prepareSteps basePath l
    ++ [useStep "Set up Docker Buildx" "docker/setup-buildx-action@v1",
      loginStep p.image p.username p.password,
      useStep "Build Image" build
        (place ++ [("push", .flag false), ("load", .flag true), ("tags", .text candidate)] ++ args),
      useStep "Run Trivy vulnerability scanner" "aquasecurity/trivy-action@master"
        [("image-ref", .text candidate), ("exit-code", .text "0"), ("ignore-unfixed", .flag true),
          ("severity", .text "CRITICAL,HIGH"),
          ("timeout", .text (toString p.scanTimeout.toNat ++ "m"))],
      useStep "Push Image" build
        (place
          ++ [("push", .flag true), ("platforms", .text (",".intercalate p.platforms)),
            ("tags", .text (tags p))]
          ++ (if p.useCache then
              Settings.ofTexts [("cache-from", layers), ("cache-to", layers ++ ",mode=max")]
            else [])
          ++ args),
      useStep "Repository dispatch" "peter-evans/repository-dispatch@v1"
        (.ofTexts
          [("token", expression "secrets.EE_REPO_ACCESS_TOKEN"), ("event-type", event p.image)])]

end PipelineCompiler.Actions.ImageBuild

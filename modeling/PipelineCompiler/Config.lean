import PipelineCompiler.Text.Cut

/-!
# Configuration

The settings of an installation: registries, buckets, credentials and hosts.
-/

namespace PipelineCompiler

/-- Settings shared by every stage of a compilation. -/
structure Config where
  /-- Beginning of the installation's own images, up to and with the last slash. -/
  dockerRegistry : String := "eu.gcr.io/halfpipe-io/"
  artifactsBucket : String := "halfpipe-io-artifacts"
  artifactsJsonKey : String := "((halfpipe-gcr.private_key))"
  versionBucket : String := "halfpipe-io-semver"
  versionJsonKey : String := "((halfpipe-gcr.private_key))"
  slackWebhook : String := "((halfpipe-slack.webhook))"
  docHost : String := "docs.halfpipe.io"
  domain : String := "halfpipe.io"
  project : String := "halfpipe-io"
  /-- The Cloud Foundry endpoint that takes images. -/
  cfDockerApi : String := "((cloudfoundry.api-snpaas))"
  version : String := "3.112.0"
deriving DecidableEq, Repr, Inhabited

namespace Config

/-- An image of the installation's own registry. -/
def registryImage (c : Config) (name : String) : String := c.dockerRegistry ++ name

/-- The host to log in to for the installation's own registry. -/
def registryHost (c : Config) : String :=
  match Text.splitFirst? '/' c.dockerRegistry with
  | some (host, _) => host
  | none => c.dockerRegistry

/-- First line of every document that is written. -/
def header (version : String) : String := "# Generated using halfpipe version " ++ version

end Config

end PipelineCompiler

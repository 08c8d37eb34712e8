import PipelineCompiler.Config
import PipelineCompiler.Value.Fields

/-!
# Reading configurations

A configuration from its document form. Missing settings keep their defaults, unknown ones are
refused, and every setting is a text.
-/

namespace PipelineCompiler

namespace Config

/-- The settings in their order. -/
def fieldNames : List String :=
  ["docker_registry", "artifacts_bucket", "artifacts_json_key", "version_bucket",
    "version_json_key", "slack_webhook", "doc_host", "domain", "project", "cf_docker_api",
    "version"]

/-- Read a configuration from its document form. -/
def ofValue? (v : Value) : Option Config := do
  let unset : Config := {}
  let fs ← v.fields? fieldNames
  if !fs.all fun f => fieldNames.contains f.1 then none
  let text (name default : String) : Option String := fs.get? name Value.text? default
  let dockerRegistry ← text "docker_registry" unset.dockerRegistry
  let artifactsBucket ← text "artifacts_bucket" unset.artifactsBucket
  let artifactsJsonKey ← text "artifacts_json_key" unset.artifactsJsonKey
  let versionBucket ← text "version_bucket" unset.versionBucket
  let versionJsonKey ← text "version_json_key" unset.versionJsonKey
  let slackWebhook ← text "slack_webhook" unset.slackWebhook
  let docHost ← text "doc_host" unset.docHost
  let domain ← text "domain" unset.domain
  let project ← text "project" unset.project
  let cfDockerApi ← text "cf_docker_api" unset.cfDockerApi
  let version ← text "version" unset.version
  return {
    dockerRegistry, artifactsBucket, artifactsJsonKey, versionBucket, versionJsonKey,
    slackWebhook, docHost, domain, project, cfDockerApi, version
  }

/-- The document form of a configuration. -/
def toValue (c : Config) : Value :=
  .record
    [("docker_registry", .str c.dockerRegistry), ("artifacts_bucket", .str c.artifactsBucket),
      ("artifacts_json_key", .str c.artifactsJsonKey), ("version_bucket", .str c.versionBucket),
      ("version_json_key", .str c.versionJsonKey), ("slack_webhook", .str c.slackWebhook),
      ("doc_host", .str c.docHost), ("domain", .str c.domain), ("project", .str c.project),
      ("cf_docker_api", .str c.cfDockerApi), ("version", .str c.version)]

end Config

end PipelineCompiler

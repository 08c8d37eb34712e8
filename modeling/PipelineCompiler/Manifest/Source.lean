import PipelineCompiler.Manifest.Reading
import PipelineCompiler.Text.Blank
import PipelineCompiler.Yaml.Reading

/-!
# Manifest texts

A manifest is written in YAML. The fields of the manifest itself have known types; tasks and triggers
are read as values, since their type depends on their kind.
-/

namespace PipelineCompiler

/-- Why a manifest text is refused. -/
inductive SourceError where
  | empty
  | malformed
deriving DecidableEq, Repr

namespace Yaml.Document

/-- The value of a task or trigger. The text under `type` is its kind however it is spelt. -/
def taggedValue? (d : Document) (n : Node) : Option Value := do
  -- the root of the manifest and the list stand around it
  let outer := 2
  match ← d.follow? n with
  | .map entries tag =>
    if isOwnTag tag then none
    let es ← entries.mapM fun (k, v) => do
      let key ← d.valueAt? k (outer + 1)
      if key.isText "type" then return (key, .str (← d.text? v))
      else return (key, ← d.valueAt? v (outer + 1))
    return .map es
  | .seq (kind :: items) tag =>
    if isOwnTag tag then none
    let vs ← items.mapM fun v => d.valueAt? v (outer + 1)
    return .seq (.str (← d.text? kind) :: vs)
  | _ => none

/-- A platform by its name, which may also be given as a tag of nothing. -/
def platform? (d : Document) (n : Node) : Option Platform := do
  match ← d.follow? n with
  | .scalar text plain tag =>
    match tag.map String.toList with
    | some ('!' :: name) =>
      if plain && (text.isEmpty || isNullSpelling text) then Platform.ofName? (String.ofList name)
      else none
    | _ => Platform.ofName? text
  | _ => none

end Yaml.Document

namespace Manifest

/-- Read a manifest from a document. -/
def ofDocument? (d : Yaml.Document) : Option Manifest := do
  let es ← d.entries? d.root
  let text (name : String) : Option String := Yaml.fieldOr? es name d.text? ""
  let team ← text "team"
  let pipeline ← text "pipeline"
  let slackChannel ← text "slack_channel"
  let slackSuccessMessage ← text "slack_success_message"
  let slackFailureMessage ← text "slack_failure_message"
  let artifactConfig ← Yaml.fieldOr? es "artifact_config" (fun n => do
    let fs ← d.entries? n
    let bucket ← Yaml.fieldOr? fs "bucket" d.text? ""
    let jsonKey ← Yaml.fieldOr? fs "json_key" d.text? ""
    return ({ bucket, jsonKey } : ArtifactConfig)) {}
  let featureToggles ← Yaml.fieldOr? es "feature_toggles" d.texts? []
  let triggers ← Yaml.fieldOr? es "triggers"
    (d.list? fun n => (d.taggedValue? n).bind Trigger.ofValue?) []
  let tasks ← Yaml.fieldOr? es "tasks" (d.list? fun n => (d.taggedValue? n).bind Task.ofValue?) []
  let platform ← Yaml.fieldOr? es "platform" d.platform? .concourse
  return {
    team, pipeline, slackChannel, slackSuccessMessage, slackFailureMessage, artifactConfig,
    featureToggles, triggers, tasks, platform
  }

/-- Read a manifest from its text, which must not be blank. -/
def ofText (text : String) : Except SourceError Manifest :=
  if Text.isBlankText text then .error .empty
  else
    match (Yaml.Document.ofText? text).bind ofDocument? with
    | some m => .ok m
    | none => .error .malformed

end Manifest

end PipelineCompiler

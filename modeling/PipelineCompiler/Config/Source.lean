import PipelineCompiler.Config.Reading
import PipelineCompiler.Toml

/-!
# Configuration texts

A configuration is written in TOML, one line for each setting that differs from its default.
-/

namespace PipelineCompiler

namespace Config

/-- Read a configuration from its text. -/
def ofText? (text : String) : Option Config := do
  let settings ← Toml.settings? text
  ofValue? (.record (settings.map fun (name, v) => (name, .str v)))

end Config

end PipelineCompiler

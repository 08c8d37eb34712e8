import PipelineCompiler.Lint.TriggerRules
import PipelineCompiler.Manifest.Writing

/-!
# Paths that a manifest mentions

Every file that a linter looks for is named by a text of the manifest, or by a word of one; watched paths
are named from the root of the working copy. So it is enough to know these files.
-/

namespace PipelineCompiler

mutual

/-- The texts within a value. -/
def Value.allTexts : Value → List String
  | .str s => [s]
  | .seq items => textsOfItems items
  | .map entries => textsOfEntries entries
  | _ => []

/-- The texts within items. -/
def Value.textsOfItems : List Value → List String
  | [] => []
  | v :: rest => v.allTexts ++ textsOfItems rest

/-- The texts within the values of entries. -/
def Value.textsOfEntries : List (Value × Value) → List String
  | [] => []
  | (_, v) :: rest => v.allTexts ++ textsOfEntries rest

end

namespace Manifest

/-- The leading components of the watched paths, from the directory of the manifest. -/
def watchedPlaces (m : Manifest) : List String :=
  match m.git? with
  | none => []
  | some g => g.watchedPaths.map fun watched =>
      String.join (List.replicate (Lint.baseDepth g.basePath) "../") ++ Lint.literalStart watched

/-- The paths that a manifest may mention, from its own directory. -/
def mentionedPaths (m : Manifest) : List String :=
  m.toValue.allTexts.flatMap (fun s => s :: Text.words s) ++ m.watchedPlaces

end Manifest

end PipelineCompiler

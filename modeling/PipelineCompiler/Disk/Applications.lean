import PipelineCompiler.Disk
import PipelineCompiler.Template
import PipelineCompiler.Yaml.Reading
import PipelineCompiler.Yaml.Writing

/-!
# Applications on a disk

The manifest of an application is a template in YAML. Its placeholders are filled from files with
variables, of which later ones win, and from variables given beside them, which win over all files.
-/

namespace PipelineCompiler

/-! ## Manifests -/

namespace Application

/-- Read the address of a route. -/
def route? (d : Yaml.Document) (n : Yaml.Node) : Option String := do
  Yaml.fieldOr? (← d.entries? n) "route" d.text? ""

/-- Read the image of a container. -/
def image? (d : Yaml.Document) (n : Yaml.Node) : Option String := do
  Yaml.fieldOr? (← d.entries? n) "image" d.text? ""

/-- Read an application from its node. -/
def ofNode? (d : Yaml.Document) (n : Yaml.Node) : Option Application := do
  let es ← d.entries? n
  let name ← Yaml.fieldOr? es "name" d.text? ""
  let routes ← Yaml.fieldOr? es "routes" (d.list? (route? d)) []
  let noRoute ← Yaml.fieldOr? es "no-route" d.flag? false
  let healthCheckType ← Yaml.fieldOr? es "health-check-type" d.text? ""
  let buildpack ← Yaml.fieldOr? es "buildpack" d.text? ""
  let image ← Yaml.fieldOr? es "docker" (d.orNull? (image? d)) none
  return { name, routes, noRoute, healthCheckType, buildpack, dockerImage := image.getD "" }

/-- Read the applications of a manifest. -/
def listOfText? (text : String) : Option (List Application) := do
  let d ← Yaml.Document.ofText? text
  Yaml.fieldOr? (← d.entries? d.root) "applications" (d.list? (ofNode? d)) []

end Application

/-! ## Files with variables -/

mutual

/-- No mapping within a value has a key twice. -/
def Value.hasDistinctKeys : Value → Bool
  | .seq items => itemsHaveDistinctKeys items
  | .map entries => entriesHaveDistinctKeys entries
  | _ => true

/-- No mapping within the items has a key twice. -/
def Value.itemsHaveDistinctKeys : List Value → Bool
  | [] => true
  | v :: rest => v.hasDistinctKeys && itemsHaveDistinctKeys rest

/-- No key of the entries stands twice, and no mapping within them has a key twice. -/
def Value.entriesHaveDistinctKeys : List (Value × Value) → Bool
  | [] => true
  | (k, v) :: rest =>
    !(rest.map Prod.fst).contains k && k.hasDistinctKeys && v.hasDistinctKeys
      && entriesHaveDistinctKeys rest

end

namespace Vars

/-- A value as the text of a variable: texts as they are, nothing for null, and anything else as it is
written in YAML. -/
def textOfValue : Value → String
  | .null => ""
  | .str s => s
  | v => Text.trimEnd (Yaml.render v)

/-- A tagged value as the text of a variable. -/
def textOfTagged (tag : String) : Value → String
  | .seq [] => tag ++ " []"
  | .map [] => tag ++ " \x7b\x7d"
  | .seq items => tag ++ "\n" ++ textOfValue (.seq items)
  | .map entries => tag ++ "\n" ++ textOfValue (.map entries)
  | v => tag ++ " " ++ Text.trimEnd (Yaml.render v)

/-- A node with a tag of the author's own, taken apart into the tag and the node without it. -/
def untagged : Yaml.Node → Option String × Yaml.Node
  | .scalar text plain tag =>
    if Yaml.Document.isOwnTag tag then (tag, .scalar text plain none) else (none, .scalar text plain tag)
  | .seq items tag =>
    if Yaml.Document.isOwnTag tag then (tag, .seq items none) else (none, .seq items tag)
  | .map entries tag =>
    if Yaml.Document.isOwnTag tag then (tag, .map entries none) else (none, .map entries tag)
  | n => (none, n)

/-- The text that a node gives to a variable. -/
def textOfNode? (d : Yaml.Document) (n : Yaml.Node) : Option String := do
  let (tag, n) := untagged (← d.follow? n)
  -- a tag without a name has no written form
  if tag = some "!" then none
  -- the mapping of the file stands around it
  let v ← d.valueAt? n 1
  if !v.hasDistinctKeys then none
  match tag with
  | none => return textOfValue v
  | some tag => return textOfTagged tag v

/-- Read the variables of a file in the order in which they stand there. -/
def entriesOfText? (text : String) : Option (List (String × String)) := do
  let d ← Yaml.Document.ofText? text
  (← d.entries? d.root).mapM fun (name, n) => (textOfNode? d n).map fun value => (name, value)

end Vars

/-! ## Looking applications up -/

/-- Why the applications of a manifest are not known. -/
inductive InventoryFault where
  | unreadable (path : String) (e : ReadError)
  | malformed (path : String)
  | missing (names : List String)
deriving DecidableEq, Repr

/-- What stands in a message for the account that a parser gives of a fault. -/
def parserAccount : String := "<parser message>"

/-- The words for a fault. -/
def InventoryFault.message : InventoryFault → String
  | .unreadable path e => "open " ++ path ++ ": " ++ e.message
  | .malformed path => path ++ ": " ++ parserAccount
  | .missing names => Template.missingText names

namespace Disk

/-- Read a file seen from a directory. -/
def readUnder (d : Disk) (dir path : String) : Except InventoryFault String :=
  (d.files.read (Path.under dir path)).mapError (.unreadable path)

/-- The variables of files, and those that are given beside them. -/
def varsOfFiles (d : Disk) (dir : String) (files : List String) (own : Vars) :
    Except InventoryFault Vars := do
  let fromFiles ← files.foldlM (fun vars path => do
    match Vars.entriesOfText? (← d.readUnder dir path) with
    | some entries => return vars.setAll entries
    | none => throw (.malformed path)) Vars.empty
  return fromFiles.setAll own.entries

/-- The applications of the manifest at a path. The manifest is read before the variables. -/
def applications (d : Disk) (dir path : String) (varsFiles : List String) (own : Vars) :
    Except InventoryFault (List Application) := do
  let source ← d.readUnder dir path
  let vars ← d.varsOfFiles dir varsFiles own
  let text ← (Template.fill vars source).mapError .missing
  match Application.listOfText? text with
  | some apps => return apps
  | none => throw (.malformed path)

/-- Everything around a manifest in a directory. -/
def surroundings (d : Disk) (dir : String) : Surroundings where
  files := d.files.probe dir
  git := d.git dir
  inventory path varsFiles own :=
    (d.applications dir path varsFiles own).mapError InventoryFault.message

end Disk

end PipelineCompiler

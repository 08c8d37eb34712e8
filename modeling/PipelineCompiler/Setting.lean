import PipelineCompiler.Value

/-!
# Settings

Named settings that a pipeline hands to a resource, a step or an action. They keep the order in which
they were put, and a name that is put again keeps its place.
-/

namespace PipelineCompiler

/-- The value of a setting. -/
inductive Setting where
  | text (s : String)
  | flag (b : Bool)
  | number (n : Nat)
  | texts (items : List String)
  | table (entries : List (String × String))
deriving DecidableEq, Repr

namespace Setting

/-- The document form of a setting. -/
def toValue : Setting → Value
  | .text s => .str s
  | .flag b => .bool b
  | .number n => .nat n
  | .texts items => .texts items
  | .table entries => .record (entries.map fun (name, v) => (name, .str v))

/-- The text of a setting that is one. -/
def text? : Setting → Option String
  | .text s => some s
  | _ => none

end Setting

/-- Settings by name. -/
abbrev Settings := List (String × Setting)

/-- Environment variables in the order in which they are handed over. -/
abbrev Env := List (String × String)

/-- The value under a name. -/
def named? (entries : List (String × α)) (name : String) : Option α :=
  (entries.find? fun e => e.1 = name).map Prod.snd

/-- Put a value under a name. A name that is there keeps its place, a new one comes last. -/
def put (entries : List (String × α)) (name : String) (value : α) : List (String × α) :=
  match entries with
  | [] => [(name, value)]
  | e :: rest => if e.1 = name then (name, value) :: rest else e :: put rest name value

/-- Put entries one after the other. -/
def putAll (entries more : List (String × α)) : List (String × α) :=
  more.foldl (fun es (name, value) => put es name value) entries

/-- Settings that are all texts. -/
def Settings.ofTexts (entries : List (String × String)) : Settings :=
  entries.map fun (name, s) => (name, .text s)

/-- A text setting that is left out when it is blank. -/
def Settings.textUnlessBlank (name s : String) : Settings :=
  if s.isEmpty then [] else [(name, .text s)]

/-- The document form of settings. -/
def Settings.toValue (settings : Settings) : Value :=
  .record (settings.map fun (name, v) => (name, v.toValue))

/-- The document form of an environment. -/
def Env.toValue (env : Env) : Value := .record (env.map fun (name, v) => (name, .str v))

end PipelineCompiler

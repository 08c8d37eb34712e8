import PipelineCompiler.Yaml.Resolve

/-!
# Reading YAML documents

There are two ways to read a node. Where its type is known beforehand, a text field takes the text of
any scalar, and a blank value counts as an empty list or record. Where it is not, the node is turned
into a value by the spelling of its scalars; tags of the author's own have no value.
-/

namespace PipelineCompiler.Yaml

/-- Greatest number of collections that may stand inside each other. -/
def maxDepth : Nat := 128

namespace Document

/-- The node that an alias refers to; any other node is itself. -/
def follow? (d : Document) : Node → Option Node
  | .alias n => (d.anchored.find? fun e => e.1 = n).map Prod.snd
  | n => some n

/-! ## Values -/

/-- A tag that the author made up. -/
def isOwnTag (tag : Option String) : Bool := tag.any fun t => t.toList.head? == some '!'

/-- The value of a scalar; a standard tag fixes its type. -/
def scalarValue? (text : String) (plain : Bool) (tag : Option String) : Option Value :=
  let word? (v : Value) : Option Value :=
    match v with
    | .int n => if Int64.minValue.toInt ≤ n ∧ n.toNat < UInt64.size then some v else none
    | _ => some v
  match tag with
  | none => if plain then word? (plainValue text) else some (.str text)
  | some t =>
    if isOwnTag tag then none
    else
      match t with
      | "tag:yaml.org,2002:bool" => (bool? text).map .bool
      | "tag:yaml.org,2002:int" => ((int? text.toList).map .int).bind word?
      | "tag:yaml.org,2002:float" => (float? text.toList).map .float
      | "tag:yaml.org,2002:null" => if isNullSpelling text then some .null else none
      | _ => some (.str text)

mutual

/-- The value of a node, for at most `depth` collections inside each other. The last number is how
many aliases may still be followed. -/
def value? (d : Document) (n : Node) (jumps : Nat) : (depth : Nat) → Option (Value × Nat)
  | 0 =>
    match n with
    | .scalar text plain tag => (scalarValue? text plain tag).map fun v => (v, jumps)
    | _ => none
  | depth + 1 => do
    let (n, jumps) ← match n with
      | .alias _ => if jumps = 0 then none else some ((← d.follow? n), jumps - 1)
      | _ => some (n, jumps)
    match n with
    | .scalar text plain tag => (scalarValue? text plain tag).map fun v => (v, jumps)
    | .seq items tag =>
      if isOwnTag tag then none
      let (vs, jumps) ← values? d items jumps depth
      return (.seq vs, jumps)
    | .map entries tag =>
      if isOwnTag tag then none
      let (es, jumps) ← entryValues? d entries jumps depth
      return (.map es, jumps)
    | .alias _ => none

/-- The values of nodes. -/
def values? (d : Document) (ns : List Node) (jumps : Nat) (depth : Nat) :
    Option (List Value × Nat) :=
  match ns with
  | [] => some ([], jumps)
  | n :: rest => do
    let (v, jumps) ← value? d n jumps depth
    let (vs, jumps) ← values? d rest jumps depth
    return (v :: vs, jumps)

/-- The values of keys and values. -/
def entryValues? (d : Document) (es : List (Node × Node)) (jumps : Nat) (depth : Nat) :
    Option (List (Value × Value) × Nat) :=
  match es with
  | [] => some ([], jumps)
  | (k, v) :: rest => do
    let (k, jumps) ← value? d k jumps depth
    let (v, jumps) ← value? d v jumps depth
    let (es, jumps) ← entryValues? d rest jumps depth
    return ((k, v) :: es, jumps)

end

/-- How many aliases of a document may be followed. -/
def maxJumps (d : Document) : Nat := 100 * d.events

/-- The value of a node inside a number of collections. -/
def valueAt? (d : Document) (n : Node) (outer : Nat) : Option Value :=
  (d.value? n d.maxJumps (maxDepth - outer)).map Prod.fst

/-! ## Nodes of a known type -/

/-- The text of a scalar, however it is spelt. -/
def text? (d : Document) (n : Node) : Option String := do
  match ← d.follow? n with
  | .scalar text _ _ => some text
  | _ => none

/-- A truth value. -/
def flag? (d : Document) (n : Node) : Option Bool := do
  match ← d.follow? n with
  | .scalar text true _ => bool? text
  | _ => none

/-- The items of a list. -/
def items? (d : Document) (n : Node) : Option (List Node) := do
  match ← d.follow? n with
  | .seq items _ => some items
  | .scalar "" true _ => some []
  | _ => none

/-- The entries of a record under their names. -/
def entries? (d : Document) (n : Node) : Option (List (String × Node)) := do
  match ← d.follow? n with
  | .map entries _ => entries.mapM fun (k, v) => (d.text? k).map fun name => (name, v)
  | .scalar "" true _ => some []
  | _ => none

/-- A list whose items can all be read. -/
def list? (d : Document) (read : Node → Option α) (n : Node) : Option (List α) := do
  (← d.items? n).mapM read

/-- A list of texts. -/
def texts? (d : Document) (n : Node) : Option (List String) := d.list? d.text? n

/-- A node that may be left unset by writing null or nothing. -/
def orNull? (d : Document) (read : Node → Option α) (n : Node) : Option (Option α) := do
  match ← d.follow? n with
  | .scalar text true none =>
    if text.isEmpty || isNullSpelling text then some none else (read n).map some
  | .scalar text true (some "tag:yaml.org,2002:null") =>
    if isNullSpelling text then some none else none
  | _ => (read n).map some

end Document

/-- Read a named entry, which takes its default if it is missing and must not stand twice. -/
def fieldOr? (entries : List (String × Node)) (name : String) (read : Node → Option α) (default : α) :
    Option α :=
  match entries.filter fun e => e.1 = name with
  | [] => some default
  | [(_, n)] => read n
  | _ => none

end PipelineCompiler.Yaml

import PipelineCompiler.Number.Binary64

/-!
# Document values

The values that structured documents hold, whatever text they were read from or are written to.
Mappings keep the order of their entries.
-/

namespace PipelineCompiler

/-- A value of a structured document. -/
inductive Value where
  | null
  | bool (b : Bool)
  | int (n : Int)
  | float (x : Binary64)
  | str (s : String)
  | seq (items : List Value)
  | map (entries : List (Value × Value))
deriving Repr, BEq, Inhabited

namespace Value

/-- A mapping with text keys. -/
def record (fields : List (String × Value)) : Value :=
  .map (fields.map fun (name, v) => (.str name, v))

/-- A sequence of texts. -/
def texts (items : List String) : Value := .seq (items.map .str)

/-- The value is a given text. -/
def isText (s : String) : Value → Bool
  | .str t => t = s
  | _ => false

/-- A number that is not negative. -/
def nat (n : Nat) : Value := .int n

mutual

/-- Number of levels of a value; a scalar has one. -/
def depth : Value → Nat
  | .seq items => depthOfItems items + 1
  | .map entries => depthOfEntries entries + 1
  | _ => 1

/-- Greatest depth among items. -/
def depthOfItems : List Value → Nat
  | [] => 0
  | v :: rest => max v.depth (depthOfItems rest)

/-- Greatest depth among the values of entries. -/
def depthOfEntries : List (Value × Value) → Nat
  | [] => 0
  | (_, v) :: rest => max v.depth (depthOfEntries rest)

end

end Value

end PipelineCompiler

import PipelineCompiler.Value

/-!
# Reading records

A record is written as a mapping from field names, or as a sequence of its leading fields in their
order. Fields that the record does not have are passed over, a missing field takes its default, and
a field that is given twice is refused.
-/

namespace PipelineCompiler

/-- The named values of a record, in the order in which they were written. -/
abbrev Fields := List (String × Value)

namespace Value

/-- Name the entries of a mapping. A whole number stands for the field at that position. -/
def nameEntries? (names : List String) : List (Value × Value) → Option Fields
  | [] => some []
  | (.str name, v) :: rest => (nameEntries? names rest).map ((name, v) :: ·)
  | (.int n, v) :: rest =>
    if n < 0 then none
    else
      match names[n.toNat]? with
      | some name => (nameEntries? names rest).map ((name, v) :: ·)
      | none => nameEntries? names rest
  | _ => none

/-- The fields of a record that is written as a mapping or as a sequence. -/
def fields? (names : List String) : Value → Option Fields
  | .map entries => nameEntries? names entries
  | .seq items => if items.length ≤ names.length then some (names.zip items) else none
  | _ => none

/-- The fields of a record that is written as a mapping only. -/
def openFields? : Value → Option Fields
  | .map entries => nameEntries? [] entries
  | _ => none

/-! ## Scalars and lists -/

/-- A text. -/
def text? : Value → Option String
  | .str s => some s
  | _ => none

/-- A truth value. -/
def flag? : Value → Option Bool
  | .bool b => some b
  | _ => none

/-- A whole number of 32 bits with a sign. -/
def int32? : Value → Option Int32
  | .int n => if Int32.minValue.toInt ≤ n ∧ n ≤ Int32.maxValue.toInt then some (Int32.ofInt n) else none
  | _ => none

/-- A whole number of 32 bits without a sign. -/
def uint32? : Value → Option UInt32
  | .int n => if 0 ≤ n ∧ n.toNat < UInt32.size then some (UInt32.ofNat n.toNat) else none
  | _ => none

/-- A sequence whose items can all be read. -/
def list? (read : Value → Option α) : Value → Option (List α)
  | .seq items => items.mapM read
  | _ => none

/-- A sequence of texts. -/
def texts? : Value → Option (List String) := list? text?

/-- A value that may be left unset by writing null. -/
def orNull? (read : Value → Option α) : Value → Option (Option α)
  | .null => some none
  | v => (read v).map some

end Value

/-- Read a field, which takes its default if it is missing. -/
def Fields.get? (fields : Fields) (name : String) (read : Value → Option α) (default : α) :
    Option α :=
  match fields.filter fun f => f.1 = name with
  | [] => some default
  | [(_, v)] => read v
  | _ => none

end PipelineCompiler

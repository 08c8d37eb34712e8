import PipelineCompiler.Value

/-!
# JSON texts

Values are written without blanks, and the fields of a record in their order. Quotes, backslashes and
control characters are escaped, and nothing else.
-/

namespace PipelineCompiler.Json

/-- A digit of an escaped character. -/
def hexDigit (n : Nat) : Char := Char.ofNat (if n < 10 then 48 + n else 87 + n)

/-- A character inside of quotes. -/
def escaped (c : Char) : List Char :=
  if c = '"' then ['\\', '"']
  else if c = '\\' then ['\\', '\\']
  else
    let n := c.toNat
    if n = 0x08 then ['\\', 'b']
    else if n = 0x09 then ['\\', 't']
    else if n = 0x0A then ['\\', 'n']
    else if n = 0x0C then ['\\', 'f']
    else if n = 0x0D then ['\\', 'r']
    else if n < 0x20 then ['\\', 'u', '0', '0', hexDigit (n / 16), hexDigit (n % 16)]
    else [c]

/-- A text in quotes. -/
def quoted (s : String) : List Char := '"' :: s.toList.flatMap escaped ++ ['"']

/-- A value that is no collection. Numbers that are not finite have no form of their own. -/
def scalar : Value → List Char
  | .null | .seq _ | .map _ => "null".toList
  | .bool b => (if b then "true" else "false").toList
  | .int n => (toString n).toList
  | .float (.finite negative m) => (Binary64.finite negative m).text.toList
  | .float _ => "null".toList
  | .str s => quoted s

/-- The name of a field. -/
def name : Value → List Char
  | .str s => quoted s
  | v => '"' :: scalar v ++ ['"']

mutual

/-- The characters of a value. -/
def chars : Value → List Char
  | .seq items => '[' :: itemChars items ++ [']']
  | .map entries => '\x7b' :: entryChars entries ++ ['\x7d']
  | v => scalar v

/-- Items of a sequence with commas between them. -/
def itemChars : List Value → List Char
  | [] => []
  | [v] => chars v
  | v :: rest => chars v ++ ',' :: itemChars rest

/-- Entries of a mapping with commas between them. -/
def entryChars : List (Value × Value) → List Char
  | [] => []
  | [(k, v)] => name k ++ ':' :: chars v
  | (k, v) :: rest => name k ++ ':' :: chars v ++ ',' :: entryChars rest

end

/-- The text of a value. -/
def render (v : Value) : String := String.ofList (chars v)

end PipelineCompiler.Json

import PipelineCompiler.Value
import PipelineCompiler.Yaml.Node

/-!
# Types of scalars

A plain scalar is null, a truth value, a number or a text, depending on how it is spelt. The same rules
decide which texts have to be quoted when they are written. Digits with a leading zero are a text.
-/

namespace PipelineCompiler.Yaml

/-! ## Spellings -/

/-- Null is written in four ways. -/
def isNullSpelling (s : String) : Bool := ["null", "Null", "NULL", "~"].contains s

/-- The truth value that a text spells. -/
def bool? (s : String) : Option Bool :=
  if ["true", "True", "TRUE"].contains s then some true
  else if ["false", "False", "FALSE"].contains s then some false
  else none

private def digitValue? (radix : Nat) (c : Char) : Option Nat :=
  let n := c.toNat
  let d :=
    if 48 ≤ n && n ≤ 57 then n - 48
    else if 97 ≤ n && n ≤ 122 then n - 87
    else if 65 ≤ n && n ≤ 90 then n - 55
    else radix
  if d < radix then some d else none

/-- The value of digits in a radix; there is at least one. -/
def digits? (radix : Nat) (cs : List Char) : Option Nat :=
  if cs.isEmpty then none
  else cs.foldlM (fun n c => (digitValue? radix c).map (radix * n + ·)) 0

/-- Digits in the radix that their first two characters name, or in decimal. -/
private def magnitude? : List Char → Option Nat
  | '0' :: 'x' :: rest => digits? 16 rest
  | '0' :: 'o' :: rest => digits? 8 rest
  | '0' :: 'b' :: rest => digits? 2 rest
  | cs => digits? 10 cs

/-- Decimal digits with a leading zero, which are a text and no number. -/
def isPadded (cs : List Char) : Bool :=
  let unsigned := match cs with
    | '-' :: rest => rest
    | '+' :: rest => rest
    | _ => cs
  match unsigned with
  | '0' :: d :: rest => (d :: rest).all Char.isDigit
  | _ => false

/-- The whole number that a text spells, within 128 bits. -/
def int? (cs : List Char) : Option Int :=
  if isPadded cs then none
  else
    match cs with
    | '-' :: rest =>
      match magnitude? rest with
      | some n => if n ≤ Nat.pow 2 127 then some (-n) else none
      | none => none
    | _ =>
      let unsigned := match cs with
        | '+' :: rest => rest
        | _ => cs
      match magnitude? unsigned with
      | some n => if n < Nat.pow 2 128 then some n else none
      | none => none

/-- The exponent after the letter that introduces it. -/
private def exponent? : List Char → Option Int
  | [] => none
  | '-' :: rest => (digits? 10 rest).map fun n => -(n : Int)
  | '+' :: rest => (digits? 10 rest).map fun n => (n : Int)
  | cs => (digits? 10 cs).map fun n => (n : Int)

/-- A decimal number without a sign: digits, a point somewhere among them, and an exponent. -/
def decimalMagnitude? (cs : List Char) : Option Magnitude := do
  let isMark (c : Char) := c == 'e' || c == 'E'
  let mantissa := cs.takeWhile fun c => !isMark c
  let exponent ← match cs.dropWhile fun c => !isMark c with
    | [] => some 0
    | _ :: rest => exponent? rest
  let whole := mantissa.takeWhile Char.isDigit
  let fraction ← match mantissa.dropWhile Char.isDigit with
    | [] => some []
    | '.' :: rest => if rest.all Char.isDigit then some rest else none
    | _ => none
  let digits ← digits? 10 (whole ++ fraction)
  let exponent := exponent - fraction.length
  -- beyond these exponents no digits that fit a text of this length matter
  let limit : Int := 400 + whole.length + fraction.length
  if digits = 0 then Magnitude.nearest? 0 1
  else if limit < exponent then none
  else if exponent < -limit then Magnitude.nearest? 0 1
  else if 0 ≤ exponent then Magnitude.nearest? (digits * Nat.pow 10 exponent.toNat) 1
  else Magnitude.nearest? digits (Nat.pow 10 (-exponent).toNat)

/-- The number with a fraction that a text spells. -/
def float? (cs : List Char) : Option Binary64 :=
  let s := String.ofList cs
  if [".inf", ".Inf", ".INF", "+.inf", "+.Inf", "+.INF"].contains s then some (.infinite false)
  else if ["-.inf", "-.Inf", "-.INF"].contains s then some (.infinite true)
  else if [".nan", ".NaN", ".NAN"].contains s then some .nan
  else if isPadded cs then none
  else
    match cs with
    | '-' :: rest => (decimalMagnitude? rest).map (.finite true)
    | '+' :: rest => (decimalMagnitude? rest).map (.finite false)
    | _ => (decimalMagnitude? cs).map (.finite false)

/-- The value of a plain scalar. -/
def plainValue (s : String) : Value :=
  if s.isEmpty || isNullSpelling s then .null
  else
    match bool? s with
    | some b => .bool b
    | none =>
      match int? s.toList with
      | some n => .int n
      | none =>
        match float? s.toList with
        | some x => .float x
        | none => .str s

end PipelineCompiler.Yaml

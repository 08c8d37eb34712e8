import PipelineCompiler.Number.Binary64
import PipelineCompiler.Text.Blank

/-!
# Durations

A duration such as `90s`, `15m` or `1.5h` is a run of amounts, each a decimal number and a unit.
`amounts?` reads the amounts and holds their exact values. `total?` adds them up from left to right,
each product and each sum rounded to a binary floating point number, and takes the nearest nanosecond.
-/

namespace PipelineCompiler

/-- A span of time in whole nanoseconds. -/
structure Duration where
  nanos : Nat
deriving DecidableEq, Repr, Inhabited

namespace Duration

/-- Nanoseconds in a second. -/
def nanosPerSecond : Nat := 1000000000

/-- Whole seconds of a span. -/
def seconds (d : Duration) : Nat := d.nanos / nanosPerSecond

/-- Nanoseconds of a span that are left over after its whole seconds. -/
def subsecondNanos (d : Duration) : Nat := d.nanos % nanosPerSecond

/-! ## Amounts -/

/-- The unit of an amount. -/
inductive Scale where
  | milliseconds
  | seconds
  | minutes
  | hours
deriving DecidableEq, Repr

/-- Units are written `ms`, `s`, `m` and `h`. -/
def Scale.ofChars? : List Char → Option Scale
  | ['m', 's'] => some .milliseconds
  | ['s'] => some .seconds
  | ['m'] => some .minutes
  | ['h'] => some .hours
  | _ => none

/-- Length of a unit in seconds, as a fraction. -/
def Scale.fraction : Scale → Nat × Nat
  | .milliseconds => (1, 1000)
  | .seconds => (1, 1)
  | .minutes => (60, 1)
  | .hours => (3600, 1)

/-- The number `digits / 10 ^ places` of a unit. -/
structure Amount where
  digits : Nat
  places : Nat
  scale : Scale
deriving DecidableEq, Repr

/-- The value of a list of digits. -/
def digitsValue (cs : List Char) : Nat :=
  cs.foldl (fun n c => 10 * n + (c.toNat - '0'.toNat)) 0

/-- Read a number: digits with at most one point and at least one digit. Gives the digits without
the point and how many of them follow it. -/
def decimal? (cs : List Char) : Option (Nat × Nat) :=
  let whole := cs.takeWhile Char.isDigit
  match cs.dropWhile Char.isDigit with
  | [] => if whole.isEmpty then none else some (digitsValue whole, 0)
  | point :: places =>
    if point = '.' ∧ places.all Char.isDigit ∧ ¬(whole ++ places).isEmpty then
      some (digitsValue (whole ++ places), places.length)
    else none

/-- The characters of numbers. -/
def isNumberChar (c : Char) : Bool := c.isDigit || c == '.'

/-- Read the runs of number characters and of other characters two by two. -/
def amountsOfRuns? : List (List Char) → Option (List Amount)
  | [] => some []
  | number :: unit :: runs => do
    let (digits, places) ← decimal? number
    let scale ← Scale.ofChars? unit
    let rest ← amountsOfRuns? runs
    return ⟨digits, places, scale⟩ :: rest
  | [_] => none

/-- The maximal runs of characters that are all of numbers or all not. -/
def runs (cs : List Char) : List (List Char) :=
  cs.splitBy fun a b => isNumberChar a == isNumberChar b

/-- The amounts of a text without blanks at its ends; there is at least one. -/
def amounts? (cs : List Char) : Option (List Amount) :=
  match amountsOfRuns? (runs cs) with
  | some [] => none
  | r => r

/-! ## Sums -/

/-- Exact value of an amount in seconds, as a fraction. -/
def Amount.fraction (a : Amount) : Nat × Nat :=
  (a.digits * a.scale.fraction.1, Nat.pow 10 a.places * a.scale.fraction.2)

/-- Seconds of an amount: the rounded product of the rounded number and the rounded unit. -/
def Amount.seconds? (a : Amount) : Option Magnitude := do
  let number ← Magnitude.nearest? a.digits (Nat.pow 10 a.places)
  let unit ← Magnitude.nearest? a.scale.fraction.1 a.scale.fraction.2
  number.mul? unit

/-- Add amounts up from left to right. -/
def sum? : Magnitude → List Amount → Option Magnitude
  | total, [] => some total
  | total, a :: rest => do
    let seconds ← a.seconds?
    let total ← total.add? seconds
    sum? total rest

/-- The nearest nanosecond, for spans of fewer than `2 ^ 64` seconds. -/
def ofSeconds? (x : Magnitude) : Option Duration :=
  let (num, den) := x.fraction
  if num < UInt64.size * den then some ⟨roundQuotient (num * nanosPerSecond) den⟩ else none

/-- Total length of a list of amounts. -/
def total? (as : List Amount) : Option Duration := do
  let seconds ← sum? ⟨0, 0⟩ as
  ofSeconds? seconds

/-- Read a duration; blanks at its ends do not matter. -/
def parse? (s : String) : Option Duration := do
  let as ← amounts? (Text.trimChars s.toList)
  total? as

/-- Whole minutes of a duration text. -/
def minutes? (s : String) : Option Nat :=
  (parse? s).map fun d => d.seconds / 60

end Duration

end PipelineCompiler

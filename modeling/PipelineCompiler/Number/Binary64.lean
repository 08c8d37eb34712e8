/-!
# Binary floating point numbers

Numbers with 53 significant bits, held exactly as a product of an integer and a power of two. Every
operation is the exact one followed by `Magnitude.nearest?`, so that nothing here hangs on a
machine's arithmetic. `Binary64.text` writes the fewest digits that read back as the same number.
-/

namespace PipelineCompiler

/-- Round a quotient to the nearest integer, and a tie to the even one. -/
def roundQuotient (num den : Nat) : Nat :=
  let q := num / den
  let r := num % den
  if 2 * r < den then q
  else if den < 2 * r then q + 1
  else q + q % 2

/-- The number `mant · 2 ^ exp`. -/
structure Magnitude where
  mant : Nat
  exp : Int
deriving DecidableEq, Repr, Inhabited

/-- A signed number, or one of the values that stand for a failed computation. -/
inductive Binary64 where
  | finite (negative : Bool) (magnitude : Magnitude)
  | infinite (negative : Bool)
  | nan
deriving DecidableEq, Repr, Inhabited

namespace Magnitude

/-- Divide `num / den` by `2 ^ e` and keep the result as a fraction. -/
def scaled (num den : Nat) (e : Int) : Nat × Nat :=
  if 0 ≤ e then (num, den * Nat.pow 2 e.toNat) else (num * Nat.pow 2 (-e).toNat, den)

/-- The exponent at which `num / den` has 53 bits before the point, or the least exponent. -/
def unitExponent (num den : Nat) : Int :=
  let e : Int := (num.log2 : Int) - (den.log2 : Int) - 53
  let (n, d) := scaled num den e
  max (if d * Nat.pow 2 53 ≤ n then e + 1 else e) (-1074)

/-- The number of `mant` units of `2 ^ e`. One that takes more than 53 bits is a power of two and is held
at the next exponent. -/
def carried (mant : Nat) (e : Int) : Magnitude :=
  if mant = Nat.pow 2 53 then ⟨Nat.pow 2 52, e + 1⟩ else ⟨mant, e⟩

/-- The fraction `num / den`, rounded to units of `2 ^ e`. -/
def roundedAt (num den : Nat) (e : Int) : Magnitude :=
  let (n, d) := scaled num den e
  carried (roundQuotient n d) e

/-- The nearest number to the fraction `num / den`, unless it lies beyond the largest one. -/
def nearest? (num den : Nat) : Option Magnitude :=
  if num = 0 then some ⟨0, -1074⟩
  else
    let r := roundedAt num den (unitExponent num den)
    if r.exp ≤ 971 then some r else none

/-- Numerator and denominator of the number. -/
def fraction (x : Magnitude) : Nat × Nat :=
  if 0 ≤ x.exp then (x.mant * Nat.pow 2 x.exp.toNat, 1) else (x.mant, Nat.pow 2 (-x.exp).toNat)

/-- The rounded product. -/
def mul? (x y : Magnitude) : Option Magnitude :=
  nearest? (x.fraction.1 * y.fraction.1) (x.fraction.2 * y.fraction.2)

/-- The rounded sum. -/
def add? (x y : Magnitude) : Option Magnitude :=
  nearest? (x.fraction.1 * y.fraction.2 + y.fraction.1 * x.fraction.2)
    (x.fraction.2 * y.fraction.2)

/-! ## Fewest digits -/

/-- The multiple of `10 ^ k` that is nearest to the number among those that round to it. -/
private def onGrid? (x : Magnitude) (k : Int) : Option Nat :=
  -- quarters of a unit in the last place, so that both ends of the interval are integers
  let low := if x.mant = Nat.pow 2 52 ∧ x.exp ≠ -1074 then 4 * x.mant - 1 else 4 * x.mant - 2
  let high := 4 * x.mant + 2
  let (unitNum, unitDen) := (⟨1, x.exp - 2⟩ : Magnitude).fraction
  let (tenNum, tenDen) := if 0 ≤ k then (Nat.pow 10 k.toNat, 1) else (1, Nat.pow 10 (-k).toNat)
  -- the value of `n` quarters in multiples of `10 ^ k` is `n * num / den`
  let num := unitNum * tenDen
  let den := unitDen * tenNum
  let inside (d : Nat) : Bool :=
    if x.mant % 2 = 0 then low * num ≤ d * den && d * den ≤ high * num
    else low * num < d * den && d * den < high * num
  let nearest := roundQuotient (4 * x.mant * num) den
  let below := 4 * x.mant * num / den
  [nearest, below, below + 1].find? fun d => d ≠ 0 && inside d

/-- Digits and decimal exponent of the shortest decimal that reads back as the number. -/
def shortest (x : Magnitude) : Nat × Int :=
  ((List.range 660).findSome? fun (i : Nat) =>
    let k : Int := 320 - (i : Nat)
    (x.onGrid? k).map fun d => (d, k)).getD (0, 0)

end Magnitude

/-- Digits with a point where the exponent allows it, else in scientific form. -/
private def decimalText (digits : String) (k : Int) : String :=
  let length : Int := digits.length
  let point := length + k
  if 0 ≤ k ∧ point ≤ 16 then
    digits ++ String.ofList (List.replicate k.toNat '0') ++ ".0"
  else if 0 < point ∧ point ≤ 16 then
    String.ofList (digits.toList.take point.toNat) ++ "."
      ++ String.ofList (digits.toList.drop point.toNat)
  else if -5 < point ∧ point ≤ 0 then
    "0." ++ String.ofList (List.replicate (-point).toNat '0') ++ digits
  else
    let head := String.ofList (digits.toList.take 1)
    let tail := String.ofList (digits.toList.drop 1)
    (if tail.isEmpty then head else head ++ "." ++ tail) ++ "e" ++ toString (point - 1)

/-- The fewest digits that read back; positional from `1e-5` below `1e16`. -/
def Binary64.text : Binary64 → String
  | .nan => ".nan"
  | .infinite negative => if negative then "-.inf" else ".inf"
  | .finite negative x =>
    let sign := if negative then "-" else ""
    if x.mant = 0 then sign ++ "0.0"
    else
      let (d, k) := x.shortest
      sign ++ decimalText (toString d) k

end PipelineCompiler

import PipelineCompiler.Text.Cut

/-!
# Secret references

A secret is referred to by the name of a map and of a key in it, as in `((map.key))`. A reference is
embedded in a text wherever two opening parentheses are closed again.
-/

namespace PipelineCompiler.Secret

/-- The characters of the names of maps and keys. -/
def isNameChar (c : Char) : Bool := c.isAlphanum || c == '-' || c == '_'

/-- The text between the parentheses of a value that consists of nothing else. -/
def inner? (value : List Char) : Option (List Char) := do
  let rest ← Text.afterStart? ['(', '('] value
  Text.beforeEnd? [')', ')'] rest

/-- The map and the key that a value refers to, if it is exactly one reference. -/
def parts? (value : List Char) : Option (List Char × List Char) := do
  let inner ← inner? value
  let (map, key) ← Text.cutFirst '.' inner
  if map.isEmpty || key.isEmpty || !map.all isNameChar || !key.all isNameChar then none
  return (map, key)

/-- The value is exactly one reference. -/
def isReference (value : String) : Bool := (parts? value.toList).isSome

/-- Read a reference of any form from the start of a text: two opening parentheses, a run of
characters other than a closing one, and two closing parentheses. -/
def embedded? (cs : List Char) : Option (List Char × List Char) := do
  let rest ← Text.afterStart? ['(', '('] cs
  let inner := rest.takeWhile (· ≠ ')')
  let rest ← Text.afterStart? [')', ')'] (rest.drop inner.length)
  return (['(', '('] ++ inner ++ [')', ')'], rest)

/-- The references embedded in a text, from left to right and without overlap. `skip` characters belong
to the reference before. -/
def referencesFrom (skip : Nat) : List Char → List (List Char)
  | [] => []
  | c :: cs =>
    if skip ≠ 0 then referencesFrom (skip - 1) cs
    else
      match embedded? (c :: cs) with
      | some (reference, _) => reference :: referencesFrom (reference.length - 1) cs
      | none => referencesFrom 0 cs

/-- The references embedded in a text. -/
def references (value : String) : List String :=
  (referencesFrom 0 value.toList).map String.ofList

end PipelineCompiler.Secret

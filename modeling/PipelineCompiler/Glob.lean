/-!
# Path patterns

A pattern may hold `*` and `?` inside a path component, `**` as a component of its own, and classes of
characters in brackets.
-/

namespace PipelineCompiler.Glob

/-- Why a pattern is refused. -/
inductive PatternError where
  /-- Three or more stars in a row. -/
  | wildcards
  /-- Two stars that are not a component of their own. -/
  | recursiveWildcards
  /-- A bracket that opens no class. -/
  | invalidRange
deriving DecidableEq, Repr

/-- The words for an error. -/
def PatternError.message : PatternError → String
  | .wildcards => "wildcards are either regular `*` or recursive `**`"
  | .recursiveWildcards => "recursive wildcards must form a single path component"
  | .invalidRange => "invalid range pattern"

/-- Length of the class that a text starts with, brackets included. A class holds at least one
character, and a closing bracket may be the first of them. -/
def classLength? (cs : List Char) : Option Nat :=
  let closing (skipped : Nat) : Option Nat :=
    ((cs.drop skipped).findIdx? (· == ']')).map fun i => skipped + i + 1
  match cs with
  | _ :: '!' :: _ => if 4 ≤ cs.length then closing 3 else none
  | _ :: _ :: _ => if 3 ≤ cs.length then closing 2 else none
  | _ => none

/-- Check a pattern from a place on. `skip` characters belong to what was read before, and `previous`
is the character before the place. -/
def checkFrom (skip : Nat) (previous : Option Char) : List Char → Option PatternError
  | [] => none
  | c :: cs =>
    if skip ≠ 0 then checkFrom (skip - 1) (some c) cs
    else if c = '*' then
      let stars := ((c :: cs).takeWhile (· = '*')).length
      if 2 < stars then some .wildcards
      else if stars = 2 then
        if previous = none ∨ previous = some '/' then
          match cs.drop 1 with
          | [] => none
          | '/' :: _ => checkFrom 2 (some c) cs
          | _ => some .recursiveWildcards
        else some .recursiveWildcards
      else checkFrom 0 (some c) cs
    else if c = '[' then
      match classLength? (c :: cs) with
      | some length => checkFrom (length - 1) (some c) cs
      | none => some .invalidRange
    else checkFrom 0 (some c) cs

/-- Why a pattern is refused, if it is. -/
def error? (pattern : String) : Option PatternError := checkFrom 0 none pattern.toList

/-- The characters that make a path component a pattern. -/
def isMeta (c : Char) : Bool := c == '*' || c == '?' || c == '[' || c == '\x7b'

end PipelineCompiler.Glob

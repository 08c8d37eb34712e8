/-!
# Cutting texts

Cuts at the first or last occurrence of a character, prefixes and suffixes that are taken off once
or as often as they stand there, and replacement of a pattern.
-/

namespace PipelineCompiler.Text

/-! ## Cuts at a character -/

/-- The parts before and after the first `sep`. -/
def cutFirst (sep : Char) : List Char → Option (List Char × List Char)
  | [] => none
  | c :: cs =>
    if c = sep then some ([], cs)
    else (cutFirst sep cs).map fun (before, after) => (c :: before, after)

/-- The parts before and after the last `sep`. -/
def cutLast (sep : Char) (cs : List Char) : Option (List Char × List Char) :=
  (cutFirst sep cs.reverse).map fun (after, before) => (before.reverse, after.reverse)

/-- The parts of a string before and after its first `sep`. -/
def splitFirst? (sep : Char) (s : String) : Option (String × String) :=
  (cutFirst sep s.toList).map fun (a, b) => (String.ofList a, String.ofList b)

/-- The parts of a string before and after its last `sep`. -/
def splitLast? (sep : Char) (s : String) : Option (String × String) :=
  (cutLast sep s.toList).map fun (a, b) => (String.ofList a, String.ofList b)

/-! ## Prefixes and suffixes -/

/-- What follows `start` in a text that begins with it. -/
def afterStart? : (start cs : List Char) → Option (List Char)
  | [], cs => some cs
  | _ :: _, [] => none
  | p :: ps, c :: cs => if p = c then afterStart? ps cs else none

/-- A remainder is no longer than the text it was taken from. -/
theorem afterStart?_length {start cs rest : List Char} (h : afterStart? start cs = some rest) :
    rest.length + start.length = cs.length := by
  induction start generalizing cs with
  | nil => simp_all [afterStart?]
  | cons p ps ih =>
    cases cs with
    | nil => simp [afterStart?] at h
    | cons c cs =>
      by_cases hpc : p = c
      · simp only [afterStart?, hpc, if_true] at h
        have := ih h
        simp only [List.length_cons]
        omega
      · simp [afterStart?, hpc] at h

/-- What precedes `stop` in a text that ends with it. -/
def beforeEnd? (stop cs : List Char) : Option (List Char) :=
  (afterStart? stop.reverse cs.reverse).map List.reverse

/-- The string begins with `start`. -/
def startsWith (s start : String) : Bool :=
  (afterStart? start.toList s.toList).isSome

/-- The string ends with `stop`. -/
def endsWith (s stop : String) : Bool :=
  (beforeEnd? stop.toList s.toList).isSome

/-- What follows `start` in a string that begins with it. -/
def dropStart? (s start : String) : Option String :=
  (afterStart? start.toList s.toList).map String.ofList

/-- Take `start` off as often as the text begins with it; an empty `start` takes nothing. -/
def dropStarts (start cs : List Char) : List Char :=
  if _hs : start = [] then cs
  else
    match _h : afterStart? start cs with
    | none => cs
    | some rest => dropStarts start rest
termination_by cs.length
decreasing_by
  have := afterStart?_length _h
  have : start.length ≠ 0 := fun e => _hs (List.length_eq_zero_iff.1 e)
  omega

/-- Take `stop` off as often as the text ends with it. -/
def dropEnds (stop cs : List Char) : List Char :=
  (dropStarts stop.reverse cs.reverse).reverse

/-- Take `start` off a string as often as it begins with it. -/
def trimStarts (s start : String) : String :=
  String.ofList (dropStarts start.toList s.toList)

/-- Take `stop` off a string as often as it ends with it. -/
def trimEnds (s stop : String) : String :=
  String.ofList (dropEnds stop.toList s.toList)

/-! ## Patterns inside a text -/

/-- The parts before and after the first occurrence of a pattern. -/
def cutAt (pattern : List Char) : List Char → Option (List Char × List Char)
  | [] => (afterStart? pattern []).map fun rest => ([], rest)
  | c :: cs =>
    match afterStart? pattern (c :: cs) with
    | some rest => some ([], rest)
    | none => (cutAt pattern cs).map fun (before, after) => (c :: before, after)

/-- Replace the first occurrence of a pattern. -/
def replaceFirst (pattern replacement s : String) : String :=
  match cutAt pattern.toList s.toList with
  | none => s
  | some (before, after) => String.ofList (before ++ replacement.toList ++ after)

/-- The pattern occurs in the string. -/
def contains (s pattern : String) : Bool :=
  (cutAt pattern.toList s.toList).isSome

/-- Replace every occurrence of a character by a text. -/
def replaceChar (c : Char) (replacement s : String) : String :=
  String.ofList (s.toList.flatMap fun d => if d = c then replacement.toList else [d])

end PipelineCompiler.Text

import PipelineCompiler.Distinct
import PipelineCompiler.Text.Cut
import PipelineCompiler.Text.WordTable
import PipelineCompiler.Vars

/-!
# Templates

A template is a text with placeholders such as `((name))`. It is cut into pieces from left to right, so
that placeholders do not overlap, and filled in one pass: what stands in a value is not looked at
again.
-/

namespace PipelineCompiler.Template

/-- A piece of a template: a character that stays, or a placeholder. -/
inductive Piece where
  | char (c : Char)
  | hole (name : List Char)
deriving DecidableEq, Repr

/-- The characters of the names of placeholders. -/
def isNameChar (c : Char) : Bool := Text.isWordChar c || c == '-' || c == '.' || c == '/'

/-- The name of the placeholder that a text begins with. -/
def hole? (cs : List Char) : Option (List Char) := do
  let rest ← Text.afterStart? ['(', '('] cs
  let name := rest.takeWhile isNameChar
  if name.isEmpty then none
  let _ ← Text.afterStart? [')', ')'] (rest.drop name.length)
  return name

/-- The pieces of a text. `skip` characters belong to the placeholder before. -/
def piecesFrom (skip : Nat) : List Char → List Piece
  | [] => []
  | c :: cs =>
    if skip ≠ 0 then piecesFrom (skip - 1) cs
    else
      match hole? (c :: cs) with
      -- four parentheses stand around the name, and `c` is the first of them
      | some name => .hole name :: piecesFrom (name.length + 3) cs
      | none => .char c :: piecesFrom 0 cs

/-- The pieces of a text. -/
def pieces (source : String) : List Piece := piecesFrom 0 source.toList

/-- The name of a placeholder. -/
def Piece.name? : Piece → Option String
  | .char _ => none
  | .hole name => some (String.ofList name)

/-- The value that takes the place of a piece. A placeholder without a value stays. -/
def Piece.fill (vars : Vars) : Piece → List Char
  | .char c => [c]
  | .hole name =>
    match vars.get? (String.ofList name) with
    | some value => value.toList
    | none => '(' :: '(' :: name ++ [')', ')']

/-- The names that have no value, in the order in which they are met. -/
def missing (vars : Vars) (ps : List Piece) : List String :=
  distinct ((ps.filterMap Piece.name?).filter fun name => (vars.get? name).isNone)

/-- Fill a template. Without a value for every placeholder the names that lack one are answered. -/
def fill (vars : Vars) (source : String) : Except (List String) String :=
  match missing vars (pieces source) with
  | [] => .ok (String.ofList ((pieces source).flatMap (Piece.fill vars)))
  | names => .error names

/-- The words for placeholders without a value. -/
def missingText (names : List String) : String :=
  "Expected to find variables: " ++ ", ".intercalate names

end PipelineCompiler.Template

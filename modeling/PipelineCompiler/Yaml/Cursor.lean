/-!
# Places in a YAML text

A cursor is what is left of a text together with the place it starts at. Columns decide the structure
of a block, and lines and indices decide how far a key may reach.
-/

namespace PipelineCompiler.Yaml

/-- A space or a tab. -/
def isSpace (c : Char) : Bool := c == ' ' || c == '\t'

/-- A line break. -/
def isBreak (c : Char) : Bool :=
  c == '\n' || c == '\r' || c == '\u0085' || c == '\u2028' || c == '\u2029'

/-- The character that a line break counts as. -/
def breakChar (c : Char) : Char := if c == '\u2028' || c == '\u2029' then c else '\n'

/-- The characters of anchors, directives and tag handles. -/
def isNameChar (c : Char) : Bool := c.isAlphanum || c == '_' || c == '-'

/-- A character that a YAML text may hold. -/
def isAllowed (c : Char) : Bool :=
  let n := c.toNat
  n == 0x9 || n == 0xA || n == 0xD || (0x20 ≤ n && n ≤ 0x7E) || n == 0x85
    || (0xA0 ≤ n && n ≤ 0xD7FF) || (0xE000 ≤ n && n ≤ 0xFFFD) || 0x10000 ≤ n

/-- What is left of a text, and where it starts. -/
structure Cursor where
  rest : List Char
  index : Nat := 0
  line : Nat := 0
  column : Nat := 0

namespace Cursor

/-- The character at a distance, unless the text ends before it. -/
def peek (c : Cursor) (distance : Nat := 0) : Option Char := c.rest[distance]?

/-- The character at a distance is the given one. -/
def at? (c : Cursor) (char : Char) (distance : Nat := 0) : Bool := c.peek distance == some char

/-- A space, a tab, a break or the end stands at a distance. -/
def isGapAt (c : Cursor) (distance : Nat := 0) : Bool :=
  match c.peek distance with
  | none => true
  | some char => isSpace char || isBreak char

/-- A break or the end stands here. -/
def isLineEnd (c : Cursor) : Bool :=
  match c.peek with
  | none => true
  | some char => isBreak char

/-- Go past one character of a line. -/
def skip (c : Cursor) : Cursor :=
  match c.rest with
  | [] => c
  | _ :: rest => { rest, index := c.index + 1, line := c.line, column := c.column + 1 }

/-- Go past a number of characters of a line. -/
def skipMany (c : Cursor) (n : Nat) : Cursor :=
  let n := min n c.rest.length
  { rest := c.rest.drop n, index := c.index + n, line := c.line, column := c.column + n }

/-- Go past one line break. -/
def skipBreak (c : Cursor) : Cursor :=
  match c.rest with
  | '\r' :: '\n' :: rest => { rest, index := c.index + 2, line := c.line + 1 }
  | [] => c
  | _ :: rest => { rest, index := c.index + 1, line := c.line + 1 }

/-- Go past the characters of a class. -/
def skipWhile (c : Cursor) (p : Char → Bool) : Cursor :=
  c.skipMany (c.rest.takeWhile p).length

/-- Read the characters of a class. -/
def takeWhile (c : Cursor) (p : Char → Bool) : List Char × Cursor :=
  let taken := c.rest.takeWhile p
  (taken, c.skipMany taken.length)

/-- Go past a comment, if one starts here. -/
def skipComment (c : Cursor) : Cursor :=
  if c.at? '#' then c.skipWhile fun char => !isBreak char else c

/-- A line of three equal characters that marks the border of a document starts here. -/
def isMark (c : Cursor) (char : Char) : Bool :=
  c.column == 0 && c.at? char && c.at? char 1 && c.at? char 2 && c.isGapAt 3

/-- The border of a document starts here. -/
def isDocumentMark (c : Cursor) : Bool := c.isMark '-' || c.isMark '.'

end Cursor

end PipelineCompiler.Yaml

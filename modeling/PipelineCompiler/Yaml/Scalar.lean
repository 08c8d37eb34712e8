import PipelineCompiler.Yaml.Cursor

/-!
# Scalars in a YAML text

The text that a plain, quoted or block scalar stands for. Line breaks between the words of a plain or
quoted scalar are folded: a single one becomes a space, and of several all but the first are kept.
-/

namespace PipelineCompiler.Yaml

/-! ## Gaps between words -/

/-- What stands between two words of a scalar. Lists hold the latest character first. -/
structure Gap where
  /-- A line break stood in the gap. -/
  folded : Bool := false
  spaces : List Char := []
  firstBreak : Option Char := none
  moreBreaks : List Char := []

/-- The text that a gap stands for, latest character first. -/
def Gap.text (g : Gap) : List Char :=
  if !g.folded then g.spaces
  else
    match g.firstBreak with
    | none => g.moreBreaks
    | some '\n' => if g.moreBreaks.isEmpty then [' '] else g.moreBreaks
    | some c => g.moreBreaks ++ [c]

/-- Read a gap. Where a least column is given, no tab may stand before it on a new line. -/
def Gap.read? (least : Option Int) : (fuel : Nat) → Cursor → Gap → Option (Gap × Cursor)
  | 0, c, g => some (g, c)
  | fuel + 1, c, g =>
    match c.peek with
    | none => some (g, c)
    | some char =>
      if isSpace char then
        if g.folded && char == '\t' && least.any fun (column : Int) => (c.column : Int) < column then none
        else Gap.read? least fuel c.skip (if g.folded then g else { g with spaces := char :: g.spaces })
      else if isBreak char then
        Gap.read? least fuel c.skipBreak
          (if g.folded then { g with moreBreaks := breakChar char :: g.moreBreaks }
          else { folded := true, firstBreak := some (breakChar char) })
      else some (g, c)

/-! ## Plain scalars -/

/-- The characters that separate the items of a flow collection. -/
def isFlowIndicator (c : Char) : Bool :=
  c == ',' || c == '[' || c == ']' || c == '{' || c == '}'

/-- Read a word of a plain scalar, latest character first. A colon ends it before a gap; in a flow
collection it must not stand before an indicator. -/
def plainWord? (inFlow : Bool) : (fuel : Nat) → Cursor → List Char → Option (List Char × Cursor)
  | 0, c, word => some (word, c)
  | fuel + 1, c, word =>
    match c.peek with
    | none => some (word, c)
    | some char =>
      if isSpace char || isBreak char then some (word, c)
      else if inFlow && char == ':'
          && (c.peek 1).any fun next => isFlowIndicator next || next == '?' then none
      else if (char == ':' && c.isGapAt 1) || (inFlow && isFlowIndicator char) then some (word, c)
      else plainWord? inFlow fuel c.skip (char :: word)

/-- Read words of a plain scalar whose further lines start at a least column. Gives the text and
whether the scalar ended on a new line. -/
def plainWords? (inFlow : Bool) (least : Int) :
    (fuel : Nat) → Cursor → List Char → Gap → Option (List Char × Bool × Cursor)
  | 0, c, text, g => some (text, g.folded, c)
  | fuel + 1, c, text, g =>
    if c.isDocumentMark || c.at? '#' then some (text, g.folded, c)
    else do
      let (word, c) ← plainWord? inFlow (c.rest.length + 1) c []
      let (text, g) := if word.isEmpty then (text, g) else (word ++ g.text ++ text, {})
      if c.peek.isNone || !c.isGapAt then return (text, g.folded, c)
      let (g, c) ← g.read? (some least) (c.rest.length + 1) c
      if !inFlow && (c.column : Int) < least then return (text, g.folded, c)
      plainWords? inFlow least fuel c text g

/-- Read a plain scalar inside a block of the given indentation. -/
def plainScalar? (inFlow : Bool) (indent : Int) (c : Cursor) : Option (String × Bool × Cursor) := do
  let (text, onNewLine, c) ← plainWords? inFlow (indent + 1) (c.rest.length + 1) c [] {}
  return (String.ofList text.reverse, onNewLine, c)

/-! ## Quoted scalars -/

/-- The value of hexadecimal digits. -/
def hexValue? (digits : List Char) : Option Nat :=
  digits.foldlM (fun n c =>
    let d := c.toNat
    if c.isDigit then some (16 * n + (d - 48))
    else if 97 ≤ d && d ≤ 102 then some (16 * n + (d - 87))
    else if 65 ≤ d && d ≤ 70 then some (16 * n + (d - 55))
    else none) 0

/-- Read the escape after a backslash. -/
def escape? (c : Cursor) : Option (Char × Cursor) :=
  let code (digits : Nat) : Option (Char × Cursor) := do
    let c := c.skip
    if c.rest.length < digits then none
    let n ← hexValue? (c.rest.take digits)
    if n.isValidChar then return (Char.ofNat n, c.skipMany digits) else none
  match c.peek with
  | some '0' => some ('\x00', c.skip)
  | some 'a' => some ('\x07', c.skip)
  | some 'b' => some ('\x08', c.skip)
  | some 't' | some '\t' => some ('\t', c.skip)
  | some 'n' => some ('\n', c.skip)
  | some 'v' => some ('\x0b', c.skip)
  | some 'f' => some ('\x0c', c.skip)
  | some 'r' => some ('\r', c.skip)
  | some 'e' => some ('\x1b', c.skip)
  | some ' ' => some (' ', c.skip)
  | some '"' => some ('"', c.skip)
  | some '/' => some ('/', c.skip)
  | some '\\' => some ('\\', c.skip)
  | some 'N' => some ('\u0085', c.skip)
  | some '_' => some ('\u00a0', c.skip)
  | some 'L' => some ('\u2028', c.skip)
  | some 'P' => some ('\u2029', c.skip)
  | some 'x' => code 2
  | some 'u' => code 4
  | some 'U' => code 8
  | _ => none

/-- Read a word of a quoted scalar, latest character first. The flag tells that it ended with an
escaped line break. -/
def quotedWord? (quote : Char) : (fuel : Nat) → Cursor → List Char → Option (List Char × Bool × Cursor)
  | 0, c, word => some (word, false, c)
  | fuel + 1, c, word =>
    match c.peek with
    | none => some (word, false, c)
    | some char =>
      if isSpace char || isBreak char then some (word, false, c)
      else if quote == '\'' && char == '\'' && c.at? '\'' 1 then
        quotedWord? quote fuel (c.skipMany 2) ('\'' :: word)
      else if char == quote then some (word, false, c)
      else if quote == '"' && char == '\\' then
        if (c.peek 1).any isBreak then some (word, true, c.skip.skipBreak)
        else do
          let (char, c) ← escape? c.skip
          quotedWord? quote fuel c (char :: word)
      else quotedWord? quote fuel c.skip (char :: word)

/-- Read words of a quoted scalar up to its end. -/
def quotedWords? (quote : Char) : (fuel : Nat) → Cursor → List Char → Option (List Char × Cursor)
  | 0, _, _ => none
  | fuel + 1, c, text =>
    if c.isDocumentMark || c.peek.isNone then none
    else do
      let (word, escapedBreak, c) ← quotedWord? quote (c.rest.length + 1) c []
      let text := word ++ text
      if !escapedBreak && c.at? quote then return (text, c.skip)
      let (g, c) ← Gap.read? none (c.rest.length + 1) c { folded := escapedBreak }
      quotedWords? quote fuel c (g.text ++ text)

/-- Read a quoted scalar from its opening quote on. -/
def quotedScalar? (quote : Char) (c : Cursor) : Option (String × Cursor) := do
  let (text, c) ← quotedWords? quote (c.rest.length + 1) c.skip []
  return (String.ofList text.reverse, c)

/-! ## Block scalars -/

/-- What is done with the line breaks at the end of a block scalar. -/
inductive Chomping where
  | clip
  | strip
  | keep
deriving DecidableEq, Repr

/-- Read the indicators after the mark of a block scalar: chomping and indentation in any order. -/
def blockHeader? (c : Cursor) : Option (Chomping × Nat × Cursor) :=
  let chomping (c : Cursor) : Option Chomping :=
    if c.at? '+' then some .keep else if c.at? '-' then some .strip else none
  let digit (c : Cursor) : Option Nat :=
    match c.peek with
    | some d => if d.isDigit then some (d.toNat - 48) else none
    | none => none
  match chomping c, digit c with
  | some ch, _ =>
    match digit c.skip with
    | some 0 => none
    | some d => some (ch, d, c.skip.skip)
    | none => some (ch, 0, c.skip)
  | none, some 0 => none
  | none, some d =>
    match chomping c.skip with
    | some ch => some (ch, d, c.skip.skip)
    | none => some (.clip, d, c.skip)
  | none, none => some (.clip, 0, c)

/-- Read blank lines and the indentation of the next line. An indentation of zero is not known yet.
Gives the breaks, latest first, and the greatest column reached. -/
def blockBreaks? (indent : Nat) :
    (fuel : Nat) → Cursor → List Char → Nat → Option (List Char × Nat × Cursor)
  | 0, c, breaks, widest => some (breaks, widest, c)
  | fuel + 1, c, breaks, widest =>
    let spaces := (c.rest.takeWhile (· == ' ')).length
    let c := c.skipMany (if indent == 0 then spaces else min spaces (indent - c.column))
    let widest := max widest c.column
    if (indent == 0 || c.column < indent) && c.at? '\t' then none
    else
      match c.peek with
      | some char =>
        if isBreak char then blockBreaks? indent fuel c.skipBreak (breakChar char :: breaks) widest
        else some (breaks, widest, c)
      | none => some (breaks, widest, c)

/-- The text of a block scalar as it is read, latest character first. -/
structure BlockText where
  text : List Char := []
  /-- The break that ended the latest line. -/
  lastBreak : List Char := []
  /-- The breaks of the blank lines after it. -/
  blankLines : List Char := []
  /-- The latest line began with a space. -/
  spaced : Bool := false

/-- Read the lines of a block scalar. In the folded style the break between two lines that do not
begin with a space becomes a space. -/
def blockLines? (folded : Bool) (indent : Nat) :
    (fuel : Nat) → Cursor → BlockText → Option (BlockText × Cursor)
  | 0, c, b => some (b, c)
  | fuel + 1, c, b =>
    if c.column != indent || c.peek.isNone then some (b, c)
    else do
      let spaced := c.peek.any isSpace
      let joint :=
        if folded && b.lastBreak == ['\n'] && !b.spaced && !spaced then
          b.blankLines ++ (if b.blankLines.isEmpty then [' '] else [])
        else b.blankLines ++ b.lastBreak
      let (line, c) := c.takeWhile fun char => !isBreak char
      let lastBreak := match c.peek with
        | some char => [breakChar char]
        | none => []
      let (breaks, _, c) ← blockBreaks? indent (c.rest.length + 1) c.skipBreak [] 0
      blockLines? folded indent fuel c
        { text := line.reverse ++ joint ++ b.text, lastBreak, blankLines := breaks, spaced }

/-- Read a block scalar from its mark on, inside a block of the given indentation. -/
def blockScalar? (folded : Bool) (parent : Int) (c : Cursor) : Option (String × Cursor) := do
  let (chomping, increment, c) ← blockHeader? c.skip
  let c := (c.skipWhile isSpace).skipComment
  if !c.isLineEnd then none
  let c := c.skipBreak
  let given : Nat := if increment == 0 then 0 else (max parent 0).toNat + increment
  let (breaks, widest, c) ← blockBreaks? given (c.rest.length + 1) c [] 0
  let indent : Nat := if given == 0 then max widest (max (parent + 1).toNat 1) else given
  let (b, c) ← blockLines? folded indent (c.rest.length + 1) c { blankLines := breaks }
  let text := (if chomping = .strip then [] else b.lastBreak) ++ b.text
  let text := (if chomping = .keep then b.blankLines else []) ++ text
  return (String.ofList text.reverse, c)

end PipelineCompiler.Yaml

import PipelineCompiler.Yaml.Scalar

/-!
# Tokens of a YAML text

A text is cut into tokens from left to right. Indentation opens and closes blocks, which shows as
tokens of its own. Whether a scalar is a key is known only when the colon after it is seen; until then
its place among the tokens is remembered, and the key token is put there afterwards. Such a key ends
on the line it starts on and is at most 1024 characters long.
-/

namespace PipelineCompiler.Yaml

/-- A token. -/
inductive Token where
  | streamEnd
  | versionDirective (major minor : Nat)
  | tagDirective (handle expansion : String)
  | documentStart
  | documentEnd
  | blockSequenceStart
  | blockMappingStart
  | blockEnd
  | flowSequenceStart
  | flowSequenceEnd
  | flowMappingStart
  | flowMappingEnd
  | blockEntry
  | flowEntry
  | key
  | value
  | alias (name : String)
  | anchor (name : String)
  | tag (handle suffix : String)
  | scalar (text : String) (plain : Bool)
deriving DecidableEq, Repr

/-- A place where a key may have started. -/
structure KeyPlace where
  /-- At the indentation of a block mapping nothing but a key can stand. -/
  required : Bool
  /-- Number of tokens ahead of the key. -/
  number : Nat
  index : Nat
  line : Nat
  column : Nat

/-- A scanner in the middle of a text. -/
structure Scanner where
  cursor : Cursor
  tokens : Array Token := #[]
  indent : Int := -1
  /-- Indentations of the enclosing blocks, the innermost first. -/
  outer : List Int := []
  flowLevel : Nat := 0
  keyAllowed : Bool := true
  /-- The possible key at each flow level, the innermost first. -/
  keys : List (Option KeyPlace) := [none]

namespace Scanner

/-- Add a token. -/
def emit (s : Scanner) (t : Token) : Scanner := { s with tokens := s.tokens.push t }

/-- Add a token and go past its characters. -/
def emitSkip (s : Scanner) (t : Token) (n : Nat := 1) : Scanner :=
  { s.emit t with cursor := s.cursor.skipMany n }

/-! ## Indentation -/

/-- Close the blocks that are indented further than a column. -/
def closeBlocks (column : Int) : (fuel : Nat) → Scanner → Scanner
  | 0, s => s
  | fuel + 1, s =>
    if s.flowLevel == 0 && column < s.indent then
      match s.outer with
      | [] => s
      | indent :: outer => closeBlocks column fuel { s.emit .blockEnd with indent, outer }
    else s

/-- Close the blocks that are indented further than a column. -/
def unroll (s : Scanner) (column : Int) : Scanner := closeBlocks column (s.outer.length + 1) s

/-- Open a block at a column that is indented further than the current one. -/
def roll (s : Scanner) (column : Nat) (t : Token) (place : Option Nat := none) : Scanner :=
  if s.flowLevel == 0 && s.indent < column then
    { s with
      indent := column
      outer := s.indent :: s.outer
      tokens := match place with
        | none => s.tokens.push t
        | some n => s.tokens.insertIdxIfInBounds n t }
  else s

/-! ## Possible keys -/

/-- Give up the possible key of the innermost level, which fails if it was required. -/
def dropKey? (s : Scanner) : Option Scanner :=
  match s.keys with
  | some k :: rest => if k.required then none else some { s with keys := none :: rest }
  | _ => some s

/-- Remember that a key may start here. -/
def saveKey? (s : Scanner) : Option Scanner :=
  if s.keyAllowed then do
    let s ← s.dropKey?
    let k : KeyPlace := {
      required := s.flowLevel == 0 && s.indent == s.cursor.column
      number := s.tokens.size
      index := s.cursor.index
      line := s.cursor.line
      column := s.cursor.column }
    return { s with keys := some k :: s.keys.drop 1 }
  else some s

/-- Give up the possible keys that can no longer end in time. -/
def dropStaleKeys? (s : Scanner) : Option Scanner := do
  let keys ← s.keys.mapM fun
    | none => some none
    | some k =>
      if k.line < s.cursor.line || k.index + 1024 < s.cursor.index then
        if k.required then none else some none
      else some (some k)
  return { s with keys }

/-! ## Blanks and comments -/

/-- Go to the next token. In a block a new line may start a key. A byte order mark may start any line. -/
def skipBlanks : (fuel : Nat) → Scanner → Scanner
  | 0, s => s
  | fuel + 1, s =>
    let tabs := s.flowLevel != 0 || !s.keyAllowed
    let c := if s.cursor.column == 0 && s.cursor.at? '\ufeff' then s.cursor.skip else s.cursor
    let c := (c.skipWhile fun char => char == ' ' || (tabs && char == '\t')).skipComment
    match c.peek with
    | some char =>
      if isBreak char then
        skipBlanks fuel { s with cursor := c.skipBreak, keyAllowed := s.keyAllowed || s.flowLevel == 0 }
      else { s with cursor := c }
    | none => { s with cursor := c }

/-! ## Directives, anchors and tags -/

private def number? (c : Cursor) : Option (Nat × Cursor) :=
  let (digits, c) := c.takeWhile Char.isDigit
  if digits.isEmpty || 9 < digits.length then none
  else some (digits.foldl (fun n d => 10 * n + (d.toNat - 48)) 0, c)

/-- Read a tag handle, such as `!` or `!name!`. -/
def tagHandle? (isDirective : Bool) (c : Cursor) : Option (String × Cursor) :=
  if !c.at? '!' then none
  else
    let (name, c) := c.skip.takeWhile isNameChar
    if c.at? '!' then some (String.ofList ('!' :: name ++ ['!']), c.skip)
    else if isDirective && !name.isEmpty then none
    else some (String.ofList ('!' :: name), c)

private def isUriChar (verbatim : Bool) (c : Char) : Bool :=
  isNameChar c || ";/?:@&=+$.!~*'()".toList.contains c || (verbatim && ",[]".toList.contains c)

/-- Read the octets of a run of escapes such as `%C3%A9`. -/
private def octets (fuel : Nat) (c : Cursor) (acc : List UInt8) : Option (List UInt8 × Cursor) :=
  match fuel with
  | 0 => some (acc.reverse, c)
  | fuel + 1 =>
    if c.at? '%' then do
      if c.rest.length < 3 then none
      let n ← hexValue? ((c.rest.drop 1).take 2)
      octets fuel (c.skipMany 3) (n.toUInt8 :: acc)
    else some (acc.reverse, c)

/-- Read the characters of a tag, in which `%` introduces the octets of further characters. -/
def tagUri? (verbatim : Bool) : (fuel : Nat) → Cursor → List Char → Option (List Char × Cursor)
  | 0, c, text => some (text, c)
  | fuel + 1, c, text =>
    match c.peek with
    | none => some (text, c)
    | some char =>
      if char == '%' then do
        let (bytes, c) ← octets (c.rest.length + 1) c []
        let decoded ← String.fromUTF8? ⟨bytes.toArray⟩
        tagUri? verbatim fuel c (text ++ decoded.toList)
      else if isUriChar verbatim char then tagUri? verbatim fuel c.skip (text ++ [char])
      else some (text, c)

private def uri? (verbatim : Bool) (head : List Char) (c : Cursor) : Option (List Char × Cursor) := do
  let (text, c) ← tagUri? verbatim (c.rest.length + 1) c []
  if head.isEmpty && text.isEmpty then none
  return (head.drop 1 ++ text, c)

/-- Read a tag: `<verbatim>`, a handle with a suffix, or a suffix alone. -/
def tag? (c : Cursor) (inFlow : Bool) : Option (Token × Cursor) := do
  let (t, c) ←
    if c.at? '<' 1 then do
      let (suffix, c) ← uri? true [] (c.skipMany 2)
      if !c.at? '>' then none
      pure (Token.tag "" (String.ofList suffix), c.skip)
    else do
      let (handle, c) ← tagHandle? false c
      if 1 < handle.length && handle.toList.getLast? == some '!' then do
        let (suffix, c) ← uri? false [] c
        pure (Token.tag handle (String.ofList suffix), c)
      else do
        let (suffix, c) ← uri? false handle.toList c
        if suffix.isEmpty then pure (Token.tag "" "!", c)
        else pure (Token.tag "!" (String.ofList suffix), c)
  if c.isGapAt || (inFlow && c.at? ',') then return (t, c) else none

/-- Read an anchor or an alias. -/
def name? (c : Cursor) : Option (String × Cursor) :=
  let (name, c) := c.skip.takeWhile isNameChar
  let ends := c.isGapAt || (c.peek.any fun char => "?:,]\x7d%@`".toList.contains char)
  if name.isEmpty || !ends then none else some (String.ofList name, c)

/-- Read a directive from its `%` to the end of its line. -/
def directive? (c : Cursor) : Option (Token × Cursor) := do
  let (name, c) := c.skip.takeWhile isNameChar
  if name.isEmpty || !c.isGapAt then none
  let c := c.skipWhile isSpace
  let (t, c) ←
    if name = "YAML".toList then do
      let (major, c) ← number? c
      if !c.at? '.' then none
      let (minor, c) ← number? c.skip
      pure (Token.versionDirective major minor, c)
    else if name = "TAG".toList then do
      let (handle, c) ← tagHandle? true c
      if !c.peek.any isSpace then none
      let (expansion, c) ← uri? true [] (c.skipWhile isSpace)
      if !c.isGapAt then none
      pure (Token.tagDirective handle (String.ofList expansion), c)
    else none
  let c := (c.skipWhile isSpace).skipComment
  if !c.isLineEnd then none
  return (t, c.skipBreak)

/-! ## Tokens -/

/-- End every block at the border of a document. -/
def leaveDocument? (s : Scanner) : Option Scanner := do
  let s ← (s.unroll (-1)).dropKey?
  return { s with keyAllowed := false }

/-- Open a flow collection. -/
def openFlow? (s : Scanner) (t : Token) : Option Scanner := do
  let s ← s.saveKey?
  let s := s.emitSkip t
  return { s with keys := none :: s.keys, flowLevel := s.flowLevel + 1, keyAllowed := true }

/-- Close a flow collection. -/
def closeFlow? (s : Scanner) (t : Token) : Option Scanner := do
  let s ← s.dropKey?
  let s := if s.flowLevel == 0 then s else { s with flowLevel := s.flowLevel - 1, keys := s.keys.drop 1 }
  return { s.emitSkip t with keyAllowed := false }

/-- Read the dash of an item. -/
def blockDash? (s : Scanner) : Option Scanner := do
  if s.flowLevel == 0 && !s.keyAllowed then none
  let s ← (s.roll s.cursor.column .blockSequenceStart).dropKey?
  return { s.emitSkip .blockEntry with keyAllowed := true }

/-- Read the question mark of a key. -/
def explicitKey? (s : Scanner) : Option Scanner := do
  if s.flowLevel == 0 && !s.keyAllowed then none
  let s ← (s.roll s.cursor.column .blockMappingStart).dropKey?
  return { s.emitSkip .key with keyAllowed := s.flowLevel == 0 }

/-- Read the colon of a value. A possible key before it turns out to be one. -/
def value? (s : Scanner) : Option Scanner :=
  match s.keys with
  | some k :: rest =>
    let s := { s with tokens := s.tokens.insertIdxIfInBounds k.number .key }
    let s := s.roll k.column .blockMappingStart (some k.number)
    some { s.emitSkip .value with keys := none :: rest, keyAllowed := false }
  | _ =>
    if s.flowLevel == 0 && !s.keyAllowed then none
    else
      let s := s.roll s.cursor.column .blockMappingStart
      some { s.emitSkip .value with keyAllowed := s.flowLevel == 0 }

/-- Read a token that a key may consist of. -/
def keyToken? (s : Scanner) (read : Cursor → Option (Token × Cursor)) : Option Scanner := do
  let s ← s.saveKey?
  let (t, cursor) ← read s.cursor
  return { s.emit t with cursor, keyAllowed := false }

/-- Read a plain scalar. One that ended on a new line lets a key start there. -/
def plain? (s : Scanner) : Option Scanner := do
  let s ← s.saveKey?
  let (text, onNewLine, cursor) ← plainScalar? (s.flowLevel != 0) s.indent s.cursor
  return { s.emit (.scalar text true) with cursor, keyAllowed := onNewLine }

/-- Read a block scalar. -/
def block? (s : Scanner) (folded : Bool) : Option Scanner := do
  let s ← s.dropKey?
  let (text, cursor) ← blockScalar? folded s.indent s.cursor
  return { s.emit (.scalar text false) with cursor, keyAllowed := true }

/-- Read the token that starts here. -/
def token? (s : Scanner) (first : Char) : Option Scanner :=
  let c := s.cursor
  let inFlow := s.flowLevel != 0
  let quoted (q : Char) : Option Scanner :=
    s.keyToken? fun c => (quotedScalar? q c).map fun (text, c) => (.scalar text false, c)
  if c.column == 0 && first == '%' then do
    let s ← s.leaveDocument?
    let (t, cursor) ← directive? s.cursor
    return { s.emit t with cursor }
  else if c.isMark '-' then do return (← s.leaveDocument?).emitSkip .documentStart 3
  else if c.isMark '.' then do return (← s.leaveDocument?).emitSkip .documentEnd 3
  else if first == '[' then s.openFlow? .flowSequenceStart
  else if first == '{' then s.openFlow? .flowMappingStart
  else if first == ']' then s.closeFlow? .flowSequenceEnd
  else if first == '}' then s.closeFlow? .flowMappingEnd
  else if first == ',' then do return { (← s.dropKey?).emitSkip .flowEntry with keyAllowed := true }
  else if first == '-' && c.isGapAt 1 then s.blockDash?
  else if first == '?' && (inFlow || c.isGapAt 1) then s.explicitKey?
  else if first == ':' && (inFlow || c.isGapAt 1) then s.value?
  else if first == '*' then s.keyToken? fun c => (name? c).map fun (n, c) => (.alias n, c)
  else if first == '&' then s.keyToken? fun c => (name? c).map fun (n, c) => (.anchor n, c)
  else if first == '!' then s.keyToken? fun c => tag? c inFlow
  else if first == '|' && !inFlow then s.block? false
  else if first == '>' && !inFlow then s.block? true
  else if first == '\'' || first == '"' then quoted first
  else
    let starts := !isSpace first && !("-?:,[]\x7b\x7d#&*!|>'\"%@`".toList.contains first)
    let dash := first == '-' && !(c.peek 1).any isSpace
    let mark := !inFlow && (first == '?' || first == ':') && !c.isGapAt 1
    if starts || dash || mark then s.plain? else none

/-- Read tokens up to the end of the text. -/
def run? : (fuel : Nat) → Scanner → Option (List Token)
  | 0, _ => none
  | fuel + 1, s => do
    let s ← (skipBlanks (s.cursor.rest.length + 1) s).dropStaleKeys?
    let s := s.unroll s.cursor.column
    match s.cursor.peek with
    | none =>
      let s ← s.leaveDocument?
      return s.tokens.toList ++ [.streamEnd]
    | some first => run? fuel (← s.token? first)

end Scanner

/-- Cut a text into tokens. A byte order mark at its start is passed over. -/
def tokens? (text : String) : Option (List Token) :=
  let cs := match text.toList with
    | '\ufeff' :: rest => rest
    | cs => cs
  if cs.all isAllowed then Scanner.run? (cs.length + 2) { cursor := { rest := cs } } else none

end PipelineCompiler.Yaml

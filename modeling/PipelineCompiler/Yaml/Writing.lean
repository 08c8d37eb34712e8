import PipelineCompiler.Yaml.Resolve

/-!
# Writing YAML documents

Values are written in block style, two columns a level, without a limit on the length of lines. A
sequence that is the value of a key stands in the column of the key. Texts are written plain where they
read back as the same text, in a literal block where they have several lines, and in quotes otherwise.
-/

namespace PipelineCompiler.Yaml

/-! ## Characters -/

/-- A character that ends a line. -/
def isLineBreak (c : Char) : Bool :=
  c == '\n' || c == '\r' || c.toNat == 0x85 || c.toNat == 0x2028 || c.toNat == 0x2029

/-- A character that sets words apart, or the missing character at the end of a text. -/
def isGap : Option Char → Bool
  | none => true
  | some c => c == ' ' || c == '\t' || c == '\x00' || isLineBreak c

/-- A character that may stand in a document as it is. -/
def isPrintable (c : Char) : Bool :=
  let n := c.toNat
  n == 0x0A || (0x20 ≤ n && n ≤ 0x7E) || (0xA0 ≤ n && n ≤ 0xD7FF)
    || (0xE000 ≤ n && n ≤ 0xFFFD && n != 0xFEFF) || 0x10000 ≤ n

/-- A space stands next to a line break, after it or before it. -/
def spaceMeetsBreak (after : Bool) : List Char → Bool
  | a :: b :: rest =>
    (if after then isLineBreak a && b == ' ' else a == ' ' && isLineBreak b)
      || spaceMeetsBreak after (b :: rest)
  | _ => false

/-! ## Which style a text is written in -/

/-- How a text is written. -/
inductive Style where
  | plain
  | singleQuoted
  | doubleQuoted
  | literal
deriving DecidableEq, Repr

/-- Characters that no plain text begins with. -/
def leadingMarks : List Char :=
  ['#', ',', '[', ']', '\x7b', '\x7d', '&', '*', '!', '|', '>', '\'', '"', '%', '@', '`']

/-- A text that begins like something else. -/
def hasLeadingMark : List Char → Bool
  | '-' :: '-' :: '-' :: _ => true
  | '.' :: '.' :: '.' :: _ => true
  | c :: rest => leadingMarks.contains c || (['?', ':', '-'].contains c && isGap rest.head?)
  | [] => false

/-- A colon that ends a word, or a number sign that begins one, given what stands before the text. -/
def hasInnerMark (before : Option Char) : List Char → Bool
  | [] => false
  | c :: rest =>
    (c == ':' && isGap rest.head?) || (c == '#' && isGap before) || hasInnerMark (some c) rest

/-- The text can be written without quotes. -/
def isPlainText (cs : List Char) : Bool :=
  cs.all (fun c => isPrintable c && !isLineBreak c) && cs.head? != some ' ' && cs.getLast? != some ' '
    && !hasLeadingMark cs && !hasInnerMark none cs

/-- The text can be written in single quotes. -/
def isSingleQuotable (cs : List Char) : Bool :=
  cs.all isPrintable && !spaceMeetsBreak true cs && !spaceMeetsBreak false cs

/-- The text can be written as a literal block. -/
def isBlockText (cs : List Char) : Bool :=
  cs.all isPrintable && cs.getLast? != some ' ' && !spaceMeetsBreak false cs

/-- A plain text that would be read as something else, or that only just is not. -/
def needsQuotes (s : String) : Bool :=
  isPadded s.toList ||
    match plainValue s with
    | .str _ => false
    | _ => true

/-- The style of a text. -/
def styleOf (s : String) : Style :=
  let cs := s.toList
  if cs.contains '\n' then if isBlockText cs then .literal else .doubleQuoted
  else if !needsQuotes s && isPlainText cs then .plain
  else if isSingleQuotable cs then .singleQuoted
  else .doubleQuoted

/-! ## Texts -/

/-- Blanks up to a column. -/
def spaces (n : Nat) : List Char := List.replicate n ' '

/-- The lines of a text, each but for blank ones behind blanks up to a column. `start` tells that a
line begins. -/
def indented (n : Nat) (start : Bool) : List Char → List Char
  | [] => []
  | c :: rest =>
    if isLineBreak c then c :: indented n true rest
    else (if start then spaces n else []) ++ c :: indented n false rest

/-- What follows the bar of a literal block: the number of columns where the text begins with a blank,
and a sign for the line breaks at its end. -/
def blockHints (cs : List Char) : List Char :=
  let columns := match cs.head? with
    | some c => if c == ' ' || isLineBreak c then ['2'] else []
    | none => []
  let stop := match cs.reverse with
    | last :: rest =>
      if !isLineBreak last then ['-']
      else
        match rest with
        | [] => ['+']
        | c :: _ => if isLineBreak c then ['+'] else []
    | [] => ['-']
  columns ++ stop

/-- A digit of a character code. -/
def hexDigit (n : Nat) : Char := Char.ofNat (if n < 10 then 48 + n else 55 + n)

/-- The last digits of a character code. -/
def hexDigits (n : Nat) : (width : Nat) → List Char
  | 0 => []
  | width + 1 => hexDigits (n / 16) width ++ [hexDigit (n % 16)]

/-- The letter for a character that has one. -/
def escapeLetter? (n : Nat) : Option Char :=
  [(0x00, '0'), (0x07, 'a'), (0x08, 'b'), (0x09, 't'), (0x0A, 'n'), (0x0B, 'v'), (0x0C, 'f'),
    (0x0D, 'r'), (0x1B, 'e'), (0x22, '"'), (0x5C, '\\'), (0x85, 'N'), (0x2028, 'L'),
    (0x2029, 'P')].lookup n

/-- A character in double quotes. -/
def escaped (c : Char) : List Char :=
  let n := c.toNat
  if isPrintable c && !isLineBreak c && c != '"' && c != '\\' then [c]
  else
    '\\' ::
      match escapeLetter? n with
      | some letter => [letter]
      | none =>
        if n ≤ 0xFF then 'x' :: hexDigits n 2
        else if n ≤ 0xFFFF then 'u' :: hexDigits n 4
        else 'U' :: hexDigits n 8

/-- A text in single quotes. Lines after the first stand behind blanks up to a column. -/
def singleQuoted (n : Nat) (cs : List Char) : List Char :=
  let doubled := cs.flatMap fun c => if c = '\'' then ['\'', '\''] else [c]
  '\'' :: indented n false (doubled ++ ['\''])

/-- A text in double quotes. -/
def doubleQuoted (cs : List Char) : List Char := '"' :: cs.flatMap escaped ++ ['"']

/-- A text that begins in the middle of a line. Further lines stand behind blanks up to a column. -/
def textAt (n : Nat) (s : String) : List Char :=
  let cs := s.toList
  match styleOf s with
  | .plain => cs
  | .singleQuoted => singleQuoted n cs
  | .doubleQuoted => doubleQuoted cs
  | .literal => '|' :: blockHints cs ++ '\n' :: indented n true cs

/-- End the line, unless it is ended. -/
def endLine (cs : List Char) : List Char :=
  if cs.getLast?.any isLineBreak then cs else cs ++ ['\n']

/-! ## Values -/

/-- A value that takes no lines of its own. -/
def scalarAt (n : Nat) : Value → List Char
  | .null => "null".toList
  | .bool b => (if b then "true" else "false").toList
  | .int i => (toString i).toList
  | .float x => x.text.toList
  | .str s => textAt n s
  | .seq _ => "[]".toList
  | .map _ => "\x7b\x7d".toList

/-- A key that stands in one line with its value. -/
def isShortKey : Value → Bool
  | .str s => !s.toList.any isLineBreak && s.utf8ByteSize ≤ 128
  | .seq items => items.isEmpty
  | .map entries => entries.isEmpty
  | _ => true

mutual

/-- A value whose first line begins in a column. -/
def valueLines (n : Nat) : Value → List Char
  | .seq (v :: rest) => '-' :: ' ' :: valueLines (n + 2) v ++ itemLines n rest
  | .map (e :: rest) => entryLines n e ++ entriesLines n rest
  | v => endLine (scalarAt n v)

/-- Items of a sequence in a column. -/
def itemLines (n : Nat) : List Value → List Char
  | [] => []
  | v :: rest => spaces n ++ '-' :: ' ' :: valueLines (n + 2) v ++ itemLines n rest

/-- An entry of a mapping, whose first line begins in a column. -/
def entryLines (n : Nat) : Value × Value → List Char
  | (key, v) =>
    if isShortKey key then scalarAt (n + 2) key ++ ':' :: afterColon n v
    else
      '?' :: ' ' :: valueLines (n + 2) key
        ++ spaces n ++ ':' :: ' ' :: valueLines (n + 2) v

/-- The value of a key that stands in a column. -/
def afterColon (n : Nat) : Value → List Char
  | .seq (v :: rest) =>
    '\n' :: spaces n ++ '-' :: ' ' :: valueLines (n + 2) v ++ itemLines n rest
  | .map (e :: rest) => '\n' :: spaces (n + 2) ++ entryLines (n + 2) e ++ entriesLines (n + 2) rest
  | v => endLine (' ' :: scalarAt (n + 2) v)

/-- Entries of a mapping in a column. -/
def entriesLines (n : Nat) : List (Value × Value) → List Char
  | [] => []
  | e :: rest => spaces n ++ entryLines n e ++ entriesLines n rest

end

/-- The text of a document. A text that is the whole document stands behind blanks like any other. -/
def render (v : Value) : String :=
  String.ofList <|
    match v with
    | .str s => endLine (textAt 2 s)
    | v => valueLines 0 v

end PipelineCompiler.Yaml

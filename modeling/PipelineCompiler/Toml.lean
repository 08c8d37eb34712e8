import PipelineCompiler.Text.Cut

/-!
# Settings in TOML

The part of TOML that settings need: one line for each, with a name and a text. Comments, quoted names
and texts of several lines are read; numbers, dates, lists and tables are refused, because no setting
holds one.
-/

namespace PipelineCompiler.Toml

/-! ## Characters -/

/-- A blank inside of a line. -/
def isBlank (c : Char) : Bool := c == ' ' || c == '\t'

/-- A character that may not stand in a text or comment as it is. -/
def isControl (c : Char) : Bool := (c.toNat < 0x20 && c != '\t') || c.toNat == 0x7F

/-- A character of a name without quotes. -/
def isNameChar (c : Char) : Bool := c.isAlphanum || c == '_' || c == '-'

/-- The value of a digit to the base sixteen. -/
def hexValue? (c : Char) : Option Nat :=
  let n := c.toNat
  if 48 ≤ n ∧ n ≤ 57 then some (n - 48)
  else if 97 ≤ n ∧ n ≤ 102 then some (n - 87)
  else if 65 ≤ n ∧ n ≤ 70 then some (n - 55)
  else none

/-- The character with a code of a number of digits. -/
def codeChar? (digits : List Char) (width : Nat) : Option Char := do
  if digits.length ≠ width then none
  let n ← digits.foldlM (fun n c => (hexValue? c).map (16 * n + ·)) 0
  if n.isValidChar then some (Char.ofNat n) else none

/-- What follows a line break. -/
def afterBreak? : List Char → Option (List Char)
  | '\n' :: rest => some rest
  | '\r' :: '\n' :: rest => some rest
  | _ => none

/-- What follows the blanks at the start of a text. -/
def skipBlanks (cs : List Char) : List Char := cs.dropWhile isBlank

/-! ## Texts -/

/-- Number of digits after a letter that introduces a code. -/
def codeWidth? : Char → Option Nat
  | 'x' => some 2
  | 'u' => some 4
  | 'U' => some 8
  | _ => none

/-- The character for a letter after a backslash. -/
def letterChar? : Char → Option Char
  | 'b' => some '\x08'
  | 't' => some '\t'
  | 'n' => some '\n'
  | 'f' => some '\x0c'
  | 'r' => some '\r'
  | 'e' => some '\x1b'
  | '"' => some '"'
  | '\\' => some '\\'
  | _ => none

/-- Read what follows a backslash. -/
def escape? : List Char → Option (Char × List Char)
  | [] => none
  | c :: rest =>
    match codeWidth? c with
    | some width => (codeChar? (rest.take width) width).map fun d => (d, rest.drop width)
    | none => (letterChar? c).map fun d => (d, rest)

/-- Read a text in single quotes that ends in its line. -/
def literal? : List Char → Option (List Char × List Char)
  | [] => none
  | '\'' :: rest => some ([], rest)
  | c :: rest => if isControl c then none else (literal? rest).map fun (cs, r) => (c :: cs, r)

/-- Read a text in double quotes that ends in its line. -/
def basic? (cs : List Char) : (fuel : Nat) → Option (List Char × List Char)
  | 0 => none
  | fuel + 1 =>
    match cs with
    | [] => none
    | '"' :: rest => some ([], rest)
    | '\\' :: rest => do
      let (c, rest) ← escape? rest
      let (cs, r) ← basic? rest fuel
      return (c :: cs, r)
    | c :: rest =>
      if isControl c then none else (basic? rest fuel).map fun (cs, r) => (c :: cs, r)

/-- The end of a text of several lines: three quotes, ahead of which up to two more belong to the
text. -/
def closing? (quote : Char) (cs : List Char) : Option (List Char × List Char) :=
  let run := (cs.take 5).takeWhile (· == quote)
  if 3 ≤ run.length then some (run.drop 3, cs.drop run.length) else none

/-- What follows blanks and line breaks. -/
def skipBlankLines : List Char → List Char
  | '\r' :: '\n' :: rest => skipBlankLines rest
  | c :: rest => if isBlank c || c == '\n' then skipBlankLines rest else c :: rest
  | [] => []

/-- What follows a backslash that ends a line, with the blanks and line breaks after it. -/
def continued? (cs : List Char) : Option (List Char) :=
  (afterBreak? (skipBlanks cs)).map skipBlankLines

/-- Read a text of several lines. `escapes` tells that backslashes have a meaning. -/
def multiline? (quote : Char) (escapes : Bool) (cs : List Char) :
    (fuel : Nat) → Option (List Char × List Char)
  | 0 => none
  | fuel + 1 =>
    match closing? quote cs with
    | some r => some r
    | none =>
      match cs with
      | [] => none
      | '\r' :: '\n' :: rest =>
        (multiline? quote escapes rest fuel).map fun (cs, r) => ('\r' :: '\n' :: cs, r)
      | c :: rest =>
        if escapes && c == '\\' then
          match continued? rest with
          | some rest => multiline? quote escapes rest fuel
          | none => do
            let (d, rest) ← escape? rest
            let (cs, r) ← multiline? quote escapes rest fuel
            return (d :: cs, r)
        else if isControl c && c != '\n' then none
        else (multiline? quote escapes rest fuel).map fun (cs, r) => (c :: cs, r)

/-- The line break right after the opening quotes does not belong to a text of several lines. -/
def skipFirstBreak (cs : List Char) : List Char := (afterBreak? cs).getD cs

/-- Read a text of either kind. -/
def text? (cs : List Char) : Option (List Char × List Char) :=
  match cs with
  | '"' :: '"' :: '"' :: rest => multiline? '"' true (skipFirstBreak rest) (cs.length + 1)
  | '\'' :: '\'' :: '\'' :: rest => multiline? '\'' false (skipFirstBreak rest) (cs.length + 1)
  | '"' :: rest => basic? rest (cs.length + 1)
  | '\'' :: rest => literal? rest
  | _ => none

/-! ## Lines -/

/-- Read a name. -/
def name? (cs : List Char) : Option (List Char × List Char) :=
  match cs with
  | '"' :: rest => basic? rest (cs.length + 1)
  | '\'' :: rest => literal? rest
  | _ =>
    let name := cs.takeWhile isNameChar
    if name.isEmpty then none else some (name, cs.drop name.length)

/-- Read the rest of a line: blanks and a comment. -/
def lineEnd? (cs : List Char) : Option (List Char) :=
  let cs := skipBlanks cs
  let cs :=
    match cs with
    | '#' :: rest => rest.dropWhile fun c => !isControl c
    | _ => cs
  if cs.isEmpty then some [] else afterBreak? cs

/-- Read a setting: a name, an equals sign and a text. -/
def setting? (cs : List Char) : Option ((String × String) × List Char) := do
  let (name, rest) ← name? cs
  match skipBlanks rest with
  | '=' :: rest =>
    let (text, rest) ← text? (skipBlanks rest)
    let rest ← lineEnd? rest
    return ((String.ofList name, String.ofList text), rest)
  | _ => none

/-- Read the lines of a document. -/
def settingsFrom? (cs : List Char) : (fuel : Nat) → Option (List (String × String))
  | 0 => none
  | fuel + 1 =>
    let cs := skipBlanks cs
    if cs.isEmpty then some []
    else
      match lineEnd? cs with
      | some rest => settingsFrom? rest fuel
      | none => do
        let (s, rest) ← setting? cs
        let more ← settingsFrom? rest fuel
        return s :: more

/-- The settings of a document in their order. A mark of the byte order ahead of them is passed
over. -/
def settings? (text : String) : Option (List (String × String)) :=
  let cs :=
    match text.toList with
    | '\uFEFF' :: rest => rest
    | cs => cs
  settingsFrom? cs (cs.length + 1)

end PipelineCompiler.Toml

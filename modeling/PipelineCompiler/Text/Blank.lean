/-!
# Blanks and words

Blank characters are the White_Space characters of Unicode. A text is trimmed of them at its ends,
and its words are the maximal runs of characters that are not blank.
-/

namespace PipelineCompiler.Text

/-- A blank is a White_Space character; the zero width space is none. -/
def isBlank (c : Char) : Bool :=
  let n := c.toNat
  (9 ≤ n && n ≤ 13) || n == 0x20 || n == 0x85 || n == 0xA0 || n == 0x1680
    || (0x2000 ≤ n && n ≤ 0x200A) || n == 0x2028 || n == 0x2029 || n == 0x202F || n == 0x205F
    || n == 0x3000

/-- Drop a run of characters from the end. -/
def dropEndWhile (p : Char → Bool) (cs : List Char) : List Char :=
  (cs.reverse.dropWhile p).reverse

/-- Drop the blanks at both ends. -/
def trimChars (cs : List Char) : List Char :=
  dropEndWhile isBlank (cs.dropWhile isBlank)

/-- Drop the blanks at both ends of a string. -/
def trim (s : String) : String :=
  String.ofList (trimChars s.toList)

/-- Drop the blanks at the end of a string. -/
def trimEnd (s : String) : String :=
  String.ofList (dropEndWhile isBlank s.toList)

/-- Cut a text at every character of a class. There is one part more than there are cuts. -/
def splitWhen (p : Char → Bool) : List Char → List (List Char)
  | [] => [[]]
  | c :: cs =>
    if p c then [] :: splitWhen p cs
    else
      match splitWhen p cs with
      | [] => [[c]]
      | w :: ws => (c :: w) :: ws

/-- The maximal runs of characters that are not blank, in order. -/
def wordsOf (cs : List Char) : List (List Char) :=
  (splitWhen isBlank cs).filter fun w => !w.isEmpty

/-- The words of a string, in order. -/
def words (s : String) : List String :=
  (wordsOf s.toList).map String.ofList

/-- A string without any word. -/
def isBlankText (s : String) : Bool :=
  s.toList.all isBlank

end PipelineCompiler.Text

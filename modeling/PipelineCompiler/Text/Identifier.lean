import PipelineCompiler.Text.Blank
import PipelineCompiler.Text.LowerCase

/-!
# Identifiers

Names that a build server accepts, made from free text. Both forms are lower case.
-/

namespace PipelineCompiler.Text

/-- A lower-case ASCII letter or a digit. -/
def isLowerAlnum (c : Char) : Bool := c.isLower || c.isDigit

/-- The characters of an identifier. -/
def isIdentifierChar (c : Char) : Bool := isLowerAlnum c || c == '-' || c == '.'

/-- Lower-case a text, blank out what no identifier holds, and join the words left with dashes. -/
def identifier (s : String) : String :=
  let blanked := (lowerChars s.toList).map fun c => if isIdentifierChar c then c else ' '
  String.ofList (['-'].intercalate (wordsOf blanked))

/-- Lower-case a text and drop what is no letter, digit or dash. -/
def folderName (s : String) : String :=
  String.ofList ((lowerChars s.toList).filter fun c => isLowerAlnum c || c == '-')

end PipelineCompiler.Text

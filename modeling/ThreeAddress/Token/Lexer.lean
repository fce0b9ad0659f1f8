import ThreeAddress.Text.Lines
import ThreeAddress.Token

/-!
# From text to tokens

Words are the longest runs of characters that are neither blank nor symbols; each symbol character
is a token of its own. There are no operators of several characters and no comments.

The text is folded from its end: at each place the fold holds the word that starts there and the
tokens that follow that word.
-/

namespace ThreeAddress.Token

/-- A word, unless it is empty, and the tokens after it. -/
def consWord (word : List Char) (later : List Token) : List Token :=
  if word.isEmpty then later else ofWord (String.ofList word) :: later

/-- One more character in front: it lengthens the word that starts after it, or ends it. -/
def scanChar (c : Char) (found : List Char × List Token) : List Char × List Token :=
  if Text.isBlank c then ([], consWord found.1 found.2)
  else if isSymbolChar c then ([], ofSymbol c :: consWord found.1 found.2)
  else (c :: found.1, found.2)

/-- The word at the start of the text and the tokens after it. -/
def scan (text : List Char) : List Char × List Token :=
  text.foldr scanChar ([], [])

/-- The tokens of a text. -/
def tokenizeChars (text : List Char) : List Token :=
  consWord (scan text).1 (scan text).2

/-- The tokens of a text. -/
def tokenize (text : String) : List Token :=
  tokenizeChars text.toList

/-- The tokens of several lines, one line after the other. -/
def tokenizeLines (lines : List String) : List Token :=
  lines.flatMap tokenize

/-- The tokens of a source text, taken line by line. -/
def tokenizeSource (source : String) : List Token :=
  (Text.lines source.toList).flatMap tokenizeChars

end ThreeAddress.Token

import ThreeAddress.Inspector.Pane
import ThreeAddress.Text.Column
import ThreeAddress.Token

/-!
# The source pane

The source text with line numbers. Words are coloured by their kind, types and string literals on
their own; brackets are coloured too.
-/

namespace ThreeAddress.Inspector

/-- The number in front of a row. -/
def rowNumber (n : Nat) : Span :=
  ⟨Text.alignRight 4 (toString n) ++ " ", .fg Theme.comment⟩

/-- The style of a word. -/
def wordStyle (word : String) : Style :=
  if word = "int" || word = "string" || word = "void" then .fg Theme.typeName
  else match Token.kindOf word with
    | .keyword => (Style.fg Theme.keyword).emphasized
    | .number => .fg Theme.number
    | .identifier =>
      if word.toList.head? = some '"' then .fg Theme.string else .fg Theme.text
    | .symbol | .unknown => .fg Theme.text

/-- The style of a character that belongs to no word. -/
def separatorStyle (c : Char) : Style :=
  if c = '\x7b' || c = '\x7d' || c = '(' || c = ')' then .fg Theme.primary else .fg Theme.text

/-- The span of a word, unless it is empty. -/
def wordSpan (word : List Char) : Line :=
  if word.isEmpty then [] else [⟨String.ofList word, wordStyle (String.ofList word)⟩]

/-- The spans of the rest of a line after the beginning of a word, whose characters are given last
one first. -/
def highlightFrom (word : List Char) : List Char → Line
  | [] => wordSpan word.reverse
  | c :: rest =>
    if Text.isBlank c || Token.isSymbolChar c then
      wordSpan word.reverse ++ ⟨String.singleton c, separatorStyle c⟩ :: highlightFrom [] rest
    else highlightFrom (c :: word) rest

/-- A line of source text as spans: words, and single characters between them. -/
def highlight (line : List Char) : Line :=
  highlightFrom [] line

/-- The lines of a source text with their numbers. -/
def sourceLines (source : String) : List (Nat × List Char) :=
  (Text.lines source.toList).mapIdx fun i line => (i + 1, line)

/-- The rows of the source pane, which always shows a list. -/
def sourceRowCount (source : String) : Option Nat :=
  some (Text.lines source.toList).length

/-- The source pane at a scroll offset. -/
def drawSource (size : Size) (focused : Bool) (offset : Nat) (source : String) : Picture :=
  let rows := visiblePart size.visibleRows offset (sourceLines source)
  drawPane size " Source Code " focused
    (.lines {} (rows.map fun r => rowNumber r.1 :: highlight r.2))

end ThreeAddress.Inspector

import ThreeAddress.Text.Blank

/-!
# Lines of a text

A line ends at a line feed, and one carriage return right before that line feed belongs to the
line's end. Text after the last line feed is a line too unless it is empty; it keeps a carriage
return at its end, as any other carriage return that no line feed follows is kept.
-/

namespace ThreeAddress.Text

/-- The pieces between the line feeds: one more than there are line feeds. -/
def pieces (text : List Char) : List (List Char) :=
  text.foldr
    (fun c later =>
      if c = '\n' then [] :: later
      else match later with
        | [] => [[c]]
        | piece :: rest => (c :: piece) :: rest)
    [[]]

/-- A line without the carriage return that belongs to its end. -/
def dropReturn (line : List Char) : List Char :=
  if line.getLast? = some '\r' then line.dropLast else line

/-- The lines of a text, without their ends. -/
def lines (text : List Char) : List (List Char) :=
  go (pieces text)
where
  /-- Every piece but the last was ended by a line feed. -/
  go : List (List Char) → List (List Char)
    | [] => []
    | [last] => if last = [] then [] else [last]
    | piece :: next :: rest => dropReturn piece :: go (next :: rest)

end ThreeAddress.Text

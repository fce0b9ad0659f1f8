import ThreeAddress.Inspector.Style

/-!
# Rows of cells

A row of the screen is a list of cells, each with a text of its own and a style. A line comes into a
row in one of two ways.

* As running text (`Row.overlay`), glyph after glyph; a glyph without width is left out.
* As an entry of a list (`Row.putEntry`), span after span over the style of the entry. A glyph
  without width shares the cell of the glyph before it. A span begins where the one before it ends,
  and the width of a span may be less than that of its glyphs.

A wide glyph stands in its first cell.
-/

namespace ThreeAddress.Inspector

/-- One place of the screen. -/
structure Cell where
  glyph : String := " "
  style : Style := {}
  deriving DecidableEq, Repr

abbrev Row := List Cell

namespace Row

def text (r : Row) : String :=
  String.join (r.map Cell.glyph)

def blank (width : Nat) (style : Style) : Row :=
  List.replicate width ⟨" ", style⟩

/-! ## Running text -/

/-- Glyphs up to the first that does not fit into `room` cells. -/
def fitting (room : Nat) : List (Text.Glyph × Style) → List (Text.Glyph × Style)
  | [] => []
  | g :: rest => if g.1.width ≤ room then g :: fitting (room - g.1.width) rest else []

/-- The glyphs of a line that is cut to a width. A glyph wider than that is left out. -/
def cut (width : Nat) (line : Line) : List (Text.Glyph × Style) :=
  fitting width (line.glyphs.filter (·.1.width ≤ width))

/-- Lays glyphs over the cells of a row, one after the other, as far as the row goes. A glyph
changes the cell that it begins in; the other cells that it covers stay as they are. -/
def overlay : List (Text.Glyph × Style) → Row → Row
  | [], row => row
  | _, [] => []
  | g :: rest, c :: row =>
    if g.1.width = 0 then overlay rest (c :: row)
    else
      ⟨String.ofList g.1.chars, c.style.under g.2⟩ ::
        (row.take (g.1.width - 1) ++ overlay rest (row.drop (g.1.width - 1)))

/-- Lays glyphs over a row from a column on. -/
def overlayFrom (column : Nat) (glyphs : List (Text.Glyph × Style)) (row : Row) : Row :=
  row.take column ++ overlay glyphs (row.drop column)

/-- A line at the left of a row. -/
def ofLine (width : Nat) (base : Style) (line : Line) : Row :=
  overlay (cut width line) (blank width base)

/-- A line at the right of a row; one that is too long starts at the left. -/
def ofLineRight (width : Nat) (base : Style) (line : Line) : Row :=
  let glyphs := cut width line
  overlayFrom (width - Text.totalWidth (glyphs.map Prod.fst)) glyphs (blank width base)

/-! ## Entries of a list -/

/-- Lays a style over the cell at a column and changes its text. -/
def paint (row : Row) (column : Nat) (style : Style) (change : String → String) : Row :=
  row.modify column fun c => ⟨change c.glyph, c.style.under style⟩

/-- Empties the cells from one column up to another, their style as well. -/
def clear (row : Row) (start stop : Nat) : Row :=
  row.mapIdx fun i c => if start ≤ i && i < stop then {} else c

/-- Writes the first glyph of a span at its column. -/
def putFirst (row : Row) (column : Nat) (style : Style) (g : Text.Glyph) : Row :=
  (row.paint column style fun _ => String.ofList g.chars).clear (column + 1) (column + g.width)

/-- Writes a later glyph of the span that starts at column `start`. As long as the span has taken no
cell its glyphs share the first one. -/
def putNext (row : Row) (start column : Nat) (style : Style) (g : Text.Glyph) : Row :=
  let text := String.ofList g.chars
  let written :=
    if column = start then row.paint column style (· ++ text)
    else if g.width = 0 then row.paint (column - 1) style (· ++ text)
    else row.paint column style fun _ => text
  written.clear (column + 1) (column + g.width)

/-- Writes the later glyphs of a span, up to the first that does not fit. -/
def putRest (style : Style) (start : Nat) : Nat → List Text.Glyph → Row → Row
  | _, [], row => row
  | column, g :: rest, row =>
    if row.length < column + g.width then row
    else putRest style start (column + g.width) rest (row.putNext start column style g)

/-- Writes a span from a column on. -/
def putSpan (row : Row) (column : Nat) (s : Span) : Row :=
  match Text.glyphs s.text.toList with
  | [] => row
  | g :: rest =>
    if row.length < column + g.width then row
    else putRest s.style column (column + g.width) rest (row.putFirst column s.style g)

/-- Writes the spans of a line from a column on. A span without width is left out. -/
def putLine : Nat → Line → Row → Row
  | _, [], row => row
  | column, s :: rest, row =>
    if row.length ≤ column then row
    else
      let width := Text.width s.text.toList
      putLine (column + width) rest (if width = 0 then row else row.putSpan column s)

/-- Writes an entry of a list over `width` cells of a row from a column on. -/
def putEntry (column width : Nat) (style : Style) (line : Line) (row : Row) : Row :=
  let cells := ((row.drop column).take width).map fun c => { c with style := c.style.under style }
  row.take column ++ (putLine 0 line cells ++ row.drop (column + width))

end Row

/-- Rows from top to bottom. -/
abbrev Picture := List Row

/-- Two pictures of one height side by side. -/
def Picture.beside (left right : Picture) : Picture :=
  List.zipWith (· ++ ·) left right

end ThreeAddress.Inspector

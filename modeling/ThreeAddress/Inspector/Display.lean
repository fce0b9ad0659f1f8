import ThreeAddress.Inspector.Pane

/-!
# The display

A display shows the pictures that are drawn on it one after the other. A cell is sent to it only if
it has changed since the picture before, or if a wide glyph of either picture has disturbed it. The
cell after the beginning of a wide glyph is never sent, since the glyph covers it; what the display
held there before stays.
-/

namespace ThreeAddress.Inspector

def Cell.width (c : Cell) : Nat :=
  Text.width c.glyph.toList

/-- What the cells so far mean for the next one. -/
structure Wake where
  /-- Is the next cell covered by a glyph? -/
  covered : Bool := false
  /-- The number of next cells that a wide glyph may have disturbed. -/
  disturbed : Nat := 0
  deriving DecidableEq, Repr

namespace Wake

/-- Is a cell sent? -/
def sends (w : Wake) (before now : Cell) : Bool :=
  !w.covered && (now ≠ before || 0 < w.disturbed)

/-- The wake of one more cell. -/
def next (w : Wake) (before now : Cell) : Wake :=
  { covered := 1 < now.width
    disturbed := max (max before.width now.width) w.disturbed - 1 }

end Wake

structure Display where
  /-- The last picture drawn. -/
  drawn : Picture
  /-- What is seen of it. -/
  shown : Picture
  deriving DecidableEq, Repr

namespace Display

/-- An empty display. -/
def blank (size : Size) : Display :=
  let empty := List.replicate size.height (Row.blank size.width {})
  ⟨empty, empty⟩

/-- Sends a row, given the row drawn before and what is shown of it. -/
def sendRow (w : Wake) : (now before shown : Row) → Row × Wake
  | c :: now, b :: before, s :: shown =>
    let rest := sendRow (w.next b c) now before shown
    ((if w.sends b c then c else s) :: rest.1, rest.2)
  | _, _, shown => (shown, w)

/-- Sends all rows from a row on. The wake of a row reaches into the next one. -/
def sendRows (w : Wake) : (now before shown : Picture) → Picture
  | r :: now, b :: before, s :: shown =>
    let sent := sendRow w r b s
    sent.1 :: sendRows sent.2 now before shown
  | _, _, shown => shown

/-- Draws a picture. -/
def draw (d : Display) (now : Picture) : Display :=
  { drawn := now, shown := sendRows {} now d.drawn d.shown }

end Display

/-- A picture as it is seen on a display that was empty before. -/
def Picture.seen (p : Picture) (size : Size) : Picture :=
  ((Display.blank size).draw p).shown

end ThreeAddress.Inspector

import ThreeAddress.Inspector.Row
import ThreeAddress.Inspector.Theme
import ThreeAddress.Text.Lines
import ThreeAddress.Text.Wrap

/-!
# Panes

A pane is a bordered area with a title in its top border. What it shows is cut to the space inside
the border; longer contents are scrolled.
-/

namespace ThreeAddress.Inspector

/-- A width and a height in cells. -/
structure Size where
  width : Nat
  height : Nat
  deriving DecidableEq, Repr

/-! ## Scrolling -/

/-- How many rows a pane shows at once; at least one. -/
def Size.visibleRows (s : Size) : Nat :=
  max (s.height - 2) 1

/-- A scroll offset, lowered so that the last page is full. -/
def clampScroll (total visible offset : Nat) : Nat :=
  if visible < total then min offset (total - visible) else 0

/-- The offset that a pane is drawn at: clamped where it shows a list of `rows` rows, and left alone
where it shows a notice. -/
def settledOffset (size : Size) (rows : Option Nat) (offset : Nat) : Nat :=
  match rows with
  | some n => clampScroll n size.visibleRows offset
  | none => offset

/-- The part of a list that is visible at an offset. -/
def visiblePart {α : Type} (visible offset : Nat) (rows : List α) : List α :=
  (rows.drop offset).take visible

/-! ## Contents -/

/-- What stands inside a border. -/
inductive Content where
  /-- Lines of text, each cut at the border. -/
  | lines (base : Style) (ls : List Line)
  /-- A message in as many rows as it needs. -/
  | message (base : Style) (text : String)
  /-- The entries of a list in sight, each in a style of its own and one cell off the border. -/
  | entries (es : List (Style × Line))

namespace Content

/-- A notice instead of a list. -/
def notice (color : Color) (text : String) : Content :=
  .lines (.fg color) [[⟨text, {}⟩]]

/-- The style of the whole pane. -/
def base : Content → Style
  | lines base _ | message base _ => base
  | entries _ => {}

/-- Draws items on rows, one on each, until items or rows end. -/
def drawEach {α : Type} (draw : α → Row → Row) : List α → List Row → List Row
  | a :: items, r :: rows => draw a r :: drawEach draw items rows
  | _, rows => rows

/-- The parts of a message, wrapped to a width. -/
def messageParts (width : Nat) (text : String) : List (List Text.Glyph) :=
  (Text.lines text.toList).flatMap fun l => Text.wrap width (Text.glyphs l)

/-- Draws the contents on the rows between the upper and the lower border, with `width` cells inside
their border cells. A part of a message that is too long goes on over the right border cell. -/
def drawOn (c : Content) (width : Nat) (rows : List Row) : List Row :=
  match c with
  | lines _ ls => drawEach (fun l => Row.overlayFrom 1 (Row.cut width l)) ls rows
  | message _ text =>
    drawEach (fun part => Row.overlayFrom 1 (part.map fun g => (g, {}))) (messageParts width text)
      rows
  | entries es => drawEach (fun e => Row.putEntry 2 (width - 1) e.1 e.2) es rows

end Content

/-- An entry without a style of its own. -/
def plainEntry (line : Line) : Style × Line := ({}, line)

/-! ## Borders -/

/-- A row between two border cells; in a narrow pane the left one stays. -/
def edged (width : Nat) (left right : Cell) (middle : Row) : Row :=
  ((left :: middle.take (width - 2)) ++ [right]).take width

def borderStyle (focused : Bool) : Style :=
  if focused then (Style.fg Theme.borderFocused).emphasized else .fg Theme.borderNormal

/-- A pane with its border. A pane of one row is its top border. -/
def drawPane (size : Size) (title : String) (focused : Bool) (content : Content) : Picture :=
  let style := content.base.under (borderStyle focused)
  let cell (glyph : String) : Cell := ⟨glyph, style⟩
  let inner : Size := ⟨size.width - 2, size.height - 2⟩
  let line := List.replicate inner.width (cell "─")
  let top := Row.overlayFrom 1 (Row.cut inner.width [⟨title, {}⟩])
    (edged size.width (cell "┌") (cell "┐") line)
  let bottom := edged size.width (cell "└") (cell "┘") line
  let side := edged size.width (cell "│") (cell "│") (Row.blank inner.width content.base)
  ((top :: content.drawOn inner.width (List.replicate inner.height side)) ++ [bottom]).take
    size.height

end ThreeAddress.Inspector

import ThreeAddress.Text.Glyph

/-!
# Styled text

A style sets colours and adds emphasis; what it leaves open shows through from below. A line is made
of spans, and drawn as glyphs.
-/

namespace ThreeAddress.Inspector

inductive Color where
  | black
  | rgb (red green blue : Nat)
  deriving DecidableEq, Repr

structure Style where
  foreground : Option Color := none
  background : Option Color := none
  bold : Bool := false
  italic : Bool := false
  deriving DecidableEq, Repr, Inhabited

namespace Style

/-- This style with another one laid over it. -/
def under (base top : Style) : Style :=
  { foreground := top.foreground <|> base.foreground
    background := top.background <|> base.background
    bold := base.bold || top.bold
    italic := base.italic || top.italic }

def fg (c : Color) : Style := { foreground := some c }

def on (s : Style) (c : Color) : Style := { s with background := some c }

def emphasized (s : Style) : Style := { s with bold := true }

def slanted (s : Style) : Style := { s with italic := true }

end Style

/-- Text in one style. -/
structure Span where
  text : String
  style : Style := {}
  deriving DecidableEq, Repr

abbrev Line := List Span

/-- The glyphs of a line, each with the style of its span. -/
def Line.glyphs (line : Line) : List (Text.Glyph × Style) :=
  line.flatMap fun s => (Text.glyphs s.text.toList).map fun g => (g, s.style)

end ThreeAddress.Inspector

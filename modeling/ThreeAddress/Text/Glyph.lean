import ThreeAddress.Text.Cluster
import ThreeAddress.Text.Width

/-!
# Glyphs

A glyph is a cluster with the number of cells that it takes. Text is drawn glyph by glyph.
-/

namespace ThreeAddress.Text

structure Glyph where
  chars : List Char
  width : Nat
  deriving DecidableEq, Repr

/-- The glyphs of a text. A line feed is not drawn. -/
def glyphs (text : List Char) : List Glyph :=
  ((clusters text).filter (· ≠ ['\n'])).map fun cs => ⟨cs, width cs⟩

/-- The cells that glyphs side by side take. -/
def totalWidth (gs : List Glyph) : Nat :=
  gs.foldr (fun g total => g.width + total) 0

end ThreeAddress.Text

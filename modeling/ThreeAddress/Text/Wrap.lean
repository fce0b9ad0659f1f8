import ThreeAddress.Text.Blank
import ThreeAddress.Text.Glyph

/-!
# Wrapping a line

A long line is broken between words so that each part fits a width. A part takes as many words as
fit; the blanks at a break are dropped, and so are those in front of the first word. A word that is
too long by itself is cut. A part may still be too long: a word is cut only after the glyph that
reaches the end of its part, and that glyph may be a wide one.

The line is read one glyph at a time. What has been read since the last break stands in three
pieces: the words placed on the current part, the blanks after them, and the word that is not
finished.
-/

namespace ThreeAddress.Text

/-- May a line be broken here? A no-break space is blank but holds words together. -/
def Glyph.isBreakable (g : Glyph) : Bool :=
  g.chars = ['\u200B'] || (g.chars.all isBlank && g.chars ≠ ['\u00A0'])

structure Wrapping where
  /-- The finished parts. -/
  done : List (List Glyph) := []
  placed : List Glyph := []
  blanks : List Glyph := []
  word : List Glyph := []
  /-- Was the last glyph read part of a word? -/
  inWord : Bool := false

namespace Wrapping

/-- The unfinished word with the blanks before it, unless the part is still empty: then the blanks
are dropped. -/
def placeWord (s : Wrapping) : Wrapping :=
  { s with
    placed := (if s.placed.isEmpty then [] else s.placed ++ s.blanks) ++ s.word
    blanks := []
    word := [] }

/-- The blanks without those that fit into `room` cells. -/
def dropFitting (room : Nat) : List Glyph → List Glyph
  | [] => []
  | g :: gs => if g.width ≤ room then dropFitting (room - g.width) gs else g :: gs

/-- Finishes the current part; blanks up to its end are dropped. -/
def breakLine (limit : Nat) (s : Wrapping) : Wrapping :=
  { s with
    done := s.done ++ [s.placed]
    placed := []
    blanks := dropFitting (limit - totalWidth s.placed) s.blanks }

/-- Appends a glyph to the word or the blanks. -/
def push (s : Wrapping) (g : Glyph) : Wrapping :=
  if g.isBreakable then { s with blanks := s.blanks ++ [g], inWord := false }
  else { s with word := s.word ++ [g], inWord := true }

/-- Does this glyph show that the word is finished, or must word or blanks be cut? -/
def endsWord (limit : Nat) (s : Wrapping) (g : Glyph) : Bool :=
  (s.inWord && g.isBreakable) ||
    (s.placed.isEmpty &&
      (limit < totalWidth s.word + g.width || limit < totalWidth s.blanks + g.width))

/-- Is there no room for one more glyph? -/
def isFull (limit : Nat) (s : Wrapping) (g : Glyph) : Bool :=
  limit ≤ totalWidth s.placed ||
    (0 < g.width && limit ≤ totalWidth s.placed + totalWidth s.blanks + totalWidth s.word)

/-- Reads a glyph. One that is wider than a whole part is left out. -/
def step (limit : Nat) (s : Wrapping) (g : Glyph) : Wrapping :=
  if limit < g.width then s
  else
    let s := if s.endsWord limit g then s.placeWord else s
    if s.isFull limit g then
      let s := s.breakLine limit
      if g.isBreakable && s.blanks.isEmpty then s else s.push g
    else s.push g

/-- All parts, once the line has been read. -/
def finish (s : Wrapping) : List (List Glyph) :=
  let bare :=
    if s.placed.isEmpty && s.word.isEmpty && !s.blanks.isEmpty then s.done ++ [[]] else s.done
  let last := s.placeWord.placed
  let parts := if last.isEmpty then bare else bare ++ [last]
  if parts.isEmpty then [[]] else parts

end Wrapping

/-- The parts of a line, broken to a width of `limit` cells. -/
def wrap (limit : Nat) (line : List Glyph) : List (List Glyph) :=
  (line.foldl (Wrapping.step limit) {}).finish

end ThreeAddress.Text

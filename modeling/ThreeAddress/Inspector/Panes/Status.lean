import ThreeAddress.Inspector.Pane

/-!
# The status bar

On the left the state of the compilation and the last message, on the right the keys and the mode of
the code. Both halves have text on their first row only.
-/

namespace ThreeAddress.Inspector

def barStyle : Style := { background := some Theme.barBackground }

/-- A label of inverted colours. -/
def badge (text : String) (background : Color) : Span :=
  ⟨text, ((Style.fg .black).on background).emphasized⟩

/-- Text on the bar. -/
def onBar (text : String) (foreground : Color) : Span :=
  ⟨text, (Style.fg foreground).on Theme.barBackground⟩

/-- The left half. After a syntax error there is no number of instructions. -/
def stateLine (message : String) (instructions : Option Nat) : Line :=
  let separator := onBar " | " Theme.comment
  match instructions with
  | some n =>
    [badge (" " ++ toString n ++ " instr ") Theme.primary, separator,
      onBar (" " ++ message ++ " ") Theme.text]
  | none =>
    [badge " SYNTAX ERROR " Theme.error, separator, onBar (" " ++ message ++ " ") Theme.error]

/-- A key and what it does. -/
def keyHint (key description : String) : Line :=
  [⟨key, (Style.fg .black).on Theme.comment⟩, onBar description Theme.text,
    onBar "│" Theme.comment]

/-- The right half. -/
def keyLine (compatible : Bool) : Line :=
  let gap := onBar " " Theme.text
  keyHint " ⇥ " " focus " ++ gap :: keyHint " ↑/↓ " " scroll " ++
    gap :: keyHint " c " " compat " ++ gap :: keyHint "q" " quit " ++
    [if compatible then badge " COMPAT " Theme.secondary else badge " STANDARD " Theme.success]

/-- Half of a length, a half cell rounded up. -/
def halfUp (n : Nat) : Nat := (n + 1) / 2

/-- A half of the bar: its first row, and empty rows below. -/
def barRows (height width : Nat) (first : Row) : Picture :=
  (first :: List.replicate (height - 1) (Row.blank width barStyle)).take height

/-- The status bar. -/
def drawStatus (size : Size) (message : String) (instructions : Option Nat) (compatible : Bool) :
    Picture :=
  let left := halfUp size.width
  let right := size.width - left
  Picture.beside
    (barRows size.height left (Row.ofLine left barStyle (stateLine message instructions)))
    (barRows size.height right (Row.ofLineRight right barStyle (keyLine compatible)))

end ThreeAddress.Inspector

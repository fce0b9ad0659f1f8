import ThreeAddress.Inspector.Panes.Source

/-!
# The token pane

Tokens with their positions and kinds. The token that a syntax error was reported at is marked.
-/

namespace ThreeAddress.Inspector

def kindStyle : Kind → Style
  | .keyword => (Style.fg Theme.keyword).emphasized
  | .number => .fg Theme.number
  | .symbol => .fg Theme.primary
  | .identifier => .fg Theme.text
  | .unknown => .fg Theme.error

/-- The style of a marked row. -/
def markStyle : Style :=
  ((Style.fg .black).on Theme.error).emphasized

/-- The row of a token; marked if it stands at the position of an error. -/
def tokenRow (marked : Option Nat) (r : Nat × Token) : Style × Line :=
  (if marked = some r.1 then markStyle else {},
    [rowNumber r.1, ⟨Text.alignLeft 11 r.2.kind.name, kindStyle r.2.kind⟩,
      ⟨r.2.text, .fg Theme.text⟩])

/-- The token rows in sight at a scroll offset. -/
def tokenRows (visible offset : Nat) (marked : Option Nat) (tokens : List Token) :
    List (Style × Line) :=
  (visiblePart visible offset (tokens.mapIdx fun i t => (i, t))).map (tokenRow marked)

/-- The rows of the token pane, if there are tokens. -/
def tokenRowCount (tokens : List Token) : Option Nat :=
  if tokens.isEmpty then none else some tokens.length

/-- The token pane at a scroll offset. -/
def drawTokens (size : Size) (focused : Bool) (offset : Nat) (marked : Option Nat)
    (tokens : List Token) : Picture :=
  drawPane size (" Tokens (" ++ toString tokens.length ++ ") ") focused
    (if tokens.isEmpty then .notice Theme.comment "(no tokens)"
      else .entries (tokenRows size.visibleRows offset marked tokens))

end ThreeAddress.Inspector

import ThreeAddress.Compilation
import ThreeAddress.Inspector.Display
import ThreeAddress.Inspector.Panes.Code
import ThreeAddress.Inspector.Panes.Status
import ThreeAddress.Inspector.Panes.Symbols
import ThreeAddress.Inspector.Panes.Tokens

/-!
# An inspector session

A session shows one compilation in four panes. Keys move the focus, scroll the focused pane, switch
the code between the standard and the compatible options, and quit. Drawing clamps the scroll
offsets of the panes that show a list.
-/

namespace ThreeAddress.Inspector

/-- The panes, in the order in which the focus visits them. -/
inductive PaneName where
  | source
  | tokens
  | symbols
  | code
  deriving DecidableEq, Repr, Inhabited

namespace PaneName

def next : PaneName → PaneName
  | source => tokens
  | tokens => symbols
  | symbols => code
  | code => source

def previous : PaneName → PaneName
  | source => code
  | tokens => source
  | symbols => tokens
  | code => symbols

end PaneName

/-- A scroll offset for each pane. -/
structure Offsets where
  source : Nat := 0
  tokens : Nat := 0
  symbols : Nat := 0
  code : Nat := 0
  deriving DecidableEq, Repr, Inhabited

namespace Offsets

def get (o : Offsets) : PaneName → Nat
  | .source => o.source
  | .tokens => o.tokens
  | .symbols => o.symbols
  | .code => o.code

def set (o : Offsets) (n : Nat) : PaneName → Offsets
  | .source => { o with source := n }
  | .tokens => { o with tokens := n }
  | .symbols => { o with symbols := n }
  | .code => { o with code := n }

/-- Changes each offset by a function of its pane. -/
def mapPanes (o : Offsets) (f : PaneName → Nat → Nat) : Offsets :=
  ⟨f .source o.source, f .tokens o.tokens, f .symbols o.symbols, f .code o.code⟩

end Offsets

/-- A key press. -/
inductive Key where
  | tab
  | backTab
  | up
  | down
  | pageUp
  | pageDown
  | home
  | escape
  | char (c : Char)
  | other
  deriving DecidableEq, Repr

/-- A key by its name or its character. A modifier in front of it is ignored. -/
def Key.ofWord? (word : String) : Option Key :=
  match word with
  | "tab" => some .tab
  | "backtab" => some .backTab
  | "up" => some .up
  | "down" => some .down
  | "pageup" => some .pageUp
  | "pagedown" => some .pageDown
  | "home" => some .home
  | "esc" => some .escape
  | "left" | "right" | "end" | "enter" | "backspace" => some .other
  | _ =>
    match word.toList with
    | [c] => some (.char c)
    | ['c', 't', 'r', 'l', '-', c] => some (.char c)
    | ['a', 'l', 't', '-', c] => some (.char c)
    | _ => none

structure Session where
  source : String
  options : Options
  outcome : Except Compilation.Failure Compilation
  focus : PaneName
  offsets : Offsets := {}
  quit : Bool := false
  status : String

namespace Session

/-- How far a page key scrolls. -/
def page : Nat := 10

/-! ## What a session shows -/

def tokens (s : Session) : List Token :=
  match s.outcome with
  | .ok c => c.tokens
  | .error f => f.tokens

/-- The token index of the syntax error. -/
def errorPosition (s : Session) : Option Nat :=
  match s.outcome with
  | .ok _ => none
  | .error f => some f.error.position

def instructionCount (s : Session) : Option Nat :=
  match s.outcome with
  | .ok c => some c.code.length
  | .error _ => none

def isCompatible (s : Session) : Bool :=
  s.options = .compatible

/-- The inventory, if there was no syntax error. -/
def inventory (s : Session) : Option Inventory :=
  match s.outcome with
  | .ok c => some c.inventory
  | .error _ => none

/-- The code, or the report of the syntax error. -/
def code (s : Session) : Except String (List Instruction) :=
  match s.outcome with
  | .ok c => .ok c.code
  | .error f => .error f.error.report

/-- The number of rows of a pane that shows a list; the others show a notice. -/
def rowCount (s : Session) : PaneName → Option Nat
  | .source => sourceRowCount s.source
  | .tokens => tokenRowCount s.tokens
  | .symbols => symbolRowCount s.inventory
  | .code => codeRowCount s.code

/-! ## Beginning -/

/-- A session for a source text. After a syntax error the tokens around it are in focus. -/
def start (source : String) (o : Options) : Session :=
  let outcome := Compilation.ofSource source o
  match outcome with
  | .ok c =>
    { source, options := o, outcome, focus := .source
      status := "Compiled " ++ toString c.program.functions.length ++ " function(s)" }
  | .error f =>
    { source, options := o, outcome, focus := .tokens
      offsets := { tokens := f.error.position - page / 2 }
      status := f.error.report }

/-! ## Keys -/

/-- Scrolls the focused pane. -/
def scroll (s : Session) (f : Nat → Nat) : Session :=
  { s with offsets := s.offsets.set (f (s.offsets.get s.focus)) s.focus }

/-- Switches to the compatible options, or from them to the standard ones, and generates the code
again. -/
def toggle (s : Session) : Session :=
  let options : Options := if s.isCompatible then {} else .compatible
  let mode := if s.isCompatible then "standard" else "compatible"
  match s.outcome with
  | .ok c =>
    let c' := c.regenerate options
    { s with
      options
      outcome := .ok c'
      offsets := { s.offsets with code := 0 }
      status := "Regenerated " ++ toString c'.code.length ++ " instruction(s) in " ++ mode ++
        " mode" }
  | .error f =>
    { s with options, status := "Switched to " ++ mode ++ " mode; " ++ f.error.report }

/-- What a key does. Offsets are natural numbers: scrolling down goes on without bound, where an
offset in a machine word would stay at the greatest word. No pane that shows a list gets so far,
since each draw lowers its offset to at most the number of its rows (`settle`). -/
def press (s : Session) : Key → Session
  | .tab => { s with focus := s.focus.next }
  | .backTab => { s with focus := s.focus.previous }
  | .up => s.scroll (· - 1)
  | .down => s.scroll (· + 1)
  | .pageUp => s.scroll (· - page)
  | .pageDown => s.scroll (· + page)
  | .home => s.scroll fun _ => 0
  | .escape => { s with quit := true }
  | .char c =>
    if c = 'q' || c = 'Q' then { s with quit := true }
    else if c = 'c' || c = 'C' then s.toggle
    else s
  | .other => s

/-! ## Drawing -/

/-- The sizes of the panes and the status bar on a screen: two columns over one row. The source
takes three fifths of the left column, the symbols two fifths of the right one, to the nearest
row. -/
structure Layout where
  pane : PaneName → Size
  status : Size

def Layout.ofScreen (screen : Size) : Layout :=
  let height := screen.height - 1
  let left := halfUp screen.width
  let right := screen.width - left
  let upperLeft := (6 * height + 5) / 10
  let upperRight := (4 * height + 5) / 10
  { pane := fun
      | .source => ⟨left, upperLeft⟩
      | .tokens => ⟨left, height - upperLeft⟩
      | .symbols => ⟨right, upperRight⟩
      | .code => ⟨right, height - upperRight⟩
    status := ⟨screen.width, min screen.height 1⟩ }

/-- The session after it has been drawn with panes of the given sizes. -/
def settle (s : Session) (size : PaneName → Size) : Session :=
  { s with offsets := s.offsets.mapPanes fun pane => settledOffset (size pane) (s.rowCount pane) }

/-- The picture of a settled session. -/
def picture (s : Session) (layout : Layout) : Picture :=
  let focused (pane : PaneName) : Bool := s.focus = pane
  let left :=
    drawSource (layout.pane .source) (focused .source) s.offsets.source s.source ++
      drawTokens (layout.pane .tokens) (focused .tokens) s.offsets.tokens s.errorPosition s.tokens
  let right :=
    drawSymbols (layout.pane .symbols) (focused .symbols) s.offsets.symbols s.inventory ++
      drawCode (layout.pane .code) (focused .code) s.offsets.code s.isCompatible s.code
  Picture.beside left right ++
    drawStatus layout.status s.status s.instructionCount s.isCompatible

/-- Draws a session on a screen. -/
def draw (s : Session) (screen : Size) : Session × Picture :=
  let layout := Layout.ofScreen screen
  let drawn := s.settle layout.pane
  (drawn, drawn.picture layout)

/-- Draws a session on a display of the size of the screen. -/
def drawOn (s : Session) (screen : Size) (d : Display) : Session × Display :=
  let drawn := s.draw screen
  (drawn.1, d.draw drawn.2)

end Session

end ThreeAddress.Inspector

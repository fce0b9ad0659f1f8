import ThreeAddress.Inspector.Pane
import ThreeAddress.Inventory.Analysis
import ThreeAddress.Text.Column

/-!
# The symbol pane

The variables of all scopes, an empty row, and the functions.
-/

namespace ThreeAddress.Inspector

def tyStyle : Ty → Style
  | .unknown => .fg Theme.comment
  | _ => .fg Theme.typeName

def headerLine (text : String) : Line :=
  [⟨text, (Style.fg Theme.secondary).emphasized⟩]

def symbolLine (s : Symbol) : Line :=
  [⟨Text.alignLeft 14 s.name, .fg Theme.text⟩, ⟨Text.alignLeft 9 s.ty.name, tyStyle s.ty⟩,
    ⟨s.scope, .fg Theme.comment⟩]

def functionLine (f : FunctionRow) : Line :=
  [⟨Text.alignLeft 14 f.name, .fg Theme.label⟩, ⟨f.returns.name, tyStyle f.returns⟩]

/-- All rows of the pane. -/
def inventoryLines (inv : Inventory) : List Line :=
  headerLine (Text.alignLeft 14 "Variable" ++ Text.alignLeft 9 "Type" ++ "Scope") ::
    inv.symbols.toList.map symbolLine ++
    [] :: headerLine (Text.alignLeft 14 "Function" ++ "Return") ::
    inv.functions.toList.map functionLine

/-- The rows of the symbol pane, if there is an inventory. -/
def symbolRowCount (inv : Option Inventory) : Option Nat :=
  inv.map fun inv => (inventoryLines inv).length

/-- The symbol pane at a scroll offset; there is no inventory after a syntax error. -/
def drawSymbols (size : Size) (focused : Bool) (offset : Nat) (inv : Option Inventory) : Picture :=
  drawPane size " Symbols " focused
    (match inv with
      | none => .notice Theme.comment "(no symbols: parse failed)"
      | some inv =>
        .entries ((visiblePart size.visibleRows offset (inventoryLines inv)).map plainEntry))

end ThreeAddress.Inspector

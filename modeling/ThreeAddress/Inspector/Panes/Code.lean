import ThreeAddress.Code.Instruction
import ThreeAddress.Inspector.Panes.Source

/-!
# The code pane

The instructions with their numbers, or the syntax error that left none.
-/

namespace ThreeAddress.Inspector

/-- Has a text the form of a temporary's name: a `t` and digits? -/
def isTemporary (text : String) : Bool :=
  match text.toList with
  | 't' :: digits => !digits.isEmpty && digits.all Char.isDigit
  | _ => false

def operandStyle (text : String) : Style :=
  if text = unknownOperand then (Style.fg Theme.comment).slanted
  else if isTemporary text then .fg Theme.temporary
  else if text.toList.all Char.isDigit then .fg Theme.number
  else if text.toList.head? = some '"' then .fg Theme.string
  else .fg Theme.text

/-- A field after a space, unless it is unused; the later fields of a jump name its label. -/
def fieldSpans (isTarget : Bool) (text : String) : Line :=
  if text = "" then []
  else [⟨" ", {}⟩, ⟨text, if isTarget then .fg Theme.label else operandStyle text⟩]

/-- An instruction without its number. -/
def instructionSpans (i : Instruction) : Line :=
  if i.isLabel then [⟨i.op, (Style.fg Theme.label).emphasized⟩]
  else
    [⟨"    ", {}⟩, ⟨i.op, .fg Theme.keyword⟩] ++ fieldSpans false i.arg1 ++
      fieldSpans i.isJump i.arg2 ++ fieldSpans i.isJump i.result

def instructionRow (r : Nat × Instruction) : Style × Line :=
  plainEntry (rowNumber r.1 :: instructionSpans r.2)

/-- The rows of the code pane, if there are instructions. -/
def codeRowCount (code : Except String (List Instruction)) : Option Nat :=
  match code with
  | .error _ => none
  | .ok is => if is.isEmpty then none else some is.length

/-- The code pane at a scroll offset: code, or the report of a syntax error. -/
def drawCode (size : Size) (focused : Bool) (offset : Nat) (compatible : Bool)
    (code : Except String (List Instruction)) : Picture :=
  let title :=
    if compatible then " Three-Address Code (compatible) " else " Three-Address Code "
  drawPane size title focused
    (match code with
      | .error message => .message (.fg Theme.error) message
      | .ok [] => .notice Theme.comment "(no instructions)"
      | .ok (i :: is) =>
        .entries ((visiblePart size.visibleRows offset ((i :: is).mapIdx fun n i => (n, i))).map
          instructionRow))

end ThreeAddress.Inspector

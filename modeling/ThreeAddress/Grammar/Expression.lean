import ThreeAddress.Grammar.Cursor
import ThreeAddress.Node

/-!
# Reading expressions

Operands are joined by precedence climbing: a level takes only operators that bind at least as
tightly as its minimum, and reads the right operand one level higher, so every operator associates
to the left. A minus sign binds tighter than all operators and takes one primary; parentheses start
again at the lowest level.

Each expression comes with the height of its tree, which may be `maxNesting` at most.

The recursion is bounded by a number of rounds. Every round reads a token, so one round more than
there are tokens never runs out.
-/

namespace ThreeAddress.Grammar

/-- An expression and the height of its tree: 1 for a leaf. -/
structure Measured where
  node : Node
  height : Nat
  deriving Repr, Inhabited

/-- The height over children of height `below`. -/
def grow (below : Nat) : Reader Nat :=
  if maxNesting ≤ below then refuse .expressionTooDeep else return below + 1

/-- The operator that the next token denotes. -/
def peekOperator? : Reader (Option Operator) :=
  return (← peek?).bind fun t => if t.kind = .symbol then Operator.ofSymbol? t.text else none

/-- A number, a quoted text, a name, or what `inner` reads between parentheses. -/
def primary (inner : Reader Measured) : Reader Measured := do
  match ← peek? with
  | none => refuse .noExpression
  | some t =>
    match t.kind with
    | .number =>
      advance
      return ⟨.literal .int t.text, 1⟩
    | .identifier =>
      advance
      return ⟨if t.isQuoted then .literal .string t.text else .var t.text, 1⟩
    | _ =>
      if t.isSymbol '(' then
        let e ← nested .expressionTooDeep do
          advance
          inner
        expectSymbol ')' .afterExpression
        return e
      else refuse .noExpression

/-- A primary with an optional minus sign in front. -/
def unary (inner : Reader Measured) : Reader Measured := do
  if ← accept (·.isSymbol '-') then
    let operand ← primary inner
    let height ← grow operand.height
    return ⟨.negate operand.node, height⟩
  else primary inner

mutual

/-- Operands joined by operators of precedence `least` and above. -/
def binary (rounds : Nat) (least : Nat) : Reader Measured :=
  match rounds with
  | 0 => refuse .noExpression
  | rounds + 1 => do
    let left ← unary (binary rounds 0)
    climb rounds least left

/-- Goes on from a left operand while operators of precedence `least` and above follow. -/
def climb (rounds : Nat) (least : Nat) (left : Measured) : Reader Measured :=
  match rounds with
  | 0 => return left
  | rounds + 1 => do
    match ← peekOperator? with
    | none => return left
    | some op =>
      if op.precedence < least then return left
      advance
      let right ← binary rounds (op.precedence + 1)
      let height ← grow (max left.height right.height)
      climb rounds least ⟨.binary op left.node right.node, height⟩

end

/-- One expression, as long as operators continue it. -/
def expression (rounds : Nat) : Reader Node := do
  let e ← binary rounds 0
  return e.node

end ThreeAddress.Grammar

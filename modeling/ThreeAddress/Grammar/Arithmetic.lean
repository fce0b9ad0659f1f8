import ThreeAddress.Grammar.Cursor

/-!
# Plain arithmetic

A token stream is checked to be one arithmetic expression over numbers; no tree is built.

```text
sum     ::= product (("+" | "-") product)*
product ::= signed (("*" | "/") signed)*
signed  ::= "-"? operand
operand ::= number | "(" sum ")"
```
-/

namespace ThreeAddress.Grammar

/-- A number, or what `inner` reads between parentheses, with an optional minus sign in front. -/
def signed (inner : Reader Unit) : Reader Unit := do
  let _ ← accept (·.isSymbol '-')
  match ← peek? with
  | none => refuse .noOperand
  | some t =>
    if t.kind = .number then advance
    else if t.isSymbol '(' then
      nested .expressionTooDeep do
        advance
        inner
      expectSymbol ')' .afterExpression
    else refuse .noOperand

/-- Further items as long as one of two signs follows. -/
def more (sign₁ sign₂ : Char) (item : Reader Unit) (rounds : Nat) : Reader Unit :=
  match rounds with
  | 0 => return ()
  | rounds + 1 => do
    if ← accept (fun t => t.isSymbol sign₁ || t.isSymbol sign₂) then
      item
      more sign₁ sign₂ item rounds

/-- Items joined by one of two signs. -/
def joined (sign₁ sign₂ : Char) (item : Reader Unit) (rounds : Nat) : Reader Unit := do
  item
  more sign₁ sign₂ item rounds

/-- One arithmetic expression, as long as signs continue it. -/
def sum (rounds : Nat) : Reader Unit :=
  match rounds with
  | 0 => refuse .noOperand
  | rounds + 1 => joined '+' '-' (joined '*' '/' (signed (sum rounds)) rounds) rounds

/-- One arithmetic expression with nothing after it. -/
def arithmetic : Reader Unit := do
  withRounds sum
  match ← peek? with
  | none => return ()
  | some _ => refuse .afterArithmetic

/-- Is the whole stream one arithmetic expression? -/
def checkArithmetic (tokens : List Token) : Except SyntaxError Unit :=
  readFrom arithmetic tokens

end ThreeAddress.Grammar

/-!
# Binary operators

Seven operators on three levels of precedence. All of them associate to the left.
-/

namespace ThreeAddress

inductive Operator where
  | add
  | sub
  | mul
  | div
  | mod
  | lt
  | gt
  deriving DecidableEq, Repr, Inhabited

namespace Operator

def all : List Operator := [add, sub, mul, div, mod, lt, gt]

def symbol : Operator → String
  | add => "+"
  | sub => "-"
  | mul => "*"
  | div => "/"
  | mod => "%"
  | lt => "<"
  | gt => ">"

/-- The operator that a symbol denotes. -/
def ofSymbol? (symbol : String) : Option Operator :=
  all.find? fun o => o.symbol = symbol

/-- Binding strength: comparison 0, addition 1, multiplication 2. -/
def precedence : Operator → Nat
  | lt | gt => 0
  | add | sub => 1
  | mul | div | mod => 2

theorem ofSymbol?_symbol (o : Operator) : ofSymbol? o.symbol = some o := by
  cases o <;> decide

theorem symbol_of_ofSymbol? {s : String} {o : Operator} (h : ofSymbol? s = some o) :
    o.symbol = s := by
  simpa using List.find?_some h

end Operator

end ThreeAddress

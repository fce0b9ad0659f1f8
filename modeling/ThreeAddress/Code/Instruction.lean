/-!
# Three-address instructions

An instruction has an operation, two arguments and a result; an empty text marks an unused field. An
operation that ends in a colon is a label.
-/

namespace ThreeAddress

structure Instruction where
  op : String
  arg1 : String
  arg2 : String
  result : String
  deriving DecidableEq, Repr, Inhabited

/-- The operand that stands for a value without one. -/
def unknownOperand : String := "unknown"

namespace Instruction

/-- The place named `name`. -/
def label (name : String) : Instruction :=
  ⟨name ++ ":", "", "", ""⟩

/-- Go on at the place named `target`. -/
def goto (target : String) : Instruction :=
  ⟨"goto", "", "", target⟩

/-- Give a variable a value. -/
def assign (value target : String) : Instruction :=
  ⟨"=", value, "", target⟩

/-- Leave with a value. -/
def exit (value : String) : Instruction :=
  ⟨"return", value, "", ""⟩

def isLabel (i : Instruction) : Bool :=
  i.op.toList.getLast? == some ':'

/-- The name of the place that a label marks. -/
def labelName? (i : Instruction) : Option String :=
  if i.isLabel then some (String.ofList i.op.toList.dropLast) else none

def fields (i : Instruction) : List String :=
  [i.op, i.arg1, i.arg2, i.result]

/-- The fields in use, with one space between them. -/
def text (i : Instruction) : String :=
  " ".intercalate (i.fields.filter (· ≠ ""))

/-- The operations that go on elsewhere; their last two fields say where. -/
def isJump (i : Instruction) : Bool :=
  i.op = "goto" || i.op = "if" || i.op = "ifFalse"

end Instruction

end ThreeAddress

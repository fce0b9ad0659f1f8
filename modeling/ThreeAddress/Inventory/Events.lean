import ThreeAddress.Inventory.Analysis

/-!
# What a tree declares

The records and the function definitions of a tree, listed in the order in which a walk meets them,
without any table.
-/

namespace ThreeAddress

namespace Node

mutual

/-- The records of variables in a node that stands in `scope`. A target has the type of the literal
that is assigned to it, and no type that is known from any other value. -/
def records (scope : String) : Node → List Symbol
  | .function _ name params body =>
    params.map (fun p => ⟨p.name, .unknown, name⟩) ++ recordsAll name body
  | .assign target (.literal ty _) => [⟨target, ty, scope⟩]
  | .assign target _ => [⟨target, .unknown, scope⟩]
  | .exit value => records scope value
  | .branch condition thenBody elseBody =>
    records scope condition ++ recordsAll scope thenBody ++ recordsAll scope elseBody
  | .loop condition body => records scope condition ++ recordsAll scope body
  | .binary .. | .negate _ | .literal .. | .var _ => []

def recordsAll (scope : String) : List Node → List Symbol
  | [] => []
  | node :: rest => records scope node ++ recordsAll scope rest

end

/-- The type of a recorded target is the one that a walk gives it. -/
@[simp] theorem records_assign (scope target : String) (value : Node) :
    records scope (.assign target value) = [⟨target, value.valueTy, scope⟩] := by
  cases value <;> rfl

mutual

/-- The function definitions in a node, in the order in which their bodies end. -/
def definedFunctions : Node → List FunctionRow
  | .function returns name _ body => definedFunctionsAll body ++ [⟨name, returns⟩]
  | .exit value => definedFunctions value
  | .branch condition thenBody elseBody =>
    definedFunctions condition ++ definedFunctionsAll thenBody ++ definedFunctionsAll elseBody
  | .loop condition body => definedFunctions condition ++ definedFunctionsAll body
  | .assign .. | .binary .. | .negate _ | .literal .. | .var _ => []

def definedFunctionsAll : List Node → List FunctionRow
  | [] => []
  | node :: rest => definedFunctions node ++ definedFunctionsAll rest

end

end Node

/-- The records of variables in a program. -/
def Program.records (p : Program) : List Symbol :=
  Node.recordsAll globalScope p.functions

end ThreeAddress

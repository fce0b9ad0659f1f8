import ThreeAddress.Operator
import ThreeAddress.Ty

/-!
# Syntax trees

One type of node for definitions, statements and expressions. The grammar builds only programs of
functions, statements inside bodies and expressions inside statements; the passes over the tree are
defined on every node, wherever it stands.
-/

namespace ThreeAddress

/-- A parameter of a function definition. -/
structure Param where
  ty : Ty
  name : String
  deriving DecidableEq, Repr, Inhabited

inductive Node where
  /-- A function definition. -/
  | function (returns : Ty) (name : String) (params : List Param) (body : List Node)
  /-- A declaration or an assignment: the declared type is not kept. -/
  | assign (target : String) (value : Node)
  /-- Leave the function with a value. -/
  | exit (value : Node)
  /-- Choose between two bodies. A missing alternative is empty. -/
  | branch (condition : Node) (thenBody elseBody : List Node)
  /-- Repeat a body. -/
  | loop (condition : Node) (body : List Node)
  | binary (op : Operator) (left right : Node)
  | negate (operand : Node)
  | literal (ty : Ty) (text : String)
  | var (name : String)
  deriving Repr, Inhabited

/-- The function definitions of a source text, in source order. -/
structure Program where
  functions : List Node
  deriving Repr, Inhabited

namespace Node

/-- One line of text: an expression with all its grouping written out, a statement or a definition
as the beginning of its line. -/
def headline : Node → String
  | function returns name _ _ => returns.name ++ " " ++ name ++ "()"
  | assign target value => target ++ " = " ++ value.headline
  | exit value => "return " ++ value.headline
  | branch condition _ _ => "if " ++ condition.headline
  | loop condition _ => "while " ++ condition.headline
  | binary op left right => "(" ++ left.headline ++ " " ++ op.symbol ++ " " ++ right.headline ++ ")"
  | negate operand => "-" ++ operand.headline
  | literal _ text => text
  | var name => name

/-- The statements directly inside a function definition. -/
def bodyStatements : Node → List Node
  | function _ _ _ body => body
  | _ => []

end Node

end ThreeAddress

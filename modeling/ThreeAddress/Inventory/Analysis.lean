import ThreeAddress.Inventory.Tables
import ThreeAddress.Node

/-!
# Inventory of a tree

One walk over the tree fills the symbol table and the function table. Nothing is checked: a variable
need not be declared, and what has no direct literal for a value gets the type `unknown`.
-/

namespace ThreeAddress

structure Inventory where
  symbols : SymbolTable := {}
  functions : FunctionTable := {}

/-- The type that an assigned value gives its target: that of a literal, and no other. -/
def Node.valueTy : Node → Ty
  | .literal ty _ => ty
  | _ => .unknown

namespace Inventory

def record (inv : Inventory) (name : String) (ty : Ty) (scope : String) : Inventory :=
  { inv with symbols := inv.symbols.record name ty scope }

def addFunction (inv : Inventory) (name : String) (returns : Ty) : Inventory :=
  { inv with functions := inv.functions.push name returns }

/-- Parameters have no value at their definition. -/
def recordParams (inv : Inventory) (scope : String) (params : List Param) : Inventory :=
  params.foldl (fun inv p => inv.record p.name .unknown scope) inv

mutual

/-- Walks over a node that stands in `scope`. A function is the scope of its parameters and its body
and gets its row after them; the value of an assignment is not entered. -/
def visit (scope : String) (inv : Inventory) : Node → Inventory
  | .function returns name params body =>
    (visitAll name (inv.recordParams name params) body).addFunction name returns
  | .assign target value => inv.record target value.valueTy scope
  | .exit value => visit scope inv value
  | .branch condition thenBody elseBody =>
    visitAll scope (visitAll scope (visit scope inv condition) thenBody) elseBody
  | .loop condition body => visitAll scope (visit scope inv condition) body
  | .binary .. | .negate _ | .literal .. | .var _ => inv

/-- Walks over nodes of one scope in order. -/
def visitAll (scope : String) (inv : Inventory) : List Node → Inventory
  | [] => inv
  | node :: rest => visitAll scope (visit scope inv node) rest

end

end Inventory

/-- The inventory of one tree. -/
def Node.inventory (node : Node) : Inventory :=
  Inventory.visit globalScope {} node

/-- The inventory of all functions of a program, in one pair of tables. -/
def Program.inventory (p : Program) : Inventory :=
  Inventory.visitAll globalScope {} p.functions

end ThreeAddress

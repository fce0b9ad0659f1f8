import Std.Data.HashMap
import ThreeAddress.Ty

/-!
# Symbol and function tables

A symbol table has one row per name and scope, in the order of their first records; recording a pair
again changes only the type of its row. An index from pairs to row numbers answers look-ups. The
function table has one row per definition, repeated names included.
-/

namespace ThreeAddress

/-- The scope of what stands outside every function. -/
def globalScope : String := "global"

/-- A variable with the type it was last given. -/
structure Symbol where
  name : String
  ty : Ty
  scope : String
  deriving DecidableEq, Repr, Inhabited

structure SymbolTable where
  rows : Array Symbol := #[]
  index : Std.HashMap (String × String) Nat := {}

namespace SymbolTable

/-- Gives a variable its type: in its row if it has one, otherwise in a new last row. -/
def record (t : SymbolTable) (name : String) (ty : Ty) (scope : String) : SymbolTable :=
  match t.index[(name, scope)]? with
  | some slot => { t with rows := t.rows.modify slot fun row => { row with ty } }
  | none =>
    { rows := t.rows.push ⟨name, ty, scope⟩
      index := t.index.insert (name, scope) t.rows.size }

/-- The row of a variable. -/
def lookup? (t : SymbolTable) (name scope : String) : Option Symbol :=
  t.index[(name, scope)]?.bind fun slot => t.rows[slot]?

def toList (t : SymbolTable) : List Symbol :=
  t.rows.toList

def size (t : SymbolTable) : Nat :=
  t.rows.size

end SymbolTable

/-- A function with its declared return type. -/
structure FunctionRow where
  name : String
  returns : Ty
  deriving DecidableEq, Repr, Inhabited

structure FunctionTable where
  rows : Array FunctionRow := #[]

namespace FunctionTable

def push (t : FunctionTable) (name : String) (returns : Ty) : FunctionTable :=
  ⟨t.rows.push ⟨name, returns⟩⟩

/-- The first definition of a name. -/
def find? (t : FunctionTable) (name : String) : Option FunctionRow :=
  t.rows.find? fun row => row.name = name

def toList (t : FunctionTable) : List FunctionRow :=
  t.rows.toList

def size (t : FunctionTable) : Nat :=
  t.rows.size

end FunctionTable

end ThreeAddress

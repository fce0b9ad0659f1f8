/-!
# Types

The type tags of literals, variables and functions.
-/

namespace ThreeAddress

/-- A type tag. `unknown` stands for whatever the inventory does not resolve. -/
inductive Ty where
  | int
  | string
  | void
  | unknown
  deriving DecidableEq, Repr, Inhabited

namespace Ty

def name : Ty → String
  | int => "int"
  | string => "string"
  | void => "void"
  | unknown => "unknown"

/-- The type that a reserved word denotes. -/
def ofKeyword? (word : String) : Option Ty :=
  if word = "int" then some int
  else if word = "string" then some string
  else if word = "void" then some void
  else none

/-- The types a function may return. -/
def returnTypes : List Ty := [int, string, void]

/-- The types a variable may be declared with. -/
def valueTypes : List Ty := [int, string]

theorem ofKeyword?_name {t : Ty} (h : t ≠ unknown) : ofKeyword? t.name = some t := by
  cases t with
  | unknown => exact absurd rfl h
  | int | string | void => rfl

end Ty

end ThreeAddress

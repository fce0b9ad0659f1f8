import ThreeAddress.Code.Instruction
import ThreeAddress.Inventory.Analysis
import ThreeAddress.Text.Column
import ThreeAddress.Token

/-!
# Reports

Plain text for tokens, trees, tables and code. Every line of a report ends in a line feed.
-/

namespace ThreeAddress.Report

open Text (alignLeft alignRight)

/-- Lines as a text. -/
def ofLines (lines : List String) : String :=
  String.join (lines.map (· ++ "\n"))

/-! ## Tokens -/

/-- Position, kind and text of a token. -/
def tokenLine (position : Nat) (t : Token) : String :=
  alignRight 4 (toString position) ++ "  " ++ alignLeft 10 t.kind.name ++ "  " ++ t.text

def tokens (ts : List Token) : String :=
  ofLines (ts.mapIdx tokenLine)

/-! ## Trees -/

/-- The value of a statement: a literal shows its type, any other node its headline. -/
def value : Node → String
  | .literal ty text => text ++ " (" ++ ty.name ++ ")"
  | node => node.headline

def paramList (params : List Param) : String :=
  " ".intercalate (params.map fun p => p.ty.name ++ " " ++ p.name)

/-- A line of a tree, two spaces deeper for each level. -/
def indented (depth : Nat) (line : String) : String :=
  String.ofList (List.replicate (2 * depth) ' ') ++ line

mutual

/-- The lines of a node whose own line is at `depth`. An empty else body is not shown. -/
def outline (depth : Nat) : Node → List String
  | .function returns name params body =>
    indented depth
      ("FunctionDef: " ++ name ++ "(" ++ paramList params ++ ") -> " ++ returns.name) ::
      outlineAll (depth + 1) body
  | .assign target v => [indented depth ("Assign: " ++ target ++ " = " ++ value v)]
  | .exit v => [indented depth ("Return: " ++ value v)]
  | .branch condition thenBody elseBody =>
    [indented depth "If:", indented (depth + 1) ("Condition: " ++ value condition),
      indented (depth + 1) "Then:"] ++ outlineAll (depth + 2) thenBody ++
      (if elseBody.isEmpty then []
        else indented (depth + 1) "Else:" :: outlineAll (depth + 2) elseBody)
  | .loop condition body =>
    [indented depth "While:", indented (depth + 1) ("Condition: " ++ value condition),
      indented (depth + 1) "Body:"] ++ outlineAll (depth + 2) body
  | .binary op left right => [indented depth (value (.binary op left right))]
  | .negate operand => [indented depth (value (.negate operand))]
  | .literal ty text => [indented depth (value (.literal ty text))]
  | .var name => [indented depth (value (.var name))]

def outlineAll (depth : Nat) : List Node → List String
  | [] => []
  | node :: rest => outline depth node ++ outlineAll depth rest

end

def tree (p : Program) : String :=
  ofLines (outlineAll 0 p.functions)

/-! ## Tables -/

def symbolLine (name ty scope : String) : String :=
  alignLeft 16 name ++ alignLeft 10 ty ++ scope

def symbols (t : SymbolTable) : String :=
  ofLines (symbolLine "Variable" "Type" "Scope" ::
    t.toList.map fun s => symbolLine s.name s.ty.name s.scope)

def functionLine (name returns : String) : String :=
  alignLeft 16 name ++ returns

def functions (t : FunctionTable) : String :=
  ofLines (functionLine "Function" "Return" ::
    t.toList.map fun f => functionLine f.name f.returns.name)

/-- Both tables with an empty line between them. -/
def inventory (inv : Inventory) : String :=
  symbols inv.symbols ++ "\n" ++ functions inv.functions

/-! ## Code -/

/-- Labels stand at the margin, all other instructions four spaces to the right. -/
def instructionLine (i : Instruction) : String :=
  if i.isLabel then i.text else "    " ++ i.text

def code (is : List Instruction) : String :=
  ofLines (is.map instructionLine)

end ThreeAddress.Report

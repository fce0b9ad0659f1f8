import ThreeAddress.Command.Log
import ThreeAddress.Compilation
import ThreeAddress.Grammar.Arithmetic
import ThreeAddress.Inventory.Events

/-!
# What the stages of a compilation log

Each function lists the records of one stage for the same input that the stage is given.
-/

namespace ThreeAddress.Command.Journal

def count (n : Nat) (what : String) : String :=
  toString n ++ " " ++ what

def tokenized (tokens : List Token) : Record :=
  ⟨.debug, .lexer, "tokenized " ++ count tokens.length "token(s)"⟩

def parsedFunction : Node → Record
  | .function _ name _ body =>
    ⟨.trace, .definitions,
      "parsed function '" ++ name ++ "' with " ++ count body.length "statement(s)"⟩
  | node => ⟨.trace, .definitions, "parsed " ++ node.headline⟩

/-- Reading a program: every definition that was read, and their number unless an error followed. -/
def parsed (tokens : List Token) : List Record :=
  match Grammar.definitions (tokens.length + 1) (Grammar.Cursor.start tokens) with
  | (functions, .ok _ _) =>
    functions.map parsedFunction ++
      [⟨.debug, .program, "parsed " ++ count functions.length "function(s)"⟩]
  | (functions, .error _ _) => functions.map parsedFunction

/-- Checking plain arithmetic. -/
def checked (result : Except SyntaxError Unit) : List Record :=
  match result with
  | .ok _ => []
  | .error e => [⟨.debug, .arithmetic, "expression rejected: " ++ e.report⟩]

/-- Records of variables, in a table that has `t` before them. -/
def recorded (t : SymbolTable) : List Symbol → List Record
  | [] => []
  | s :: rest =>
    let message :=
      match t.lookup? s.name s.scope with
      | some row =>
        "update " ++ s.name ++ " in " ++ s.scope ++ ": " ++ row.ty.name ++ " -> " ++ s.ty.name
      | none => "record " ++ s.name ++ " in " ++ s.scope ++ " as " ++ s.ty.name
    ⟨.trace, .symbols, message⟩ :: recorded (t.record s.name s.ty s.scope) rest

/-- The inventory of a program. -/
def analyzed (p : Program) (inv : Inventory) : List Record :=
  recorded {} p.records ++
    [⟨.debug, .analysis,
      "analysis: " ++ count inv.symbols.size "symbol(s), " ++
        count inv.functions.size "function(s)"⟩]

/-- The code of a program. -/
def generated (e : Emitted) : List Record :=
  e.code.map (fun i => ⟨.trace, .code, "emit " ++ i.text⟩) ++
    [⟨.debug, .code,
      "generated " ++ count e.code.length "instruction(s), " ++
        count e.counters.labels "label(s), " ++ count e.counters.temporaries "temporary(ies)"⟩]

/-- A whole compilation of tokens with the given outcome. -/
def compiled (tokens : List Token) (o : Options)
    (outcome : Except Compilation.Failure Compilation) : List Record :=
  tokenized tokens :: parsed tokens ++
    match outcome with
    | .error failure => [⟨.warn, .compilation, failure.error.report⟩]
    | .ok c => analyzed c.program c.inventory ++ generated (c.program.emit o)

end ThreeAddress.Command.Journal

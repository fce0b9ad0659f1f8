import ThreeAddress.Code.Instruction
import ThreeAddress.Node

/-!
# From trees to three-address code

Each node becomes a list of instructions. Temporaries `t1`, `t2`, … and labels `L1`, `L2`, … are
numbered in the order of emission; the numbers used so far are handed from node to node.

When a condition is to jump if false, a branch and a loop are laid out as

```text
branch: ifFalse c goto L1 / then / goto L2 / L1: / else / L2:
loop:   L1: / ifFalse c goto L2 / body / goto L1 / L2:
```

and when it is to jump if true, as

```text
branch: if c goto L1 / else / goto L2 / L1: / then / L2:
loop:   L1: / if c goto L2 / body / goto L1 / L2:
```
-/

namespace ThreeAddress

/-- Which outcome of a condition jumps. -/
inductive Polarity where
  | jumpIfFalse
  /-- The older layout: a loop leaves when its condition is true. -/
  | jumpIfTrue
  deriving DecidableEq, Repr, Inhabited

/-- What becomes of a value that is no literal. -/
inductive Resolution where
  /-- Operators are computed into temporaries, one instruction each. -/
  | recursive
  /-- It is left unknown, and only literals are written. -/
  | literalOnly
  deriving DecidableEq, Repr, Inhabited

structure Options where
  polarity : Polarity := .jumpIfFalse
  resolution : Resolution := .recursive
  deriving DecidableEq, Repr, Inhabited

/-- Both of the older choices. -/
def Options.compatible : Options :=
  ⟨.jumpIfTrue, .literalOnly⟩

/-- How many temporaries and labels are in use. -/
structure Counters where
  temporaries : Nat := 0
  labels : Nat := 0
  deriving DecidableEq, Repr, Inhabited

def temporaryName (n : Nat) : String := "t" ++ toString n

def labelName (n : Nat) : String := "L" ++ toString n

/-- An expression's operand, the temporaries in use after it, and the code that computes it. -/
structure Operand where
  name : String
  temporaries : Nat
  code : List Instruction
  deriving DecidableEq, Repr

/-- A statement's code and the counters after it. -/
structure Emitted where
  counters : Counters
  code : List Instruction
  deriving DecidableEq, Repr

namespace Node

/-- The operand of an expression: a literal or a variable is its own, an operator gets a new
temporary after those of its operands. A statement has none. -/
def operand (used : Nat) : Node → Operand
  | .literal _ text => ⟨text, used, []⟩
  | .var name => ⟨name, used, []⟩
  | .binary op left right =>
    let l := left.operand used
    let r := right.operand l.temporaries
    let temporary := temporaryName (r.temporaries + 1)
    ⟨temporary, r.temporaries + 1,
      l.code ++ r.code ++ [⟨op.symbol, l.name, r.name, temporary⟩]⟩
  | .negate value =>
    let v := value.operand used
    let temporary := temporaryName (v.temporaries + 1)
    ⟨temporary, v.temporaries + 1, v.code ++ [⟨"minus", v.name, "", temporary⟩]⟩
  | .function .. | .assign .. | .exit _ | .branch .. | .loop .. => ⟨unknownOperand, used, []⟩

/-- The operand of an expression when only literals are written. -/
def literalOperand (used : Nat) : Node → Operand
  | .literal _ text => ⟨text, used, []⟩
  | _ => ⟨unknownOperand, used, []⟩

/-- The operand of an expression under either resolution. -/
def resolve (resolution : Resolution) (used : Nat) (node : Node) : Operand :=
  match resolution with
  | .recursive => node.operand used
  | .literalOnly => node.literalOperand used

end Node

/-- The jump of a condition to a label. -/
def Polarity.jump (polarity : Polarity) (condition target : String) : Instruction :=
  match polarity with
  | .jumpIfFalse => ⟨"ifFalse", condition, "goto", target⟩
  | .jumpIfTrue => ⟨"if", condition, "goto", target⟩

namespace Emitted

/-- No code. -/
def none (k : Counters) : Emitted := ⟨k, []⟩

/-- The code of a branch whose condition is `c`: the label `jumped` starts the region `target`,
which is skipped after the region `fallen`. -/
def branch (polarity : Polarity) (c : Operand) (jumped joined : Nat) (fallen target : Emitted) :
    Emitted :=
  ⟨target.counters,
    c.code ++ [polarity.jump c.name (labelName jumped)] ++ fallen.code ++
      [.goto (labelName joined), .label (labelName jumped)] ++ target.code ++
      [.label (labelName joined)]⟩

/-- The code of a loop whose condition is `c`. -/
def loop (polarity : Polarity) (c : Operand) (start left : Nat) (body : Emitted) : Emitted :=
  ⟨body.counters,
    [.label (labelName start)] ++ c.code ++ [polarity.jump c.name (labelName left)] ++ body.code ++
      [.goto (labelName start), .label (labelName left)]⟩

end Emitted

namespace Node

mutual

/-- The code of a node after which `k` counts are in use before it. An expression by itself
contributes the code that computes it; of a function only the body counts. -/
def emit (o : Options) (k : Counters) : Node → Emitted
  | .function _ _ _ body => emitAll o k body
  | .assign target value =>
    let v := value.resolve o.resolution k.temporaries
    ⟨{ k with temporaries := v.temporaries }, v.code ++ [.assign v.name target]⟩
  | .exit value =>
    let v := value.resolve o.resolution k.temporaries
    ⟨{ k with temporaries := v.temporaries }, v.code ++ [.exit v.name]⟩
  | .branch condition thenBody elseBody =>
    let c := condition.resolve o.resolution k.temporaries
    let k' : Counters := ⟨c.temporaries, k.labels + 2⟩
    match o.polarity with
    | .jumpIfFalse =>
      let fallen := emitAll o k' thenBody
      Emitted.branch o.polarity c (k.labels + 1) (k.labels + 2) fallen
        (emitAll o fallen.counters elseBody)
    | .jumpIfTrue =>
      let fallen := emitAll o k' elseBody
      Emitted.branch o.polarity c (k.labels + 1) (k.labels + 2) fallen
        (emitAll o fallen.counters thenBody)
  | .loop condition body =>
    let c := condition.resolve o.resolution k.temporaries
    Emitted.loop o.polarity c (k.labels + 1) (k.labels + 2)
      (emitAll o ⟨c.temporaries, k.labels + 2⟩ body)
  | .binary op left right =>
    let v := (Node.binary op left right).resolve o.resolution k.temporaries
    ⟨{ k with temporaries := v.temporaries }, v.code⟩
  | .negate value =>
    let v := (Node.negate value).resolve o.resolution k.temporaries
    ⟨{ k with temporaries := v.temporaries }, v.code⟩
  | .literal .. | .var _ => Emitted.none k

/-- The code of nodes in order. -/
def emitAll (o : Options) (k : Counters) : List Node → Emitted
  | [] => Emitted.none k
  | node :: rest =>
    let first := emit o k node
    let later := emitAll o first.counters rest
    ⟨later.counters, first.code ++ later.code⟩

end

/-- The code of one tree, numbered from 1. -/
def code (o : Options) (node : Node) : List Instruction :=
  (node.emit o {}).code

end Node

namespace Program

/-- All functions of a program, numbered through from 1. -/
def emit (o : Options) (p : Program) : Emitted :=
  Node.emitAll o {} p.functions

def code (o : Options) (p : Program) : List Instruction :=
  (p.emit o).code

end Program

end ThreeAddress

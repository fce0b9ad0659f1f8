import ThreeAddress.Grammar.Statement

/-!
# Reading programs

```text
program   ::= function function*
function  ::= ("int" | "string" | "void") name "(" parameter* ")" "{" statement* "}"
parameter ::= ("int" | "string") name
```

Reading is all or nothing: the first token that does not fit ends it. The braces of a function body
and the parentheses of its parameters are no nesting levels.
-/

namespace ThreeAddress.Grammar

/-- Parameters as long as types follow. -/
def parameters (rounds : Nat) : Reader (List Param) :=
  match rounds with
  | 0 => return []
  | rounds + 1 => do
    match (← peek?).bind (typeOf? Ty.valueTypes) with
    | none => return []
    | some _ =>
      let ty ← expectType Ty.valueTypes .parameterType
      let name ← expectName .parameterName
      let others ← parameters rounds
      return ⟨ty, name⟩ :: others

/-- One function definition. -/
def definition (rounds : Nat) : Reader Node := do
  let returns ← expectType Ty.returnTypes .functionStart
  let name ← expectName .functionName
  expectSymbol '(' .afterFunctionName
  let params ← parameters rounds
  expectSymbol ')' .afterParameters
  expectSymbol '\x7b' .beforeFunctionBody
  let body ← statements rounds
  expectSymbol '\x7d' .afterFunctionBody
  return .function returns name params body

/-- Function definitions up to the end of the stream or the first error: those that were read, and
how reading ended. There must be at least one. -/
def definitions (rounds : Nat) (c : Cursor) :
    List Node × EStateM.Result SyntaxError Cursor Unit :=
  match rounds with
  | 0 => ([], .ok () c)
  | rounds + 1 =>
    match definition rounds c with
    | .error e c' => ([], .error e c')
    | .ok f c' =>
      match c'.ahead with
      | [] => ([f], .ok () c')
      | _ :: _ =>
        let others := definitions rounds c'
        (f :: others.1, others.2)

/-- A whole program. -/
def program : Reader Program :=
  fun c =>
    match definitions (c.ahead.length + 1) c with
    | (functions, .ok () c') => .ok ⟨functions⟩ c'
    | (_, .error e c') => .error e c'

/-- Exactly one function definition, with nothing after it. -/
def singleFunction : Reader Node := do
  let f ← withRounds definition
  match ← peek? with
  | none => return f
  | some _ => refuse .afterFunction

end Grammar

/-- The program that a token stream spells. -/
def Program.ofTokens (tokens : List Token) : Except SyntaxError Program :=
  Grammar.readFrom Grammar.program tokens

/-- The function definition that a token stream spells. -/
def Node.ofTokens (tokens : List Token) : Except SyntaxError Node :=
  Grammar.readFrom Grammar.singleFunction tokens

end ThreeAddress

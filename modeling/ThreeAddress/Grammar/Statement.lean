import ThreeAddress.Grammar.Expression

/-!
# Reading statements

```text
statement   ::= declaration | assignment | if | while | return
declaration ::= ("int" | "string") name "=" expression ";"
assignment  ::= name "=" expression ";"
if          ::= "if" "(" expression ")" body ("else" body)?
while       ::= "while" "(" expression ")" body
return      ::= "return" expression ";"
body        ::= "{" statement* "}"
```

The first token decides which statement is read. A body is one nesting level deeper than the
statement it belongs to. As with expressions the number of rounds is bounded by the tokens ahead.
-/

namespace ThreeAddress.Grammar

/-- The value and the end of a declaration or an assignment, after its name. -/
def assigned (rounds : Nat) (target : String) (beforeValue afterValue : Place) : Reader Node := do
  expectSymbol '=' beforeValue
  let value ← expression rounds
  expectSymbol ';' afterValue
  return .assign target value

def declaration (rounds : Nat) : Reader Node := do
  let _ ← expectType Ty.valueTypes .declarationStart
  let target ← expectName .declaredName
  assigned rounds target .afterDeclaredName .afterDeclaration

def assignment (rounds : Nat) : Reader Node := do
  let target ← expectName .target
  assigned rounds target .afterTarget .afterAssignment

/-- The rest of a return statement, after its word. -/
def returned (rounds : Nat) : Reader Node := do
  let value ← expression rounds
  expectSymbol ';' .afterReturnValue
  return .exit value

/-- A condition between parentheses. -/
def condition (rounds : Nat) (word : Guard) : Reader Node := do
  expectSymbol '(' (.beforeCondition word)
  let value ← expression rounds
  expectSymbol ')' (.afterCondition word)
  return value

/-- A braced body; `inner` reads the statements between the braces. -/
def braced (body : Body) (inner : Reader (List Node)) : Reader (List Node) := do
  let statements ← nested .statementsTooDeep do
    expectSymbol '\x7b' (.before body)
    inner
  expectSymbol '\x7d' (.after body)
  return statements

/-- The rest of an if statement, after its word. -/
def ifRest (rounds : Nat) (inner : Reader (List Node)) : Reader Node := do
  let value ← condition rounds .ifWord
  let thenBody ← braced .ifBody inner
  if ← accept (·.isKeyword "else") then
    let elseBody ← braced .elseBody inner
    return .branch value thenBody elseBody
  else return .branch value thenBody []

/-- The rest of a while statement, after its word. -/
def whileRest (rounds : Nat) (inner : Reader (List Node)) : Reader Node := do
  let value ← condition rounds .whileWord
  let body ← braced .loopBody inner
  return .loop value body

/-- One statement; `inner` reads the statements inside a body. -/
def statement (rounds : Nat) (inner : Reader (List Node)) : Reader Node := do
  match ← peek? with
  | none => refuse .noStatement
  | some t =>
    if (typeOf? Ty.valueTypes t).isSome then declaration rounds
    else if t.isKeyword "if" then
      advance
      ifRest rounds inner
    else if t.isKeyword "while" then
      advance
      whileRest rounds inner
    else if t.isKeyword "return" then
      advance
      returned rounds
    else if t.isName then assignment rounds
    else refuse .noStatement

/-- Statements up to a closing brace or the end of the stream, neither of which is read. -/
def statements (rounds : Nat) : Reader (List Node) :=
  match rounds with
  | 0 => return []
  | rounds + 1 => do
    match ← peek? with
    | none => return []
    | some t =>
      if t.isSymbol '\x7d' then return []
      let first ← statement rounds (statements rounds)
      let others ← statements rounds
      return first :: others

end ThreeAddress.Grammar

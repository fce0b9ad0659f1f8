import ThreeAddress.Ty

/-!
# Syntax errors

Why a token stream was refused, at which token, and the text of that token. The causes name what was
missing; their wording is in one place.
-/

namespace ThreeAddress

/-- The words that a condition follows. -/
inductive Guard where
  | ifWord
  | whileWord
  deriving DecidableEq, Repr

def Guard.keyword : Guard → String
  | .ifWord => "if"
  | .whileWord => "while"

/-- The braced bodies inside a function. -/
inductive Body where
  | ifBody
  | elseBody
  | loopBody
  deriving DecidableEq, Repr

def Body.name : Body → String
  | .ifBody => "if body"
  | .elseBody => "else body"
  | .loopBody => "loop body"

/-- Where something was missing, in terms of what was read. -/
inductive Place where
  | functionStart
  | functionName
  | afterFunctionName
  | parameterType
  | parameterName
  | afterParameters
  | beforeFunctionBody
  | afterFunctionBody
  | declarationStart
  | declaredName
  | afterDeclaredName
  | afterDeclaration
  | target
  | afterTarget
  | afterAssignment
  | afterReturnValue
  | beforeCondition (word : Guard)
  | afterCondition (word : Guard)
  | before (body : Body)
  | after (body : Body)
  | afterExpression
  deriving DecidableEq, Repr

def Place.phrase : Place → String
  | functionStart => "to start a function definition"
  | functionName => "for function name"
  | afterFunctionName => "after function name"
  | parameterType => "for parameter"
  | parameterName => "for parameter name"
  | afterParameters => "after parameters"
  | beforeFunctionBody => "before function body"
  | afterFunctionBody => "after function body"
  | declarationStart => "to start a declaration"
  | declaredName => "in declaration"
  | afterDeclaredName => "after declared name"
  | afterDeclaration => "after declaration"
  | target => "as assignment target"
  | afterTarget => "after assignment target"
  | afterAssignment => "after assignment"
  | afterReturnValue => "after return value"
  | beforeCondition word => "after '" ++ word.keyword ++ "'"
  | afterCondition word => "after " ++ word.keyword ++ " condition"
  | before body => "before " ++ body.name
  | after body => "after " ++ body.name
  | afterExpression => "after expression"

/-- What was wrong with a token. -/
inductive Cause where
  /-- A symbol was missing. -/
  | noSymbol (symbol : Char) (place : Place)
  /-- A name was missing. -/
  | noName (place : Place)
  /-- One of some types was missing. -/
  | noType (allowed : List Ty) (place : Place)
  | noStatement
  | noExpression
  /-- Neither a number nor a parenthesis in plain arithmetic. -/
  | noOperand
  /-- Tokens after the one function definition that was asked for. -/
  | afterFunction
  /-- Tokens after the one arithmetic expression that was asked for. -/
  | afterArithmetic
  | expressionTooDeep
  | statementsTooDeep
  deriving DecidableEq, Repr

def Cause.message : Cause → String
  | noSymbol symbol place => "Expected '" ++ String.singleton symbol ++ "' " ++ place.phrase
  | noName place => "Expected identifier " ++ place.phrase
  | noType allowed place =>
    "Expected " ++ " or ".intercalate (allowed.map Ty.name) ++ " " ++ place.phrase
  | noStatement => "Expected statement"
  | noExpression => "Expected expression"
  | noOperand => "Expected number or '('"
  | afterFunction => "Unexpected token after function body"
  | afterArithmetic => "Unexpected token after expression"
  | expressionTooDeep => "Expression nested too deeply"
  | statementsTooDeep => "Statements nested too deeply"

/-- A refusal: the index of the offending token, and its text unless the stream ended there. -/
structure SyntaxError where
  cause : Cause
  position : Nat
  found : Option String
  deriving DecidableEq, Repr

namespace SyntaxError

/-- A report of a refusal for a given reason. -/
def describe (reason : String) (position : Nat) (found : Option String) : String :=
  "Parse error at token " ++ toString position ++ ": " ++ reason ++ ", found " ++
    match found with
    | some text => "'" ++ text ++ "'"
    | none => "end of input"

def report (e : SyntaxError) : String :=
  describe e.cause.message e.position e.found

end SyntaxError

end ThreeAddress

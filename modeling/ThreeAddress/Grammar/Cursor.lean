import ThreeAddress.SyntaxError
import ThreeAddress.Token

/-!
# Reading tokens in order

A cursor stands in a token stream. A reader moves it and yields a value or an error; after an error
the cursor stays where the error was found. The cursor counts the open nesting levels, of which
there may be `maxNesting`; `nested` is the only step that changes the count, and it restores it.
-/

namespace ThreeAddress

/-- How many parentheses and braced bodies may be open at once, and how tall an expression may
be. -/
def maxNesting : Nat := 256

namespace Grammar

/-- A place in a token stream: how many tokens are behind it, how many nesting levels are open, and
the tokens ahead. -/
structure Cursor where
  position : Nat
  depth : Nat
  ahead : List Token
  deriving Repr

/-- The start of a stream. -/
def Cursor.start (tokens : List Token) : Cursor :=
  ⟨0, 0, tokens⟩

/-- One token further; at the end of the stream there is nowhere to go. -/
def Cursor.advance (c : Cursor) : Cursor :=
  match c.ahead with
  | [] => c
  | _ :: later => { c with position := c.position + 1, ahead := later }

/-- The error for a cause at this place. -/
def Cursor.refusal (c : Cursor) (cause : Cause) : SyntaxError :=
  ⟨cause, c.position, c.ahead.head?.map Token.text⟩

/-- Reads from the cursor's place on. -/
abbrev Reader := EStateM SyntaxError Cursor

/-- The next token, which stays unread. -/
def peek? : Reader (Option Token) :=
  fun c => .ok c.ahead.head? c

/-- Moves past the next token. -/
def advance : Reader Unit :=
  fun c => .ok () c.advance

def refuse {α : Type} (cause : Cause) : Reader α :=
  fun c => .error (c.refusal cause) c

/-- Reads the next token if it passes `test`, and says whether it did. -/
def accept (test : Token → Bool) : Reader Bool :=
  fun c =>
    match c.ahead with
    | t :: _ => if test t then .ok true c.advance else .ok false c
    | [] => .ok false c

/-- The next token must be the symbol. -/
def expectSymbol (symbol : Char) (place : Place) : Reader Unit := do
  if ← accept (·.isSymbol symbol) then return
  refuse (.noSymbol symbol place)

/-- The next token must be a name. -/
def expectName (place : Place) : Reader String := do
  match ← peek? with
  | some t =>
    if t.isName then
      advance
      return t.text
    else refuse (.noName place)
  | none => refuse (.noName place)

/-- The type among `allowed` that a token denotes. -/
def typeOf? (allowed : List Ty) (t : Token) : Option Ty :=
  if t.kind = .keyword then (Ty.ofKeyword? t.text).filter allowed.contains else none

/-- The next token must denote one of the types. -/
def expectType (allowed : List Ty) (place : Place) : Reader Ty := do
  match (← peek?).bind (typeOf? allowed) with
  | some ty =>
    advance
    return ty
  | none => refuse (.noType allowed place)

/-- Runs a reader one nesting level deeper; refused with `cause` when all levels are open. -/
def nested {α : Type} (cause : Cause) (reader : Reader α) : Reader α :=
  fun c =>
    if maxNesting ≤ c.depth then .error (c.refusal cause) c
    else match reader { c with depth := c.depth + 1 } with
      | .ok a c' => .ok a { c' with depth := c'.depth - 1 }
      | .error e c' => .error e { c' with depth := c'.depth - 1 }

/-- Runs a reader with one round more than there are tokens ahead. -/
def withRounds {α : Type} (reader : Nat → Reader α) : Reader α :=
  fun c => reader (c.ahead.length + 1) c

/-- What a reader makes of a stream from its start. -/
def readFrom {α : Type} (reader : Reader α) (tokens : List Token) : Except SyntaxError α :=
  match reader (Cursor.start tokens) with
  | .ok a _ => .ok a
  | .error e _ => .error e

end Grammar

end ThreeAddress

import ThreeAddress.Code.Lowering
import ThreeAddress.Grammar.Program
import ThreeAddress.Inventory.Analysis
import ThreeAddress.Token.Lexer

/-!
# Compilation of a source text

All products of one source text are kept: tokens, program, inventory and code. A syntax error leaves
the tokens only.
-/

namespace ThreeAddress

structure Compilation where
  tokens : List Token
  program : Program
  inventory : Inventory
  code : List Instruction

/-- The tokens are there whether or not they form a program. -/
structure Compilation.Failure where
  tokens : List Token
  error : SyntaxError

namespace Compilation

/-- The products of tokens. -/
def ofTokens (tokens : List Token) (o : Options) : Except Failure Compilation :=
  match Program.ofTokens tokens with
  | .ok program => .ok ⟨tokens, program, program.inventory, program.code o⟩
  | .error error => .error ⟨tokens, error⟩

/-- The products of a source text. -/
def ofSource (source : String) (o : Options) : Except Failure Compilation :=
  ofTokens (Token.tokenizeSource source) o

theorem ofSource_eq_ok_iff {source : String} {o : Options} {c : Compilation} :
    ofSource source o = .ok c ↔ ∃ program,
      Program.ofTokens (Token.tokenizeSource source) = .ok program ∧
      c = ⟨Token.tokenizeSource source, program, program.inventory, program.code o⟩ := by
  rw [ofSource, ofTokens]
  cases Program.ofTokens (Token.tokenizeSource source) with
  | ok program => simp [eq_comm]
  | error e => simp

theorem ofSource_eq_error_iff {source : String} {o : Options} {f : Failure} :
    ofSource source o = .error f ↔
      Program.ofTokens (Token.tokenizeSource source) = .error f.error ∧
      f.tokens = Token.tokenizeSource source := by
  obtain ⟨tokens, error⟩ := f
  rw [ofSource, ofTokens]
  cases Program.ofTokens (Token.tokenizeSource source) with
  | ok program => simp
  | error e => simp [and_comm, eq_comm]

/-- The same compilation with code for other options. -/
def regenerate (c : Compilation) (o : Options) : Compilation :=
  { c with code := c.program.code o }

end Compilation

end ThreeAddress

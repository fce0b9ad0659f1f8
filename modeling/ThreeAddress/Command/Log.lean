import ThreeAddress.Command.Arguments
import ThreeAddress.Text.Column
import ThreeAddress.Text.Plain

/-!
# Log records

A record has a level, the component that wrote it, and a message. It is written as one line,
`[LEVEL component] message`, as plain text without terminal controls.
-/

namespace ThreeAddress.Command

/-- The components that write log records. -/
inductive Component where
  | command
  | lexer
  | definitions
  | program
  | arithmetic
  | compilation
  | symbols
  | analysis
  | code
  deriving DecidableEq, Repr

def Component.name : Component → String
  | .command => "minic"
  | .lexer => "minic::parser::lexer"
  | .definitions => "minic::parser::declarations"
  | .program => "minic::parser::parse"
  | .arithmetic => "minic::parser::arith"
  | .compilation => "minic::pipeline"
  | .symbols => "minic::semantic::symbols"
  | .analysis => "minic::semantic::analyzer"
  | .code => "minic::tac::generator"

structure Record where
  level : Level
  component : Component
  message : String
  deriving DecidableEq, Repr

namespace Record

def line (r : Record) : String :=
  Text.plain
    ("[" ++ Text.alignLeft 5 r.level.name ++ " " ++ r.component.name ++ "] " ++ r.message ++ "\n")

/-- The lines of the records up to a level. -/
def lines (upTo : Level) (records : List Record) : String :=
  String.join ((records.filter fun r => r.level.rank ≤ upTo.rank).map line)

end Record

end ThreeAddress.Command

import ThreeAddress.Command.Run
import ThreeAddress.Inspector.Session

/-!
# The command

Reads the arguments and the file, does what the plan of the command says, and logs to the error
channel. The inspector takes one key name a line from the standard input and prints the screen after
each.
-/

namespace ThreeAddress

open Command

def usage : String :=
  "Usage: minic [OPTIONS] <FILE>\n\n" ++
    "  -o, --output <FILE>  Output file (defaults to stdout)\n" ++
    "      --emit <EMIT>    tokens, ast, symbols, tac or all [default: all]\n" ++
    "      --compat         Legacy branch layout and literal-only operand lowering\n" ++
    "      --expr           Only check the arithmetic expression grammar\n" ++
    "      --tui            Open the interactive inspector\n" ++
    "  -v, --verbose...     Verbose output (-v, -vv, -vvv)\n" ++
    "  -q, --quiet          Quiet mode (errors only)\n" ++
    "  -h, --help           Print help\n" ++
    "  -V, --version        Print version\n"

/-- What a refusal tells the user. -/
def Command.Refusal.message : Refusal → String
  | .help => usage
  | .version => versionText ++ "\n"
  | .conflict => "error: an option is repeated or excluded by another one\n"
  | .unknown => "error: unexpected argument\n"
  | .badValue => "error: a value is missing or invalid\n"
  | .surplusValue => "error: a switch takes no value\n"
  | .noFile => "error: no file was given\n"

/-- The reason of a failed file operation, with its error number, which may come negated. -/
def reasonOf (e : IO.Error) : String :=
  let numbered (text : String) (code : UInt32) :=
    text ++ " (os error " ++ toString (min code (0 - code)) ++ ")"
  match e with
  | .noFileOrDirectory _ code _ => numbered "No such file or directory" code
  | .permissionDenied _ code _ => numbered "Permission denied" code
  | .inappropriateType _ code _ => numbered "Is a directory" code
  | e => toString e

def lookUp (path : String) : IO Found := do
  try return .ok (← IO.FS.readBinFile path)
  catch e => return .error (reasonOf e)

def showScreen (p : Inspector.Picture) : IO Unit :=
  p.forM fun row => IO.println (Inspector.Row.text row)

def screen : Inspector.Size := ⟨80, 24⟩

partial def inspect (input : IO.FS.Stream) (s : Inspector.Session) (d : Inspector.Display) :
    IO Unit := do
  let (drawn, display) := s.drawOn screen d
  showScreen display.shown
  if drawn.quit then return
  let line ← input.getLine
  if line.isEmpty then return
  match Inspector.Key.ofWord? (line.dropEndWhile Char.isWhitespace).toString with
  | some key => inspect input (drawn.press key) display
  | none => inspect input drawn display

/-- Does what remains of a command; the answer is the reason why a file could not be written. -/
def perform : Action → IO (Option String)
  | .fail => return none
  | .print text => do
    IO.print text
    return none
  | .write path text => do
    try
      IO.FS.writeFile path text
      return none
    catch e => return some (reasonOf e)
  | .inspect source o => do
    inspect (← IO.getStdin) (.start source o) (.blank screen)
    return none

def runCommand (args : List String) : IO UInt32 := do
  match Arguments.ofList args with
  | .error r =>
    match r with
    | .help | .version =>
      IO.print r.message
      return 0
    | _ =>
      IO.eprint r.message
      return 2
  | .ok a =>
    let plan := plan a (← lookUp a.input)
    let refusal ← perform plan.action
    let outcome := plan.finish fun _ => refusal
    IO.eprint (outcome.logged a)
    return outcome.exitCode.toUInt32

end ThreeAddress

def main (args : List String) : IO UInt32 :=
  ThreeAddress.runCommand args

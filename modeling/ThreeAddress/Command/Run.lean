import ThreeAddress.Command.Journal
import ThreeAddress.Report
import ThreeAddress.Text.Quoted

/-!
# What a command does

A command reads one file, and either fails or has one text for one destination: a file or the
standard output. Nothing is written before the whole text is known. The reading and the writing
themselves happen outside; their outcomes are given to `plan` and `Plan.finish`.
-/

namespace ThreeAddress.Command

/-- What was found at a path: bytes, or the reason why it could not be read. -/
abbrev Found := Except String ByteArray

/-- A file's bytes as text. -/
def Found.decode (found : Found) : Except String String :=
  match found with
  | .error reason => .error reason
  | .ok bytes =>
    match String.fromUTF8? bytes with
    | some text => .ok text
    | none => .error "stream did not contain valid UTF-8"

/-- The program's name and version. -/
def versionText : String := "minic 0.1.0"

/-- What remains to be done after a command has been worked out. -/
inductive Action where
  | fail
  | print (text : String)
  | write (path text : String)
  /-- Show the inspector. -/
  | inspect (source : String) (o : Options)
  deriving DecidableEq, Repr

/-- A worked-out command: what was logged on the way, and what remains to be done. -/
structure Plan where
  log : List Record
  action : Action
  deriving DecidableEq, Repr

def Arguments.options (a : Arguments) : Options :=
  if a.compatible then .compatible else {}

def describeOptions (o : Options) : String :=
  let polarity := match o.polarity with
    | .jumpIfFalse => "JumpIfFalse"
    | .jumpIfTrue => "Compatible"
  let resolution := match o.resolution with
    | .recursive => "Recursive"
    | .literalOnly => "LiteralOnly"
  "TacOptions \x7b polarity: " ++ polarity ++ ", lowering: " ++ resolution ++ " \x7d"

/-- The reports asked for, in the order of the stages. Only when all are asked for do they have
titles. -/
def reports (c : Compilation) (e : Emission) : String :=
  let part (which : Emission) (title body : String) : List String :=
    if !e.includes which then []
    else if e = .everything then ["== " ++ title ++ " ==\n" ++ body]
    else [body]
  "\n".intercalate
    (part .tokens "Tokens" (Report.tokens c.tokens) ++
      part .tree "AST" (Report.tree c.program) ++
      part .tables "Symbols" (Report.inventory c.inventory) ++
      part .code "TAC" (Report.code c.code))

/-- The text goes to one place. -/
def deliver (a : Arguments) (text : String) : Action :=
  match a.output with
  | some path => .write path text
  | none => .print text

/-- Checks plain arithmetic. -/
def planArithmetic (a : Arguments) (source : String) : Plan :=
  let tokens := Token.tokenizeSource source
  let result := Grammar.checkArithmetic tokens
  let log := Journal.tokenized tokens :: Journal.checked result
  match result with
  | .error e => ⟨log ++ [⟨.error, .command, "Expression rejected: " ++ e.report⟩], .fail⟩
  | .ok _ =>
    ⟨log ++ [⟨.info, .command, "Expression accepted (" ++ toString tokens.length ++ " tokens)"⟩],
      deliver a "accepted\n"⟩

/-- Compiles a program. -/
def planCompilation (a : Arguments) (source : String) : Plan :=
  let tokens := Token.tokenizeSource source
  let outcome := Compilation.ofTokens tokens a.options
  let log :=
    ⟨.info, .command, "Compiling " ++ Text.quoted a.input ++ "..."⟩ ::
      Journal.compiled tokens a.options outcome
  match outcome with
  | .error failure =>
    ⟨log ++ [⟨.error, .command,
      "Failed to compile " ++ Text.quoted a.input ++ ": " ++ failure.error.report⟩], .fail⟩
  | .ok c => ⟨log, deliver a (reports c a.emission)⟩

/-- A command for what was found at its input path. -/
def plan (a : Arguments) (found : Found) : Plan :=
  let opened : Record := ⟨.debug, .command, "Input file: " ++ Text.quoted a.input⟩
  match found.decode with
  | .error reason =>
    ⟨[opened, ⟨.error, .command,
      "Failed to read input file: " ++ Text.quoted a.input ++ ": " ++ reason⟩], .fail⟩
  | .ok source =>
    let chosen : Record := ⟨.debug, .command, "TAC options: " ++ describeOptions a.options⟩
    let rest :=
      if a.arithmetic then planArithmetic a source
      else if a.inspect then ⟨[], .inspect source a.options⟩
      else planCompilation a source
    { rest with log := opened :: chosen :: rest.log }

/-- What is left of a command: its exit code, what it printed, what it wrote and what it logged. -/
structure Outcome where
  exitCode : Nat
  printed : String := ""
  written : Option (String × String) := none
  log : List Record
  deriving DecidableEq, Repr

/-- The outcome of a plan; `refusal` says of a path why it cannot be written. -/
def Plan.finish (p : Plan) (refusal : String → Option String) : Outcome :=
  match p.action with
  | .fail => { exitCode := 1, log := p.log }
  | .print text => { exitCode := 0, printed := text, log := p.log }
  | .inspect _ _ => { exitCode := 0, log := p.log }
  | .write path text =>
    match refusal path with
    | none => { exitCode := 0, written := some (path, text), log := p.log }
    | some reason =>
      { exitCode := 1
        log := p.log ++ [⟨.error, .command,
          "Failed to write output file: " ++ Text.quoted path ++ ": " ++ reason⟩] }

/-- What a command logs on its error channel. -/
def Outcome.logged (o : Outcome) (a : Arguments) : String :=
  Record.lines a.logLevel o.log

end ThreeAddress.Command

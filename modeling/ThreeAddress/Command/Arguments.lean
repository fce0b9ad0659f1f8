/-!
# Command-line arguments

Arguments are read from left to right. `-` and what does not start with a dash is the file; what
follows `--` is never an option. A value may be attached to its option (`--output=x`, `-ox`, `-o=x`)
or be the next argument. Short switches may be written together (`-vq`), the last of them with a
value.

The value of an option or of the file is looked at only when the next option or file is met, or at
the end; so an argument that fits nowhere is reported before a bad value that stands in front of it.
-/

namespace ThreeAddress.Command

/-- What is written out. -/
inductive Emission where
  | tokens
  | tree
  | tables
  | code
  | everything
  deriving DecidableEq, Repr, Inhabited

namespace Emission

def ofWord? (word : String) : Option Emission :=
  if word = "tokens" then some tokens
  else if word = "ast" then some tree
  else if word = "symbols" then some tables
  else if word = "tac" then some code
  else if word = "all" then some everything
  else none

/-- Is `part` written out too? -/
def includes (e part : Emission) : Bool :=
  e = everything || e = part

end Emission

/-- How much is logged: a level includes those before it. -/
inductive Level where
  | error
  | warn
  | info
  | debug
  | trace
  deriving DecidableEq, Repr, Inhabited

def Level.rank : Level → Nat
  | .error => 0
  | .warn => 1
  | .info => 2
  | .debug => 3
  | .trace => 4

def Level.name : Level → String
  | .error => "ERROR"
  | .warn => "WARN"
  | .info => "INFO"
  | .debug => "DEBUG"
  | .trace => "TRACE"

structure Arguments where
  input : String
  output : Option String := none
  emission : Emission := .everything
  compatible : Bool := false
  arithmetic : Bool := false
  inspect : Bool := false
  verbosity : Nat := 0
  quiet : Bool := false
  deriving DecidableEq, Repr

/-- Quiet wins over every degree of verbosity. -/
def Arguments.logLevel (a : Arguments) : Level :=
  if a.quiet then .error
  else match a.verbosity with
    | 0 => .warn
    | 1 => .info
    | 2 => .debug
    | _ => .trace

/-- Why arguments ask for nothing to be run. -/
inductive Refusal where
  | help
  | version
  /-- An option given twice, or two options that exclude each other. -/
  | conflict
  | unknown
  | badValue
  /-- A value for a switch. -/
  | surplusValue
  | noFile
  deriving DecidableEq, Repr

/-- What takes a value. -/
inductive Slot where
  | file
  | output
  | emission
  deriving DecidableEq, Repr

/-- What takes none. -/
inductive Switch where
  | compatible
  | arithmetic
  | inspect
  | quiet
  | verbose
  | help
  | version
  deriving DecidableEq, Repr

/-- An option by either of its names. -/
inductive Flag where
  | slot (s : Slot)
  | switch (s : Switch)
  deriving DecidableEq, Repr

def Flag.ofLong? (name : String) : Option Flag :=
  if name = "output" then some (.slot .output)
  else if name = "emit" then some (.slot .emission)
  else if name = "compat" then some (.switch .compatible)
  else if name = "expr" then some (.switch .arithmetic)
  else if name = "tui" then some (.switch .inspect)
  else if name = "verbose" then some (.switch .verbose)
  else if name = "quiet" then some (.switch .quiet)
  else if name = "help" then some (.switch .help)
  else if name = "version" then some (.switch .version)
  else none

def Flag.ofShort? (c : Char) : Option Flag :=
  if c = 'o' then some (.slot .output)
  else if c = 'v' then some (.switch .verbose)
  else if c = 'q' then some (.switch .quiet)
  else if c = 'h' then some (.switch .help)
  else if c = 'V' then some (.switch .version)
  else none

/-- A value, or its absence, that was met but not yet looked at. -/
structure Pending where
  slot : Slot
  value : Option String
  deriving DecidableEq, Repr

/-- The arguments read so far. -/
structure Draft where
  input : Option String := none
  output : Option String := none
  emission : Option Emission := none
  compatible : Bool := false
  arithmetic : Bool := false
  inspect : Bool := false
  verbosity : Nat := 0
  quiet : Bool := false
  pending : Option Pending := none
  deriving DecidableEq, Repr

namespace Draft

abbrev Result := Except Refusal Draft

/-- Verbosity is counted up to here. -/
def maxVerbosity : Nat := 255

/-- Looks at a value. One that is missing is bad; a slot takes one value only; file names are not
empty and emissions are among the known words. -/
def store (d : Draft) (slot : Slot) (value : Option String) : Result :=
  match value with
  | none => .error .badValue
  | some v =>
    match slot with
    | .file => if v = "" then .error .badValue else .ok { d with input := some v }
    | .output =>
      if d.output.isSome then .error .conflict
      else if v = "" then .error .badValue
      else .ok { d with output := some v }
    | .emission =>
      if d.emission.isSome then .error .conflict
      else match Emission.ofWord? v with
        | some e => .ok { d with emission := some e }
        | none => .error .badValue

/-- Looks at the pending value. -/
def settle (d : Draft) : Result :=
  match d.pending with
  | none => .ok d
  | some p => { d with pending := none }.store p.slot p.value

/-- Sets a switch. Only the verbosity may be set again. -/
def turnOn (d : Draft) (s : Switch) : Result := do
  let d ← d.settle
  match s with
  | .compatible => if d.compatible then .error .conflict else .ok { d with compatible := true }
  | .arithmetic => if d.arithmetic then .error .conflict else .ok { d with arithmetic := true }
  | .inspect => if d.inspect then .error .conflict else .ok { d with inspect := true }
  | .quiet => if d.quiet then .error .conflict else .ok { d with quiet := true }
  | .verbose => .ok { d with verbosity := min (d.verbosity + 1) maxVerbosity }
  | .help => .error .help
  | .version => .error .version

/-- An option with a value attached to it. -/
def attach (d : Draft) (slot : Slot) (value : String) : Result := do
  (← d.settle).store slot (some value)

/-- A file, or an option whose value may come with the next argument. -/
def expect (d : Draft) (slot : Slot) (value : Option String) : Result := do
  return { ← d.settle with pending := some ⟨slot, value⟩ }

def hasFile (d : Draft) : Bool :=
  d.input.isSome || match d.pending with
    | some ⟨.file, _⟩ => true
    | _ => false

/-- An argument that is no option. There is one file. -/
def operand (d : Draft) (arg : String) : Result :=
  if d.hasFile then .error .unknown else d.expect .file (some arg)

/-- An argument `--name` or `--name=value`. -/
def long (d : Draft) (name : List Char) : Result :=
  let value := (name.dropWhile (· ≠ '=')).tail?.map String.ofList
  match Flag.ofLong? (String.ofList (name.takeWhile (· ≠ '='))), value with
  | none, _ => .error .unknown
  | some (.slot s), some v => d.attach s v
  | some (.slot s), none => d.expect s none
  | some (.switch _), some _ => .error .surplusValue
  | some (.switch s), none => d.turnOn s

/-- Short options written together. One that takes a value takes the rest, less one equals sign in
front of it. -/
def short (d : Draft) : List Char → Result
  | [] => .ok d
  | c :: rest =>
    match Flag.ofShort? c with
    | none => .error .unknown
    | some (.switch s) =>
      match d.turnOn s with
      | .ok d' => d'.short rest
      | .error r => .error r
    | some (.slot s) =>
      match rest with
      | [] => d.expect s none
      | '=' :: value => d.attach s (String.ofList value)
      | value => d.attach s (String.ofList value)

/-- Reads arguments up to `--` or the end, and after `--` only operands. -/
def scan (d : Draft) (optionsEnded : Bool) : List String → Result
  | [] => .ok d
  | arg :: rest =>
    let step : Result :=
      if optionsEnded then d.operand arg
      else match arg.toList with
        | '-' :: '-' :: [] => .ok d
        | '-' :: '-' :: name => d.long name
        | '-' :: c :: cs => d.short (c :: cs)
        | _ =>
          match d.pending with
          | some ⟨slot, none⟩ => .ok { d with pending := some ⟨slot, some arg⟩ }
          | _ => d.operand arg
    match step with
    | .ok d' => d'.scan (optionsEnded || arg = "--") rest
    | .error r => .error r

end Draft

/-- The meaning of an argument list. -/
def Arguments.ofList (args : List String) : Except Refusal Arguments := do
  let d ← Draft.scan {} false args
  let d ← d.settle
  if d.arithmetic && d.inspect then throw .conflict
  match d.input with
  | none => throw .noFile
  | some input =>
    return { input
             output := d.output
             emission := d.emission.getD .everything
             compatible := d.compatible
             arithmetic := d.arithmetic
             inspect := d.inspect
             verbosity := d.verbosity
             quiet := d.quiet }

end ThreeAddress.Command

/-!
# Text without terminal controls

A message that quotes arbitrary text must not drive the terminal it is shown on. `plain` keeps what
is displayed and drops escape sequences and single control characters; of the latter only the tab
and the line ends stay.

An escape sequence starts with the escape character. `[` opens a control sequence, which lasts up to
a final character from `@` to `~`; `]` opens a command string, which a bell ends; `P`, `X`, `^` and
`_` open a string that only another escape ends; any other final character ends the sequence at
once. The two cancel characters end each of them.
-/

namespace ThreeAddress.Text

/-- Where the scan stands with respect to an escape sequence. -/
inductive ControlState where
  | text
  | escape
  | intermediate
  | sequence
  | command
  | string
  deriving DecidableEq, Repr

namespace ControlState

/-- The state that the character after an escape (not an intermediate one) leads to. -/
def afterFinal (c : Char) : ControlState :=
  if c = '[' then sequence
  else if c = ']' then command
  else if c = 'P' || c = 'X' || c = '^' || c = '_' then string
  else text

/-- One character: the state after it. -/
def next (state : ControlState) (c : Char) : ControlState :=
  let n := c.toNat
  if n = 0x1B then escape
  else if n = 0x18 || n = 0x1A then text
  else match state with
    | text => text
    | escape =>
      if 0x20 ≤ n && n ≤ 0x2F then intermediate
      else if 0x30 ≤ n && n ≤ 0x7E then afterFinal c
      else escape
    | intermediate => if 0x30 ≤ n && n ≤ 0x7E then text else intermediate
    | sequence => if 0x40 ≤ n && n ≤ 0x7E then text else sequence
    | command => if n = 0x07 then text else command
    | string => string

/-- Is the character displayed when it is met in this state? Tabs and line ends also are inside a
sequence, though not inside a string. -/
def shows (state : ControlState) (c : Char) : Bool :=
  let n := c.toNat
  let isLayout := n = 0x09 || n = 0x0A || n = 0x0C || n = 0x0D
  match state with
  | text => isLayout || (0x20 ≤ n && n ≠ 0x7F)
  | escape | intermediate | sequence => isLayout
  | command | string => false

end ControlState

/-- The displayed characters of a text that is met in `state`. -/
def plainFrom (state : ControlState) : List Char → List Char
  | [] => []
  | c :: cs =>
    if state.shows c then c :: plainFrom (state.next c) cs else plainFrom (state.next c) cs

/-- The displayed characters of a text. -/
def plain (text : String) : String :=
  String.ofList (plainFrom .text text.toList)

end ThreeAddress.Text

import ThreeAddress.Proofs.Code.Machine

/-!
# The meaning of trees

`Node.value` is the value of an expression in a store, and `Executes` the evaluation of a statement
to its outcome. A loop goes on while the truth of its condition is `on`: that is `true` for a loop as
it is written, and `false` for the older layout, which leaves a loop when its condition is true.

Lowering keeps the meaning of trees as a source spells them (`Plain`, `PlainStatement`): a number is
a numeral, a quoted text is quoted, and a name is neither, nor does it look like a temporary.
-/

namespace ThreeAddress

variable {V : Type*}

namespace Node

/-- The value of an expression. A statement has none. -/
def value (m : Domain V) (s : Store V) : Node → Option V
  | .literal .int text => some (m.number text)
  | .literal .string text => some (m.text text)
  | .var x => some (s x)
  | .binary op left right => do
    let a ← left.value m s
    let b ← right.value m s
    return m.binary op a b
  | .negate operand => do
    let a ← operand.value m s
    return m.negate a
  | .literal .. | .function .. | .assign .. | .exit _ | .branch .. | .loop .. => none

mutual

/-- The parameters, the assigned names and the variables of a tree. -/
def names : Node → List String
  | .function _ _ params body => params.map Param.name ++ namesAll body
  | .assign target value => target :: value.names
  | .exit value => value.names
  | .branch condition thenBody elseBody =>
    condition.names ++ (namesAll thenBody ++ namesAll elseBody)
  | .loop condition body => condition.names ++ namesAll body
  | .binary _ left right => left.names ++ right.names
  | .negate operand => operand.names
  | .literal .. => []
  | .var name => [name]

def namesAll : List Node → List String
  | [] => []
  | node :: rest => node.names ++ namesAll rest

end

end Node

mutual

/-- The evaluation of a statement. -/
inductive Executes (m : Domain V) (on : Bool) : Node → Store V → Outcome V → Prop
  | assign {x : String} {e : Node} {s : Store V} {v : V} (he : e.value m s = some v) :
      Executes m on (.assign x e) s (.ended (s.set x v))
  | exit {e : Node} {s : Store V} {v : V} (he : e.value m s = some v) :
      Executes m on (.exit e) s (.returned v)
  | branch {c : Node} {t e : List Node} {s : Store V} {v : V} {o : Outcome V}
      (hc : c.value m s = some v) (h : ExecutesAll m on (if m.truth v then t else e) s o) :
      Executes m on (.branch c t e) s o
  | leave {c : Node} {body : List Node} {s : Store V} {v : V} (hc : c.value m s = some v)
      (hv : m.truth v ≠ on) : Executes m on (.loop c body) s (.ended s)
  | stop {c : Node} {body : List Node} {s : Store V} {v w : V} (hc : c.value m s = some v)
      (hv : m.truth v = on) (h : ExecutesAll m on body s (.returned w)) :
      Executes m on (.loop c body) s (.returned w)
  | again {c : Node} {body : List Node} {s s' : Store V} {v : V} {o : Outcome V}
      (hc : c.value m s = some v) (hv : m.truth v = on)
      (h : ExecutesAll m on body s (.ended s')) (h' : Executes m on (.loop c body) s' o) :
      Executes m on (.loop c body) s o

/-- The evaluation of statements in order. -/
inductive ExecutesAll (m : Domain V) (on : Bool) : List Node → Store V → Outcome V → Prop
  | nil {s : Store V} : ExecutesAll m on [] s (.ended s)
  | stop {node : Node} {rest : List Node} {s : Store V} {v : V}
      (h : Executes m on node s (.returned v)) : ExecutesAll m on (node :: rest) s (.returned v)
  | cons {node : Node} {rest : List Node} {s s' : Store V} {o : Outcome V}
      (h : Executes m on node s (.ended s')) (h' : ExecutesAll m on rest s' o) :
      ExecutesAll m on (node :: rest) s o

end

/-! ## Names -/

/-- A `t` with decimal digits after it and nothing else. -/
def LooksTemporary (x : String) : Prop :=
  ∃ ds : List Char, ds ≠ [] ∧ (∀ c ∈ ds, c.isDigit = true) ∧ x.toList = 't' :: ds

theorem looksTemporary_temporaryName (n : Nat) : LooksTemporary (temporaryName n) := by
  refine ⟨Nat.toDigits 10 n, Nat.toDigits_ne_nil, fun c hc => ?_, by simp [temporaryName]⟩
  exact Nat.isDigit_of_mem_toDigits (by decide) (by decide) hc

theorem isNumeral_temporaryName (n : Nat) : Token.isNumeral (temporaryName n) = false := by
  simp [Token.isNumeral, temporaryName]

theorem isQuotedText_temporaryName (n : Nat) : Token.isQuotedText (temporaryName n) = false := by
  simp [Token.isQuotedText, temporaryName]

/-- An expression as a source spells it. -/
inductive Plain : Node → Prop
  | number {text : String} (h : Token.isNumeral text = true) : Plain (.literal .int text)
  | quoted {text : String} (h : Token.isNumeral text = false) (hq : Token.isQuotedText text = true) :
      Plain (.literal .string text)
  | name {x : String} (h : Token.isNumeral x = false) (hq : Token.isQuotedText x = false)
      (hx : ¬LooksTemporary x) : Plain (.var x)
  | binary {op : Operator} {left right : Node} (hl : Plain left) (hr : Plain right) :
      Plain (.binary op left right)
  | negate {operand : Node} (h : Plain operand) : Plain (.negate operand)

/-- A number or a quoted text is no temporary. -/
theorem Plain.not_looksTemporary {ty : Ty} {text : String} (h : Plain (.literal ty text)) :
    ¬LooksTemporary text := by
  rintro ⟨ds, -, -, hx⟩
  cases h with
  | number h => simp [Token.isNumeral, hx] at h
  | quoted _ hq => simp [Token.isQuotedText, hx] at hq

/-- A statement as a source spells it. -/
inductive PlainStatement : Node → Prop
  | assign {x : String} {e : Node} (he : Plain e) : PlainStatement (.assign x e)
  | exit {e : Node} (he : Plain e) : PlainStatement (.exit e)
  | branch {c : Node} {t e : List Node} (hc : Plain c) (ht : ∀ n ∈ t, PlainStatement n)
      (he : ∀ n ∈ e, PlainStatement n) : PlainStatement (.branch c t e)
  | loop {c : Node} {body : List Node} (hc : Plain c) (hb : ∀ n ∈ body, PlainStatement n) :
      PlainStatement (.loop c body)

/-! ## Stores that agree on the names of a tree -/

theorem Plain.value_congr {m : Domain V} {s u : Store V} {e : Node} (he : Plain e)
    (h : ∀ x, ¬LooksTemporary x → s x = u x) : e.value m s = e.value m u := by
  induction he with
  | number | quoted => rfl
  | name _ _ hx =>
    rw [Node.value, h _ hx]
    rfl
  | binary _ _ ihl ihr => rw [Node.value, ihl, ihr, ← Node.value]
  | negate _ ih => rw [Node.value, ih, ← Node.value]

end ThreeAddress

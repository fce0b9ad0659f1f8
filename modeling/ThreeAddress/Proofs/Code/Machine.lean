import Mathlib.Data.List.Nodup
import ThreeAddress.Proofs.Code.Labels
import ThreeAddress.Token

/-!
# A machine for three-address code

What the instructions mean, in any domain of values. A label does nothing, a jump goes on at the
label of its name, `return` stops with a value, and a run past the last instruction ends with the
store. A run is lost at a jump without a label and at an operation that there is not.

`Steps m code n c c'` says that `n` steps lead from `c` to `c'`; since a step is a function, a run
that halts passes every place that steps lead to (`Steps.run_eq_some`), and it halts in one way only
(`Halts.unique`).
-/

namespace ThreeAddress

/-- A domain of values: the meaning of literals, operators and truth. -/
structure Domain (V : Type*) where
  number : String → V
  text : String → V
  binary : Operator → V → V → V
  negate : V → V
  truth : V → Bool

/-- The values of all names. -/
abbrev Store (V : Type*) := String → V

/-- How a run ends. -/
inductive Outcome (V : Type*) where
  | returned (v : V)
  | ended (s : Store V)

/-- How the machine stops. -/
inductive Halt (V : Type*) where
  | finished (o : Outcome V)
  | lost

/-- The instruction to come, and the store. -/
structure Config (V : Type*) where
  place : Nat
  store : Store V

/-- What a step leads to. -/
inductive Next (V : Type*) where
  | go (c : Config V)
  | halt (h : Halt V)

variable {V : Type*}

/-- The value of an operand: a numeral and a quoted text stand for themselves. -/
def Domain.read (m : Domain V) (s : Store V) (operand : String) : V :=
  if Token.isNumeral operand then m.number operand
  else if Token.isQuotedText operand then m.text operand
  else s operand

/-- The store with a new value for one name. -/
def Store.set (s : Store V) (x : String) (v : V) : Store V :=
  fun y => if y = x then v else s y

/-- The truth of a condition at which a jump is not taken. -/
def Polarity.stays : Polarity → Bool
  | .jumpIfFalse => true
  | .jumpIfTrue => false

namespace Code

/-- The place of the label `name`. -/
def find? (code : List Instruction) (name : String) : Option Nat :=
  code.findIdx? fun i => i.labelName? = some name

/-- Goes on at the label `name`. -/
def jumpTo (code : List Instruction) (name : String) (s : Store V) : Next V :=
  match find? code name with
  | some place => .go ⟨place, s⟩
  | none => .halt .lost

/-- One step of the machine. -/
def step (m : Domain V) (code : List Instruction) (c : Config V) : Next V :=
  match code[c.place]? with
  | none => .halt (.finished (.ended c.store))
  | some i =>
    let a := m.read c.store i.arg1
    let onward (s : Store V) : Next V := .go ⟨c.place + 1, s⟩
    if i.isLabel then onward c.store
    else if i.op = "goto" then jumpTo code i.result c.store
    else if i.op = "ifFalse" then
      if m.truth a then onward c.store else jumpTo code i.result c.store
    else if i.op = "if" then
      if m.truth a then jumpTo code i.result c.store else onward c.store
    else if i.op = "=" then onward (c.store.set i.result a)
    else if i.op = "return" then .halt (.finished (.returned a))
    else if i.op = "minus" then onward (c.store.set i.result (m.negate a))
    else match Operator.ofSymbol? i.op with
      | some op => onward (c.store.set i.result (m.binary op a (m.read c.store i.arg2)))
      | none => .halt .lost

/-- How the machine stops within `n` steps. -/
def run (m : Domain V) (code : List Instruction) : Nat → Config V → Option (Halt V)
  | 0, _ => none
  | n + 1, c =>
    match step m code c with
    | .go c' => run m code n c'
    | .halt h => some h

/-- The run from a configuration stops. -/
def Halts (m : Domain V) (code : List Instruction) (c : Config V) (h : Halt V) : Prop :=
  ∃ n, run m code n c = some h

/-- So many steps lead from one configuration to another. -/
inductive Steps (m : Domain V) (code : List Instruction) : Nat → Config V → Config V → Prop
  | refl (c : Config V) : Steps m code 0 c c
  | head {n : Nat} {c d e : Config V} (h : step m code c = .go d) (hs : Steps m code n d e) :
      Steps m code (n + 1) c e

section
variable {m : Domain V} {code : List Instruction} {c d e : Config V} {n k : Nat}

theorem Steps.one (h : step m code c = .go d) : Steps m code 1 c d := .head h (.refl d)

theorem Steps.trans (h : Steps m code n c d) (h' : Steps m code k d e) :
    Steps m code (n + k) c e := by
  induction h with
  | refl => rwa [Nat.zero_add]
  | head hs _ ih =>
    rw [Nat.add_right_comm]
    exact .head hs (ih h')

/-- A run that stops passes every configuration that steps lead to. -/
theorem Steps.run_eq_some {h : Halt V} (hs : Steps m code n c d) (hr : run m code k c = some h) :
    ∃ j, k = n + j ∧ run m code j d = some h := by
  induction hs generalizing k with
  | refl => exact ⟨k, (Nat.zero_add k).symm, hr⟩
  | head hstep _ ih =>
    cases k with
    | zero => cases hr
    | succ k =>
      rw [run, hstep] at hr
      obtain ⟨j, rfl, hj⟩ := ih hr
      exact ⟨j, Nat.add_right_comm .., hj⟩

theorem Steps.halts {h : Halt V} (hs : Steps m code n c d) (hd : Halts m code d h) :
    Halts m code c h := by
  induction hs with
  | refl => exact hd
  | head hstep _ ih =>
    obtain ⟨k, hk⟩ := ih hd
    refine ⟨k + 1, ?_⟩
    rw [run, hstep]
    exact hk

theorem Halts.of_step {h : Halt V} (hs : step m code c = .halt h) : Halts m code c h := by
  refine ⟨1, ?_⟩
  rw [run, hs]

theorem run_le {h : Halt V} (hr : run m code n c = some h) (hk : n ≤ k) :
    run m code k c = some h := by
  induction n generalizing k c with
  | zero => cases hr
  | succ n ih =>
    obtain ⟨k, rfl⟩ : ∃ k', k = k' + 1 := ⟨k - 1, by omega⟩
    rw [run] at hr ⊢
    cases hs : step m code c with
    | go d =>
      rw [hs] at hr
      exact ih hr (Nat.le_of_succ_le_succ hk)
    | halt d =>
      rw [hs] at hr
      exact hr

theorem Halts.unique {h h' : Halt V} (hc : Halts m code c h) (hc' : Halts m code c h') :
    h = h' := by
  obtain ⟨n, hn⟩ := hc
  obtain ⟨k, hk⟩ := hc'
  have hn' := run_le hn (Nat.le_max_left n k)
  rw [run_le hk (Nat.le_max_right n k)] at hn'
  exact (Option.some.inj hn').symm

end

/-! ## The step of each instruction -/

/-- A label that is marked once is found where it is. -/
theorem find?_of_labelAt {code : List Instruction} {i : Nat} {x : String}
    (hn : (labels code).Nodup) (h : LabelAt code i x) : find? code x = some i := by
  have hu := existsUnique_at_of_count (List.count_eq_one_of_mem hn (at_iff_mem.1 ⟨i, h⟩))
  obtain ⟨ins, hi, hx⟩ := h
  obtain ⟨hlt, rfl⟩ := List.getElem?_eq_some_iff.1 hi
  refine List.findIdx?_eq_some_iff_getElem.2 ⟨hlt, by simpa using hx, fun j hj hxj => ?_⟩
  have hlj : LabelAt code j x :=
    ⟨_, List.getElem?_eq_getElem (Nat.lt_trans hj hlt), by simpa using hxj⟩
  exact absurd (hu.unique hlj ⟨_, hi, hx⟩) (Nat.ne_of_lt hj)

section
variable (m : Domain V) {code : List Instruction} {a b : Nat} {u : Store V} {x y z : String}

theorem step_past (h : code[a]? = none) :
    step m code ⟨a, u⟩ = .halt (.finished (.ended u)) := by
  simp only [step, h]

theorem step_label (h : code[a]? = some (.label x)) : step m code ⟨a, u⟩ = .go ⟨a + 1, u⟩ := by
  simp only [step, h, Instruction.isLabel_label, if_true]

theorem step_goto (h : code[a]? = some (.goto x)) (hx : find? code x = some b) :
    step m code ⟨a, u⟩ = .go ⟨b, u⟩ := by
  have hl : (Instruction.goto x).isLabel = false := by simp [Instruction.isLabel, Instruction.goto]
  simp only [step, h, hl]
  simp [Instruction.goto, jumpTo, hx]

theorem step_assign (h : code[a]? = some (.assign y x)) :
    step m code ⟨a, u⟩ = .go ⟨a + 1, u.set x (m.read u y)⟩ := by
  have hl : (Instruction.assign y x).isLabel = false := by
    simp [Instruction.isLabel, Instruction.assign]
  simp only [step, h, hl]
  simp [Instruction.assign]

theorem step_exit (h : code[a]? = some (.exit y)) :
    step m code ⟨a, u⟩ = .halt (.finished (.returned (m.read u y))) := by
  have hl : (Instruction.exit y).isLabel = false := by simp [Instruction.isLabel, Instruction.exit]
  simp only [step, h, hl]
  simp [Instruction.exit]

theorem step_minus (h : code[a]? = some ⟨"minus", y, z, x⟩) :
    step m code ⟨a, u⟩ = .go ⟨a + 1, u.set x (m.negate (m.read u y))⟩ := by
  have hl : (Instruction.mk "minus" y z x).isLabel = false := by simp [Instruction.isLabel]
  simp only [step, h, hl]
  simp

theorem step_operator {op : Operator} (h : code[a]? = some ⟨op.symbol, y, z, x⟩) :
    step m code ⟨a, u⟩ = .go ⟨a + 1, u.set x (m.binary op (m.read u y) (m.read u z))⟩ := by
  have hl : (Instruction.mk op.symbol y z x).isLabel = false := by
    cases op <;> simp [Instruction.isLabel, Operator.symbol]
  have ho : Operator.ofSymbol? op.symbol = some op := Operator.ofSymbol?_symbol op
  simp only [step, h, hl]
  cases op <;> simp_all [Operator.symbol]

theorem step_jump {p : Polarity} (h : code[a]? = some (p.jump y x)) (hx : find? code x = some b) :
    step m code ⟨a, u⟩ = .go ⟨if m.truth (m.read u y) = p.stays then a + 1 else b, u⟩ := by
  have hl : (p.jump y x).isLabel = false :=
    Instruction.isLabel_of_isJump (by cases p <;> simp [Instruction.isJump, Polarity.jump])
  simp only [step, h, hl]
  cases ht : m.truth (m.read u y) with
  | true => cases p <;> simp [Polarity.jump, Polarity.stays, jumpTo, hx, ht]
  | false => cases p <;> simp [Polarity.jump, Polarity.stays, jumpTo, hx, ht]

end

end Code

end ThreeAddress

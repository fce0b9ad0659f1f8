import ThreeAddress.Proofs.Code.Labels

/-!
# The two polarities

Under the older polarity a branch has its bodies the other way round, and its conditions jump when
they are true. That is all: code of the older polarity is code of the standard one for the tree with
exchanged bodies (`Node.exchanged`), with every condition jumping the other way
(`Instruction.inverted`). The numbers are the same too, since they follow the order of emission.
-/

namespace ThreeAddress

open Code

/-! ## Jumps the other way -/

namespace Instruction

/-- The instruction with a jump on a false condition made a jump on a true one. -/
def inverted (i : Instruction) : Instruction :=
  if i.op = "ifFalse" then { i with op := "if" } else i

theorem inverted_of_not_jump {i : Instruction} (h : i.target? = none) : i.inverted = i := by
  unfold inverted
  split
  · next hop => simp [target?, isJump, hop] at h
  · rfl

@[simp] theorem inverted_label (name : String) : (label name).inverted = label name :=
  inverted_of_not_jump (target?_label name)

@[simp] theorem inverted_assign (value target : String) :
    (assign value target).inverted = assign value target :=
  inverted_of_not_jump (target?_assign value target)

@[simp] theorem inverted_exit (value : String) : (exit value).inverted = exit value :=
  inverted_of_not_jump (target?_exit value)

@[simp] theorem inverted_goto (name : String) : (goto name).inverted = goto name := by
  simp [inverted, goto]

@[simp] theorem inverted_jump (condition name : String) :
    (Polarity.jumpIfFalse.jump condition name).inverted =
      Polarity.jumpIfTrue.jump condition name := by
  simp [inverted, Polarity.jump]

end Instruction

/-- There is nothing to invert in code without jumps. -/
theorem Code.Quiet.map_inverted {code : List Instruction} (h : Quiet code) :
    code.map Instruction.inverted = code := by
  have hi : ∀ i ∈ code, i.inverted = i := fun i hi => Instruction.inverted_of_not_jump (h i hi).2
  rw [List.map_congr_left hi, List.map_id']

namespace Emitted

/-- The same code with all jumps on conditions inverted. -/
def inverted (e : Emitted) : Emitted :=
  ⟨e.counters, e.code.map Instruction.inverted⟩

variable {v : Operand} (x y : Nat) (f g : Emitted)

@[simp] theorem inverted_counters : f.inverted.counters = f.counters := rfl

theorem inverted_branch (hv : Quiet v.code) : (branch .jumpIfFalse v x y f g).inverted =
    branch .jumpIfTrue v x y f.inverted g.inverted := by
  simp [branch, inverted, hv.map_inverted]

theorem inverted_loop (hv : Quiet v.code) : (loop .jumpIfFalse v x y f).inverted =
    loop .jumpIfTrue v x y f.inverted := by
  simp [loop, inverted, hv.map_inverted]

end Emitted

/-! ## Bodies the other way round -/

namespace Node

mutual

/-- The tree with the two bodies of every branch exchanged. -/
def exchanged : Node → Node
  | .function returns name params body => .function returns name params (exchangedAll body)
  | .branch condition thenBody elseBody =>
    .branch condition (exchangedAll elseBody) (exchangedAll thenBody)
  | .loop condition body => .loop condition (exchangedAll body)
  | .assign target value => .assign target value
  | .exit value => .exit value
  | .binary op left right => .binary op left right
  | .negate operand => .negate operand
  | .literal ty text => .literal ty text
  | .var name => .var name

def exchangedAll : List Node → List Node
  | [] => []
  | node :: rest => exchanged node :: exchangedAll rest

end

mutual

theorem emit_exchanged (r : Resolution) : ∀ (node : Node) (k : Counters),
    node.emit ⟨.jumpIfTrue, r⟩ k = (node.exchanged.emit ⟨.jumpIfFalse, r⟩ k).inverted
  | .function _ _ _ body, k => emitAll_exchanged r body k
  | .branch c t e, k => by
    have hc := quiet_resolve r k.temporaries c
    -- the older polarity emits the alternative first, as the standard one does after the exchange
    rw [exchanged, emit_branch, emit_branch, Emitted.inverted_branch _ _ _ _ hc]
    simp only [Polarity.fallen, Polarity.jumped]
    rw [emitAll_exchanged r e, emitAll_exchanged r t, Emitted.inverted_counters]
  | .loop c body, k => by
    have hc := quiet_resolve r k.temporaries c
    rw [exchanged, emit_loop, emit_loop, Emitted.inverted_loop _ _ _ hc, emitAll_exchanged r body]
  | .assign target value, k => by
    have hv := quiet_resolve r k.temporaries value
    simp [exchanged, emit, Emitted.inverted, hv.map_inverted]
  | .exit value, k => by
    have hv := quiet_resolve r k.temporaries value
    simp [exchanged, emit, Emitted.inverted, hv.map_inverted]
  | .binary op left right, k => by
    have hv := quiet_resolve r k.temporaries (.binary op left right)
    simp [exchanged, emit, Emitted.inverted, hv.map_inverted]
  | .negate value, k => by
    have hv := quiet_resolve r k.temporaries (.negate value)
    simp [exchanged, emit, Emitted.inverted, hv.map_inverted]
  | .literal .., _ => rfl
  | .var _, _ => rfl

theorem emitAll_exchanged (r : Resolution) : ∀ (nodes : List Node) (k : Counters),
    emitAll ⟨.jumpIfTrue, r⟩ k nodes =
      (emitAll ⟨.jumpIfFalse, r⟩ k (exchangedAll nodes)).inverted
  | [], _ => rfl
  | node :: rest, k => by
    rw [emitAll, emit_exchanged r node, exchangedAll, emitAll, emitAll_exchanged r rest]
    simp [Emitted.inverted]

end

end Node

/-- The code of any nodes under the older polarity is their code under the standard one after an
exchange of the bodies of every branch, with every condition jumping if true instead of if false. -/
theorem polarities_differ_in_branches (r : Resolution) (k : Counters) (nodes : List Node) :
    let older := Node.emitAll ⟨.jumpIfTrue, r⟩ k nodes
    let standard := Node.emitAll ⟨.jumpIfFalse, r⟩ k (Node.exchangedAll nodes)
    older.code = standard.code.map Instruction.inverted ∧ older.counters = standard.counters := by
  intro older standard
  have h : older = standard.inverted := Node.emitAll_exchanged r nodes k
  rw [h]
  exact ⟨rfl, rfl⟩

end ThreeAddress
